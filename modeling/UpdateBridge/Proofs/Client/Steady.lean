import UpdateBridge.Proofs.Client.Account

/-!
# A client between two moments

At every moment at which nothing is left to be done, nobody waits for a free
client, the call that has the client is due later, and so is the patience of
everybody who waits. `Steady` says this together with the account of all
calls. What happens at one moment ends in such a state (`Accounts.settle`), and
the next due moment takes a call out of the line, so the number of calls in it
bounds the moments that are passed through while nobody calls.
-/

namespace UpdateBridge.SharedClient

variable {c : SharedClient} {patience now moment : Nat} {plan : List Conduct}
  {tickets : List Ticket} {t : Ticket} {h : Holding}

def Action.calls : Action → List Call
  | .issue call => [call]
  | .setOnline _ => []
  | .wait _ => []

/-- Nothing is left to be done at the present moment. -/
structure Steady (c : SharedClient) (patience : Nat) (plan : List Conduct) (now : Nat)
    (tickets : List Ticket) : Prop where
  accounts : c.Accounts patience plan now tickets c.waiting
  idle : c.holder = none → c.waiting = []
  busy : ∀ h ∈ c.holder, now < h.till
  patient : ∀ t ∈ c.waiting, now < c.deadline t

theorem passOn_of_none (free : c.holder = none) : c.passOn = c := by
  rw [passOn, free]

theorem passOn_of_some (holding : c.holder = some h) :
    c.passOn = if h.till ≤ c.now then (c.completing h).serve c.waiting else c := by
  rw [passOn, holding]
  rfl

/-- Who waits is unchanged by the passing on, or the client was due and the
first in the line no longer waits. -/
theorem waiting_passOn (c : SharedClient) : c.passOn.waiting.Sublist c.waiting := by
  cases holding : c.holder with
  | none => rw [passOn_of_none holding]
  | some h =>
      rw [passOn_of_some holding]
      split
      · exact (waiting_serve (holder_completing c h) _).trans (List.tail_sublist _)
      · exact List.Sublist.refl _

theorem settle_waiting (c : SharedClient) : c.settle.waiting.Sublist c.waiting := by
  rw [settle, waiting_dropImpatient]
  refine List.filter_sublist.trans ((waiting_passOn _).trans ?_)
  rw [waiting_dropImpatient]
  exact List.filter_sublist

theorem Accounts.passOn (hc : c.Accounts patience plan now tickets c.waiting) :
    c.passOn.Accounts patience plan now tickets c.passOn.waiting := by
  cases holding : c.holder with
  | none => rwa [passOn_of_none holding]
  | some h =>
      rw [passOn_of_some holding]
      split
      · exact (hc.completing holding).serve (holder_completing c h)
      · exact hc

theorem pending_dropImpatient (c : SharedClient) (among : Ticket → Bool) :
    (c.dropImpatient among).pending ≤ c.pending := by
  rw [pending, pending, waiting_dropImpatient, holder_dropImpatient]
  exact Nat.add_le_add_right (List.length_filter_le _ _) _

theorem pending_serve (free : c.holder = none) (waiting : List Ticket) :
    (c.serve waiting).pending ≤ waiting.length := by
  induction waiting generalizing c with
  | nil =>
      show 0 + (if c.holder.isSome then 1 else 0) ≤ 0
      rw [free]
      exact Nat.le_refl 0
  | cons t others ih =>
      rw [serve_cons free]
      split
      · exact Nat.le_succ_of_le (ih rfl)
      · exact Nat.le_refl _

/-- A call that the link is done with leaves the line. -/
theorem pending_passOn (holding : c.holder = some h) (due : h.till ≤ c.now) :
    c.passOn.pending < c.pending := by
  have before : c.pending = c.waiting.length + 1 := by rw [pending, holding]; rfl
  rw [passOn_of_some holding, if_pos due, before]
  exact Nat.lt_succ_of_le (pending_serve (holder_completing c h) _)

theorem now_dropImpatient (c : SharedClient) (among : Ticket → Bool) :
    (c.dropImpatient among).now = c.now := by
  rw [dropImpatient_eq, foldl_giveUp]

theorem pending_settle (holding : c.holder = some h) (due : h.till ≤ c.now) :
    c.settle.pending < c.pending := by
  have passed : (c.dropImpatient c.precedesHolder).passOn.pending <
      (c.dropImpatient c.precedesHolder).pending := by
    refine pending_passOn (h := h) ?_ ?_
    · rwa [holder_dropImpatient]
    · rwa [now_dropImpatient]
  calc c.settle.pending
      ≤ (c.dropImpatient c.precedesHolder).passOn.pending := pending_dropImpatient _ _
    _ < (c.dropImpatient c.precedesHolder).pending := passed
    _ ≤ c.pending := pending_dropImpatient _ _

theorem holder_passOn (idle : c.holder = none → c.waiting = []) :
    (c.passOn.holder = none ∧ c.passOn.waiting = []) ∨
      ∃ h, c.passOn.holder = some h ∧ c.now < h.till := by
  cases holding : c.holder with
  | none =>
      rw [passOn_of_none holding]
      exact Or.inl ⟨holding, idle holding⟩
  | some h =>
      rw [passOn_of_some holding]
      split
      · exact holder_serve (holder_completing c h) c.waiting
      · next early => exact Or.inr ⟨h, holding, Nat.lt_of_not_le early⟩

/-- When everything has happened that is due, nothing is left to be done. -/
theorem Accounts.settle (hc : c.Accounts patience plan now tickets c.waiting)
    (idle : c.holder = none → c.waiting = []) : c.settle.Steady patience plan now tickets := by
  -- Who gives up before the link is done, then the passing on, then everybody else
  -- who gives up at this moment.
  have first := hc.dropImpatient c.precedesHolder
  have second := first.passOn
  have third := second.dropImpatient fun _ => true
  have kept := holder_passOn (c := c.dropImpatient c.precedesHolder) fun free => by
    rw [waiting_dropImpatient, idle ((holder_dropImpatient c _).symm.trans free)]
    rfl
  rw [first.now_eq] at kept
  refine ⟨third, ?_, ?_, ?_⟩
  · intro free
    rw [SharedClient.settle, holder_dropImpatient] at free
    rw [SharedClient.settle, waiting_dropImpatient]
    obtain ⟨-, nobody⟩ | ⟨h, holding, -⟩ := kept
    · rw [nobody]
      rfl
    · rw [free] at holding
      cases holding
  · intro h member
    rw [SharedClient.settle, holder_dropImpatient] at member
    obtain ⟨free, -⟩ | ⟨g, holding, later⟩ := kept
    · rw [free] at member
      cases member
    · rw [holding] at member
      cases member
      exact later
  · intro t member
    rw [SharedClient.settle, waiting_dropImpatient] at member
    have stays := (List.mem_filter.mp member).2
    rw [SharedClient.deadline, SharedClient.settle, third.patience_eq]
    rw [SharedClient.deadline, second.patience_eq, second.now_eq] at stays
    simpa using stays

/-- Nobody else waits when the only one gets the client. -/
theorem Accounts.serve_singleton (hc : c.Accounts patience plan now tickets [t])
    (free : c.holder = none) : (c.serve [t]).Steady patience plan now tickets := by
  have nobody : (c.serve [t]).waiting = [] := List.sublist_nil.mp (waiting_serve free [t])
  refine ⟨hc.serve free, fun _ => nobody, ?_, ?_⟩
  · intro h member
    obtain ⟨none, -⟩ | ⟨g, holding, later⟩ := holder_serve free [t]
    · rw [none] at member
      cases member
    · rw [holding] at member
      cases member
      rwa [hc.now_eq] at later
  · intro s member
    rw [nobody] at member
    cases member

theorem le_foldl_min {α : Type} (time : α → Nat) (items : List α) (last bound : Nat) :
    bound ≤ items.foldl (fun t w => min t (time w)) last ↔
      bound ≤ last ∧ ∀ w ∈ items, bound ≤ time w := by
  induction items generalizing last with
  | nil => simp
  | cons w items ih =>
      rw [List.foldl_cons, ih, Nat.le_min, List.forall_mem_cons, and_assoc]

theorem foldl_min_mem {α : Type} (time : α → Nat) (items : List α) (last : Nat) :
    items.foldl (fun t w => min t (time w)) last = last ∨
      ∃ w ∈ items, items.foldl (fun t w => min t (time w)) last = time w := by
  induction items generalizing last with
  | nil => exact Or.inl rfl
  | cons w items ih =>
      obtain same | ⟨v, member, same⟩ := ih (min last (time w))
      · rw [List.foldl_cons, same]
        obtain least | least := Nat.le_total last (time w)
        · exact Or.inl (Nat.min_eq_left least)
        · exact Or.inr ⟨w, List.mem_cons_self, Nat.min_eq_right least⟩
      · exact Or.inr ⟨v, List.mem_cons_of_mem w member, same⟩

/-- Nothing is due before the due moment, and something is due then. -/
theorem due_eq_some (due : c.due? = some moment) :
    ∃ h, c.holder = some h ∧ (moment ≤ h.till ∧ ∀ t ∈ c.waiting, moment ≤ c.deadline t) ∧
      (moment = h.till ∨ ∃ t ∈ c.waiting, moment = c.deadline t) := by
  cases holding : c.holder with
  | none =>
      rw [due?, holding] at due
      cases due
  | some h =>
      rw [due?, holding] at due
      obtain rfl := Option.some.inj due
      exact ⟨h, rfl, (le_foldl_min _ _ _ _).mp (Nat.le_refl _), foldl_min_mem _ _ _⟩

/-- Nothing is due when no call is under way. -/
theorem due_eq_none_of_pending (nothing : c.pending = 0) : c.due? = none := by
  cases holding : c.holder with
  | none => rw [due?, holding]
  | some h =>
      rw [pending, holding] at nothing
      cases nothing

theorem due_eq_none (due : c.due? = none) : c.holder = none := by
  cases holding : c.holder with
  | none => rfl
  | some h =>
      rw [due?, holding] at due
      cases due

/-- Nobody gives up before the end of its patience. -/
theorem dropImpatient_of_patient (patient : ∀ t ∈ c.waiting, c.now < c.deadline t)
    (among : Ticket → Bool) : c.dropImpatient among = c := by
  have stays : ∀ t ∈ c.waiting, (decide (c.deadline t ≤ c.now) && among t) = false := by
    intro t member
    rw [decide_eq_false (Nat.not_le.mpr (patient t member)), Bool.false_and]
  have nobody : c.waiting.filter (fun t => c.deadline t ≤ c.now && among t) = [] := by
    rw [List.filter_eq_nil_iff]
    exact fun t member => by rw [stays t member]; exact Bool.false_ne_true
  have everybody : c.waiting.filter (fun t => !(c.deadline t ≤ c.now && among t)) = c.waiting := by
    rw [List.filter_eq_self]
    exact fun t member => by rw [stays t member]; rfl
  rw [dropImpatient_eq, nobody, everybody]
  rfl

/-- Nothing happens when nothing is due. -/
theorem settle_of_early (busy : ∀ h ∈ c.holder, c.now < h.till)
    (patient : ∀ t ∈ c.waiting, c.now < c.deadline t) : c.settle = c := by
  have passOn : c.passOn = c := by
    cases holding : c.holder with
    | none => exact passOn_of_none holding
    | some h =>
        rw [passOn_of_some holding, if_neg (Nat.not_le.mpr (busy h holding))]
  rw [settle, dropImpatient_of_patient patient, passOn, dropImpatient_of_patient patient]

theorem advanceWith_of_early (early : ∀ t, c.due? = some t → moment < t) (fuel : Nat) :
    c.advanceWith moment fuel = { c with now := moment } := by
  cases fuel with
  | zero => rfl
  | succ fuel =>
      rw [advanceWith]
      split
      · next t due => rw [if_neg (Nat.not_le.mpr (early t due))]
      · rfl

theorem finishWith_of_due_none (nothing : c.due? = none) (fuel : Nat) : c.finishWith fuel = c := by
  cases fuel with
  | zero => rfl
  | succ fuel => rw [finishWith, nothing]

namespace Steady

/-- Nothing changes before the next due moment. -/
theorem wait (hc : c.Steady patience plan now tickets) (le : now ≤ moment)
    (early : ∀ t, c.due? = some t → moment < t) :
    { c with now := moment }.Steady patience plan moment tickets := by
  refine ⟨hc.accounts.later le, hc.idle, ?_, ?_⟩
  · intro h member
    have due : c.due? = some (c.waiting.foldl (fun t w => min t (c.deadline w)) h.till) := by
      rw [due?, Option.mem_def.mp member]
    exact ((le_foldl_min _ _ _ _).mp (early _ due)).1
  · intro t member
    cases holding : c.holder with
    | none =>
        rw [hc.idle holding] at member
        cases member
    | some h =>
        have due : c.due? = some (c.waiting.foldl (fun t w => min t (c.deadline w)) h.till) := by
          rw [due?, holding]
        exact ((le_foldl_min _ _ _ _).mp (early _ due)).2 t member

theorem jump_of_early (hc : c.Steady patience plan now tickets) (le : now ≤ moment)
    (early : ∀ t, c.due? = some t → moment < t) : c.jump moment = { c with now := moment } :=
  settle_of_early (hc.wait le early).busy (hc.wait le early).patient

/-- What is due is due later than now. -/
theorem lt_due (hc : c.Steady patience plan now tickets) (due : c.due? = some moment) :
    now < moment := by
  obtain ⟨h, holding, -, rfl | ⟨t, member, rfl⟩⟩ := due_eq_some due
  · exact hc.busy h holding
  · exact hc.patient t member

/-- Nothing is left to be done after a moment at which what is due has happened. -/
theorem jump_of_le (hc : c.Steady patience plan now tickets) (le : now ≤ moment) :
    (c.jump moment).Steady patience plan moment tickets :=
  (hc.accounts.later le).settle hc.idle

theorem jump (hc : c.Steady patience plan now tickets) (due : c.due? = some moment) :
    (c.jump moment).Steady patience plan moment tickets :=
  hc.jump_of_le (Nat.le_of_lt (hc.lt_due due))

/-- A due moment takes a call out of the line. -/
theorem pending_jump (hc : c.Steady patience plan now tickets) (due : c.due? = some moment) :
    (c.jump moment).pending < c.pending := by
  obtain ⟨h, holding, -, rfl | ⟨t, member, ends⟩⟩ := due_eq_some due
  · exact pending_settle (c := { c with now := h.till }) holding (Nat.le_refl _)
  · have order : (c.jump moment).waiting.Sublist c.waiting :=
      settle_waiting { c with now := moment }
    have gone : t ∉ (c.jump moment).waiting := by
      intro stays
      have later := (hc.jump due).patient t stays
      rw [deadline, (hc.jump due).accounts.patience_eq, ← hc.accounts.patience_eq, ends] at later
      exact Nat.lt_irrefl _ later
    have fewer : (c.jump moment).waiting.length < c.waiting.length := by
      refine Nat.lt_of_le_of_ne order.length_le fun same => gone ?_
      rwa [order.eq_of_length same]
    rw [pending, pending, holding]
    split <;> simp only [Option.isSome_some, if_true] <;> omega

theorem advanceWith {fuel : Nat} (hc : c.Steady patience plan now tickets) (le : now ≤ moment)
    (enough : c.pending ≤ fuel) :
    (c.advanceWith moment fuel).Steady patience plan moment tickets := by
  induction fuel generalizing c now with
  | zero =>
      refine hc.wait le fun t due => ?_
      rw [due_eq_none_of_pending (Nat.le_zero.mp enough)] at due
      cases due
  | succ fuel ih =>
      rw [SharedClient.advanceWith]
      split
      · next t due =>
          split
          · next soon =>
              have fewer := hc.pending_jump due
              exact ih (hc.jump due) soon (by omega)
          · next far =>
              refine hc.wait le fun t' due' => ?_
              rw [due] at due'
              cases due'
              exact Nat.lt_of_not_le far
      · next nothing =>
          refine hc.wait le fun t due => ?_
          rw [nothing] at due
          cases due

/-- Time passes until every call is over. -/
theorem finishWith {fuel : Nat} (hc : c.Steady patience plan now tickets)
    (enough : c.pending ≤ fuel) :
    ∃ moment, (c.finishWith fuel).Steady patience plan moment tickets ∧
      (c.finishWith fuel).holder = none := by
  induction fuel generalizing c now with
  | zero => exact ⟨now, hc, due_eq_none (due_eq_none_of_pending (Nat.le_zero.mp enough))⟩
  | succ fuel ih =>
      rw [SharedClient.finishWith]
      split
      · next t due =>
          have fewer := hc.pending_jump due
          exact ih (hc.jump due) (by omega)
      · next nothing => exact ⟨now, hc, due_eq_none nothing⟩

theorem fresh (patience : Nat) (plan : List Conduct) (broker : Broker) :
    (fresh patience plan broker).Steady patience plan 0 [] where
  accounts := Accounts.fresh patience plan broker
  idle _ := rfl
  busy h member := by cases member
  patient t member := by cases member

/-- A call is issued, and whatever it brings about at that moment happens. -/
theorem issue (hc : c.Steady patience plan now tickets) (call : Call) :
    (c.issue call).2.Steady patience plan now (tickets ++ [⟨c.issued, c.now, call⟩]) := by
  have issued := hc.accounts.issuing ⟨c.issued, c.now, call⟩ rfl
  have present := hc.accounts.now_eq
  rw [SharedClient.issue]
  dsimp only
  split
  · next free =>
      rw [Option.isNone_iff_eq_none] at free
      rw [hc.idle free] at issued ⊢
      exact issued.serve_singleton free
  · next taken =>
      rw [Option.isNone_iff_eq_none] at taken
      split
      · next impatient =>
          refine ⟨?_, hc.idle, hc.busy, hc.patient⟩
          show (List.foldl giveUp { c with issued := c.issued + 1 }
            [⟨c.issued, c.now, call⟩]).Accounts patience plan now _ c.waiting
          exact issued.foldl_giveUp List.perm_append_comm (List.sublist_append_left _ _)
      · next patient =>
          refine ⟨issued.believing _, fun free => absurd free taken, hc.busy, ?_⟩
          intro t member
          obtain member | last := List.mem_append.mp member
          · exact hc.patient t member
          · obtain rfl := List.mem_singleton.mp last
            show now < c.now + c.patience
            omega

theorem setOnline (hc : c.Steady patience plan now tickets) (online : Bool) :
    (c.setOnline online).Steady patience plan now tickets :=
  ⟨hc.accounts.setOnline online, hc.idle, hc.busy, hc.patient⟩

/-- An action issues its calls, and nothing is left to be done after it. -/
theorem act (hc : c.Steady patience plan now tickets) (action : Action) :
    ∃ later issued, issued.map Ticket.call = action.calls ∧
      (c.act action).Steady patience plan later (tickets ++ issued) := by
  cases action with
  | issue call => exact ⟨now, [⟨c.issued, c.now, call⟩], rfl, hc.issue call⟩
  | setOnline online =>
      refine ⟨now, [], rfl, ?_⟩
      rw [List.append_nil]
      exact hc.setOnline online
  | wait milliseconds =>
      refine ⟨c.now + milliseconds, [], rfl, ?_⟩
      rw [List.append_nil]
      refine hc.advanceWith ?_ (Nat.le_refl _)
      rw [hc.accounts.now_eq]
      exact Nat.le_add_right now milliseconds

/-- The calls of a run are those that its actions issue, in their order. -/
theorem run (hc : c.Steady patience plan now tickets) (actions : List Action) :
    ∃ later issued, issued.map Ticket.call = actions.flatMap Action.calls ∧
      (c.run actions).Steady patience plan later (tickets ++ issued) := by
  induction actions generalizing c now tickets with
  | nil =>
      refine ⟨now, [], rfl, ?_⟩
      rw [List.append_nil]
      exact hc
  | cons action actions ih =>
      obtain ⟨middle, first, calls, acted⟩ := hc.act action
      obtain ⟨later, others, rest, ran⟩ := ih acted
      refine ⟨later, first ++ others, ?_, ?_⟩
      · rw [List.map_append, List.flatMap_cons, calls, rest]
      · rwa [← List.append_assoc]

end Steady

/-! ## What everything that can happen keeps -/

/-- A property of steady clients that no call, no switch of the broker, no due moment
and no passing of time takes away. -/
structure Invariant (patience : Nat) (plan : List Conduct) (P : SharedClient → Prop) : Prop where
  issue : ∀ {c now tickets}, c.Steady patience plan now tickets → P c →
    ∀ call, P (c.issue call).2
  setOnline : ∀ {c}, P c → ∀ online, P (c.setOnline online)
  jump : ∀ {c now tickets moment}, c.Steady patience plan now tickets → P c →
    c.due? = some moment → P (c.jump moment)
  wait : ∀ {c now tickets moment}, c.Steady patience plan now tickets → P c → now ≤ moment →
    P { c with now := moment }

namespace Invariant

variable {P : SharedClient → Prop} {fuel : Nat}

theorem advanceWith (kept : Invariant patience plan P) (hc : c.Steady patience plan now tickets)
    (le : now ≤ moment) (holds : P c) : P (c.advanceWith moment fuel) := by
  induction fuel generalizing c now with
  | zero => exact kept.wait hc holds le
  | succ fuel ih =>
      rw [SharedClient.advanceWith]
      split
      · next t due =>
          split
          · next soon => exact ih (hc.jump due) soon (kept.jump hc holds due)
          · exact kept.wait hc holds le
      · exact kept.wait hc holds le

theorem finishWith (kept : Invariant patience plan P) (hc : c.Steady patience plan now tickets)
    (holds : P c) : P (c.finishWith fuel) := by
  induction fuel generalizing c now with
  | zero => exact holds
  | succ fuel ih =>
      rw [SharedClient.finishWith]
      split
      · next t due => exact ih (hc.jump due) (kept.jump hc holds due)
      · exact holds

theorem run (kept : Invariant patience plan P) (hc : c.Steady patience plan now tickets)
    (holds : P c) (actions : List Action) : P (c.run actions) := by
  induction actions generalizing c now tickets with
  | nil => exact holds
  | cons action actions ih =>
      obtain ⟨later, issued, -, acted⟩ := hc.act action
      refine ih acted ?_
      cases action with
      | issue call => exact kept.issue hc holds call
      | setOnline online => exact kept.setOnline holds online
      | wait milliseconds =>
          exact kept.advanceWith hc (hc.accounts.now_eq ▸ Nat.le_add_right _ _) holds

end Invariant

end UpdateBridge.SharedClient
