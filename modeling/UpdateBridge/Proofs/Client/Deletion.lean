import UpdateBridge.Proofs.Client.History

/-!
# Calls that leave no trace

A call whose caller gave up was in the line of those who wait and nowhere else:
the link never had it. Whoever was before or behind it in the line is served, or
gives up, at the same moment as without it, also where a patience ends at the
moment at which the client becomes free. So a course of calls can be compared
with the same course without some of the calls that end in this way: the calls
that are left get lower numbers (`place`), and everything else about them is the
same (`Mirrors`).

The two courses do not pass through the same moments. Where nothing is due but
the patience of calls that are gone, the shorter course stands still
(`Mirrors.jump`).
-/

namespace UpdateBridge

/-- The number that a call has when the calls that are gone are not counted. -/
def place (gone : Nat → Bool) (number : Nat) : Nat :=
  (List.range number).countP fun n => !gone n

/-- The call with its number among those that are not gone. -/
def Ticket.placed (gone : Nat → Bool) (t : Ticket) : Ticket :=
  { t with number := place gone t.number }

def Holding.placed (gone : Nat → Bool) (h : Holding) : Holding :=
  { h with ticket := h.ticket.placed gone }

def Ending.placed (gone : Nat → Bool) (e : Ending) : Ending :=
  { e with ticket := e.ticket.placed gone }

def Passage.placed (gone : Nat → Bool) (p : Passage) : Passage :=
  { p with ticket := p.ticket.placed gone }

theorem place_succ_of_gone {gone : Nat → Bool} {number : Nat} (absent : gone number = true) :
    place gone (number + 1) = place gone number := by
  simp [place, List.range_succ, absent]

theorem place_succ_of_kept {gone : Nat → Bool} {number : Nat} (kept : gone number = false) :
    place gone (number + 1) = place gone number + 1 := by
  simp [place, List.range_succ, kept]

namespace SharedClient

variable {gone : Nat → Bool} {c d : SharedClient} {patience now moment : Nat} {plan : List Conduct}
  {tickets tickets' waiting : List Ticket} {t : Ticket} {h : Holding}

/-- The calls that are not gone, with their numbers among these. -/
def remaining (gone : Nat → Bool) (tickets : List Ticket) : List Ticket :=
  (tickets.filter fun t => !gone t.number).map (Ticket.placed gone)

def remainingEndings (gone : Nat → Bool) (endings : List Ending) : List Ending :=
  (endings.filter fun e => !gone e.ticket.number).map (Ending.placed gone)

theorem remaining_cons_of_gone (absent : gone t.number = true) (tickets : List Ticket) :
    remaining gone (t :: tickets) = remaining gone tickets := by
  simp [remaining, absent]

theorem remaining_cons_of_kept (kept : gone t.number = false) (tickets : List Ticket) :
    remaining gone (t :: tickets) = t.placed gone :: remaining gone tickets := by
  simp [remaining, kept]

theorem remaining_append (first second : List Ticket) :
    remaining gone (first ++ second) = remaining gone first ++ remaining gone second := by
  rw [remaining, List.filter_append, List.map_append]
  rfl

/-- What is asked of a call does not depend on its number. -/
theorem filter_remaining {among among' : Ticket → Bool}
    (same : ∀ t, among' (t.placed gone) = among t) (tickets : List Ticket) :
    (remaining gone tickets).filter among' = remaining gone (tickets.filter among) := by
  have there : among' ∘ Ticket.placed gone = among := funext same
  rw [remaining, List.filter_map, there, remaining, List.filter_filter, List.filter_filter]
  simp only [Bool.and_comm]

/-- The second client is the first one without the calls that are gone. -/
structure Mirrors (gone : Nat → Bool) (c d : SharedClient) : Prop where
  patience_eq : d.patience = c.patience
  now_eq : d.now = c.now
  plan_eq : d.plan = c.plan
  broker_eq : d.broker = c.broker
  holder_eq : d.holder = c.holder.map (Holding.placed gone)
  holder_kept : ∀ h ∈ c.holder, gone h.ticket.number = false
  waiting_eq : d.waiting = remaining gone c.waiting
  issued_eq : d.issued = place gone c.issued
  endings_eq : d.endings = remainingEndings gone c.endings
  carried_eq : d.carried = c.carried.map fun entry => (entry.1, entry.2.placed gone)
  passages_eq : d.passages = c.passages.map (Passage.placed gone)

/-- The link was never given a call that is gone. -/
def Spares (gone : Nat → Bool) (c : SharedClient) : Prop :=
  ∀ entry ∈ c.carried, gone entry.2.number = false

theorem Spares.before (spares : Spares gone d) (later : Extends c d) : Spares gone c :=
  fun entry member => spares entry (later.carried.subset member)

/-- The link has the first call of those that wait for a free client. -/
theorem mem_carried_serve (free : c.holder = none) (t : Ticket) (others : List Ticket) :
    (c.now, t) ∈ (c.serve (t :: others)).carried := by
  have handed : (c.now, t) ∈ (c.handing (c.holding t)).carried :=
    List.mem_append_right _ List.mem_cons_self
  rw [serve_cons free]
  split
  · exact (extends_serve (c := (c.handing (c.holding t)).completing (c.holding t)) rfl
      others).carried.subset handed
  · exact handed

/-! ## What one moment brings -/

namespace Mirrors

theorem holder_none (mirrors : Mirrors gone c d) (free : c.holder = none) : d.holder = none := by
  rw [mirrors.holder_eq, free]
  rfl

theorem holder_some (mirrors : Mirrors gone c d) (holding : c.holder = some h) :
    d.holder = some (h.placed gone) := by
  rw [mirrors.holder_eq, holding]
  rfl

theorem later (mirrors : Mirrors gone c d) (moment : Nat) :
    Mirrors gone { c with now := moment } { d with now := moment } :=
  { mirrors with now_eq := rfl }

/-- Which calls wait is not tied to the rest. -/
theorem believing (mirrors : Mirrors gone c d) (waiting : List Ticket) :
    Mirrors gone { c with waiting } { d with waiting := remaining gone waiting } :=
  { mirrors with waiting_eq := rfl }

theorem setOnline (mirrors : Mirrors gone c d) (online : Bool) :
    Mirrors gone (c.setOnline online) (d.setOnline online) := by
  refine { mirrors with broker_eq := ?_ }
  show { d.broker with online } = { c.broker with online }
  rw [mirrors.broker_eq]

theorem holding_eq (mirrors : Mirrors gone c d) (t : Ticket) :
    d.holding (t.placed gone) = (c.holding t).placed gone := by
  rw [holding, mirrors.plan_eq, mirrors.now_eq]
  rfl

theorem handing (mirrors : Mirrors gone c d) (kept : gone h.ticket.number = false) :
    Mirrors gone (c.handing h) (d.handing (h.placed gone)) := by
  refine { mirrors with plan_eq := ?_, holder_eq := rfl, holder_kept := ?_, carried_eq := ?_ }
  · exact congrArg List.tail mirrors.plan_eq
  · intro g member
    cases member
    exact kept
  · show d.carried ++ [_] = (c.carried ++ [_]).map _
    rw [List.map_append, mirrors.carried_eq]
    rfl

theorem passing_eq (mirrors : Mirrors gone c d) (h : Holding) :
    d.passing (h.placed gone) = (c.passing h).placed gone := by
  rw [passing, mirrors.now_eq, mirrors.broker_eq]
  rfl

theorem completing (mirrors : Mirrors gone c d) (kept : gone h.ticket.number = false) :
    Mirrors gone (c.completing h) (d.completing (h.placed gone)) := by
  refine { mirrors with
    broker_eq := ?_, holder_eq := rfl, holder_kept := ?_, endings_eq := ?_, passages_eq := ?_ }
  · show (h.ticket.call.perform h.failure d.broker).broker =
      (h.ticket.call.perform h.failure c.broker).broker
    rw [mirrors.broker_eq]
  · intro g member
    cases member
  · have told : remainingEndings gone [(c.passing h).ending] =
        [((c.passing h).placed gone).ending] := by
      have stays : (!gone h.ticket.number) = true := by rw [kept]; rfl
      rw [remainingEndings, List.filter_cons_of_pos (a := (c.passing h).ending) stays]
      rfl
    rw [endings_completing, endings_completing, remainingEndings, List.filter_append,
      List.map_append, mirrors.passing_eq, mirrors.endings_eq]
    exact congrArg (remainingEndings gone c.endings ++ ·) told.symm
  · rw [passages_completing, passages_completing, List.map_append, mirrors.passing_eq,
      mirrors.passages_eq]
    rfl

/-- Whoever gives up in the longer course and is not gone gives up in the other. -/
theorem foldl_giveUp (mirrors : Mirrors gone c d) (giving : List Ticket) :
    Mirrors gone (giving.foldl giveUp c) ((remaining gone giving).foldl giveUp d) := by
  rw [SharedClient.foldl_giveUp, SharedClient.foldl_giveUp]
  refine { mirrors with endings_eq := ?_ }
  have lapse : (Ending.placed gone) ∘ c.lapse = d.lapse ∘ Ticket.placed gone := by
    funext t
    rw [Function.comp_apply, Function.comp_apply, SharedClient.lapse, SharedClient.lapse,
      mirrors.now_eq, mirrors.patience_eq]
    rfl
  show d.endings ++ (remaining gone giving).map d.lapse =
    remainingEndings gone (c.endings ++ giving.map c.lapse)
  rw [mirrors.endings_eq, remainingEndings, remainingEndings, List.filter_append, List.map_append,
    List.filter_map, List.map_map, lapse, remaining, List.map_map]
  rfl

theorem dropImpatient {among among' : Ticket → Bool} (mirrors : Mirrors gone c d)
    (same : ∀ t, among' (t.placed gone) = among t) :
    Mirrors gone (c.dropImpatient among) (d.dropImpatient among') := by
  let impatient (c : SharedClient) (among : Ticket → Bool) (t : Ticket) : Bool :=
    c.deadline t ≤ c.now && among t
  have alike : ∀ t, impatient d among' (t.placed gone) = impatient c among t := by
    intro t
    simp only [impatient, same, deadline, mirrors.patience_eq, mirrors.now_eq]
    rfl
  have giving := @filter_remaining gone (impatient c among) (impatient d among') alike c.waiting
  have staying := @filter_remaining gone (fun t => !impatient c among t)
    (fun t => !impatient d among' t) (fun t => congrArg not (alike t)) c.waiting
  rw [dropImpatient_eq, dropImpatient_eq, mirrors.waiting_eq, giving, staying]
  exact (mirrors.believing _).foldl_giveUp _

/-- The calls that are gone stay in the line: if it were their turn, the link
would have them. -/
theorem serve (mirrors : Mirrors gone c d) (free : c.holder = none)
    (spares : Spares gone (c.serve waiting)) :
    Mirrors gone (c.serve waiting) (d.serve (remaining gone waiting)) := by
  induction waiting generalizing c d with
  | nil => exact mirrors.believing []
  | cons t others ih =>
      have kept : gone t.number = false := spares _ (mem_carried_serve free t others)
      have handed := mirrors.handing (h := c.holding t) kept
      rw [← mirrors.holding_eq] at handed
      rw [remaining_cons_of_kept kept, serve_cons (mirrors.holder_none free), mirrors.plan_eq]
      rw [serve_cons free] at spares ⊢
      split
      · next prompt =>
          rw [if_pos prompt] at spares
          have completed := handed.completing (h := c.holding t) kept
          rw [← mirrors.holding_eq] at completed
          exact ih completed rfl spares
      · exact handed.believing others

theorem passOn (mirrors : Mirrors gone c d) (spares : Spares gone c.passOn) :
    Mirrors gone c.passOn d.passOn := by
  cases holding : c.holder with
  | none => rwa [passOn_of_none holding, passOn_of_none (mirrors.holder_none holding)]
  | some h =>
      rw [passOn_of_some holding] at spares ⊢
      rw [passOn_of_some (mirrors.holder_some holding), mirrors.now_eq, mirrors.waiting_eq]
      show Mirrors gone _ (if h.till ≤ c.now then _ else _)
      split
      · next due =>
          rw [if_pos due] at spares
          exact (mirrors.completing (mirrors.holder_kept h holding)).serve rfl spares
      · exact mirrors

theorem settle (mirrors : Mirrors gone c d) (spares : Spares gone c.settle) :
    Mirrors gone c.settle d.settle := by
  have precedes : ∀ t, d.precedesHolder (Ticket.placed gone t) = c.precedesHolder t := by
    intro t
    rw [precedesHolder, precedesHolder, mirrors.holder_eq, Option.any_map]
    rfl
  have passed : Spares gone (c.dropImpatient c.precedesHolder).passOn := by
    rwa [SharedClient.settle, Spares, dropImpatient_eq, SharedClient.foldl_giveUp] at spares
  exact ((mirrors.dropImpatient precedes).passOn passed).dropImpatient fun _ => rfl

theorem due_none (mirrors : Mirrors gone c d) (nothing : c.due? = none) : d.due? = none := by
  rw [due?, mirrors.holder_none (due_eq_none nothing)]

/-- With fewer callers waiting nothing is due earlier. -/
theorem due_some {due : Nat} (mirrors : Mirrors gone c d) (next : c.due? = some due) :
    ∃ due', d.due? = some due' ∧ due ≤ due' := by
  obtain ⟨h, holding, ⟨busy, patient⟩, -⟩ := due_eq_some next
  refine ⟨d.waiting.foldl (fun t w => min t (d.deadline w)) h.till, ?_, ?_⟩
  · rw [due?, mirrors.holder_some holding]
    rfl
  · rw [le_foldl_min, mirrors.waiting_eq]
    refine ⟨busy, fun w member => ?_⟩
    obtain ⟨t, kept, rfl⟩ := List.mem_map.mp member
    rw [deadline, mirrors.patience_eq]
    exact patient t (List.mem_filter.mp kept).1

theorem early (mirrors : Mirrors gone c d) (early : ∀ t, c.due? = some t → moment < t) (t : Nat)
    (due' : d.due? = some t) : moment < t := by
  cases due : c.due? with
  | none =>
      rw [mirrors.due_none due] at due'
      cases due'
  | some first =>
      obtain ⟨next, next', le⟩ := mirrors.due_some due
      rw [due'] at next'
      cases next'
      exact Nat.lt_of_lt_of_le (early first due) le

/-- At the next due moment either the same is due in both courses, or only calls
that are gone give up, and then nothing is due in the other. -/
theorem jump {due : Nat} (mirrors : Mirrors gone c d) (hc : c.Steady patience plan now tickets)
    (hd : d.Steady patience plan now tickets') (next : c.due? = some due)
    (spares : Spares gone (c.jump due)) :
    ∃ d', Mirrors gone (c.jump due) d' ∧ d'.Steady patience plan due tickets' ∧
      ((d.due? = some due ∧ d' = d.jump due) ∨
        ∃ due', d.due? = some due' ∧ d' = { d with now := due }) := by
  obtain ⟨due', next', le⟩ := mirrors.due_some next
  have settled : Mirrors gone (c.jump due) (d.jump due) := (mirrors.later due).settle spares
  obtain rfl | lt := Nat.eq_or_lt_of_le le
  · exact ⟨d.jump due, settled, hd.jump next', .inl ⟨next', rfl⟩⟩
  · have early : ∀ t, d.due? = some t → due < t := by
      intro t same
      rw [next'] at same
      cases same
      exact lt
    have later := Nat.le_of_lt (hc.lt_due next)
    rw [hd.jump_of_early later early] at settled
    exact ⟨_, settled, hd.wait later early, .inr ⟨due', next', rfl⟩⟩

theorem advanceWith_of_early {fuel fuel' : Nat} (mirrors : Mirrors gone c d)
    (early : ∀ t, c.due? = some t → moment < t) :
    Mirrors gone (c.advanceWith moment fuel) (d.advanceWith moment fuel') := by
  rw [SharedClient.advanceWith_of_early early,
    SharedClient.advanceWith_of_early (mirrors.early early)]
  exact mirrors.later moment

theorem advanceWith {fuel fuel' : Nat} (mirrors : Mirrors gone c d)
    (hc : c.Steady patience plan now tickets) (hd : d.Steady patience plan now tickets')
    (enough : c.pending ≤ fuel) (enough' : d.pending ≤ fuel')
    (spares : Spares gone (c.advanceWith moment fuel)) :
    Mirrors gone (c.advanceWith moment fuel) (d.advanceWith moment fuel') := by
  -- The induction is on the moments of the longer course. The other one catches
  -- up where something is due in both, and its time in between is of no account.
  induction fuel generalizing c d fuel' now with
  | zero =>
      refine mirrors.advanceWith_of_early fun t due => ?_
      rw [due_eq_none_of_pending (Nat.le_zero.mp enough)] at due
      cases due
  | succ fuel ih =>
      by_cases soon : ∃ due, c.due? = some due ∧ due ≤ moment
      · obtain ⟨due, next, soon⟩ := soon
        have fewer := hc.pending_jump next
        have passed : c.advanceWith moment (fuel + 1) = (c.jump due).advanceWith moment fuel := by
          rw [SharedClient.advanceWith, next]
          exact if_pos soon
        rw [passed] at spares ⊢
        obtain ⟨d', jumped, hd', ⟨next', rfl⟩ | ⟨due', -, rfl⟩⟩ :=
          mirrors.jump hc hd next (spares.before (extends_advanceWith _ _ _))
        · have fewer' := hd.pending_jump next'
          obtain ⟨left, rfl⟩ := Nat.exists_eq_add_one_of_ne_zero (n := fuel') (by omega)
          have passed' :
              d.advanceWith moment (left + 1) = (d.jump due).advanceWith moment left := by
            rw [SharedClient.advanceWith, next']
            exact if_pos soon
          rw [passed']
          exact ih jumped (hc.jump next) hd' (by omega) (by omega) spares
        · have unmoved : { d with now := due }.advanceWith moment fuel' =
              d.advanceWith moment fuel' := by
            cases fuel' <;> rfl
          rw [← unmoved]
          exact ih jumped (hc.jump next) hd' (by omega) enough' spares
      · refine mirrors.advanceWith_of_early fun t due => ?_
        exact Nat.lt_of_not_le fun le => soon ⟨t, due, le⟩

/-- When every call is over the two courses agree on everything but the present
moment. -/
theorem finishWith {fuel fuel' : Nat} (mirrors : Mirrors gone c d)
    (hc : c.Steady patience plan now tickets) (hd : d.Steady patience plan now tickets')
    (enough : c.pending ≤ fuel) (enough' : d.pending ≤ fuel')
    (spares : Spares gone (c.finishWith fuel)) :
    Mirrors gone (c.finishWith fuel) (d.finishWith fuel') := by
  induction fuel generalizing c d fuel' now with
  | zero =>
      have nothing := mirrors.due_none (due_eq_none_of_pending (Nat.le_zero.mp enough))
      rw [finishWith_of_due_none nothing]
      exact mirrors
  | succ fuel ih =>
      rw [SharedClient.finishWith] at spares ⊢
      cases next : c.due? with
      | none =>
          rw [finishWith_of_due_none (mirrors.due_none next)]
          exact mirrors
      | some due =>
          have fewer := hc.pending_jump next
          rw [next] at spares
          obtain ⟨d', jumped, hd', ⟨next', rfl⟩ | ⟨due', next', rfl⟩⟩ :=
            mirrors.jump hc hd next (spares.before (extends_finishWith _ _))
          · have fewer' := hd.pending_jump next'
            obtain ⟨left, rfl⟩ := Nat.exists_eq_add_one_of_ne_zero (n := fuel') (by omega)
            rw [SharedClient.finishWith, next']
            exact ih jumped (hc.jump next) hd' (by omega) (by omega) spares
          · have fewer' := hd.pending_jump next'
            obtain ⟨left, rfl⟩ := Nat.exists_eq_add_one_of_ne_zero (n := fuel') (by omega)
            have unmoved :
                { d with now := due }.finishWith (left + 1) = d.finishWith (left + 1) := by
              have same : { d with now := due }.due? = some due' := next'
              rw [SharedClient.finishWith, SharedClient.finishWith, same, next']
              rfl
            rw [← unmoved]
            exact ih jumped (hc.jump next) hd' (by omega) enough' spares

/-- A call that is not gone is issued in both courses. -/
theorem issue {call : Call} (mirrors : Mirrors gone c d) (kept : gone c.issued = false)
    (spares : Spares gone (c.issue call).2) : Mirrors gone (c.issue call).2 (d.issue call).2 := by
  let ticket : Ticket := ⟨c.issued, c.now, call⟩
  have same : (⟨d.issued, d.now, call⟩ : Ticket) = ticket.placed gone := by
    rw [mirrors.issued_eq, mirrors.now_eq]
    rfl
  have last : remaining gone [ticket] = [ticket.placed gone] := remaining_cons_of_kept kept []
  have counted : Mirrors gone { c with issued := c.issued + 1 } { d with issued := d.issued + 1 } :=
    { mirrors with issued_eq := by rw [place_succ_of_kept kept, mirrors.issued_eq] }
  have line : d.waiting ++ [ticket.placed gone] = remaining gone (c.waiting ++ [ticket]) := by
    rw [remaining_append, last, mirrors.waiting_eq]
  cases holding : c.holder with
  | none =>
      rw [issue_of_none holding] at spares ⊢
      rw [issue_of_none (mirrors.holder_none holding), same, line]
      exact counted.serve holding spares
  | some h =>
      have holding' := mirrors.holder_some holding
      have patience' := mirrors.patience_eq
      by_cases impatient : c.patience = 0
      · rw [issue_of_impatient holding impatient,
          issue_of_impatient holding' (patience'.trans impatient), same]
        have given := counted.foldl_giveUp [ticket]
        rw [last] at given
        exact given
      · rw [issue_of_patient holding impatient,
          issue_of_patient holding' (patience'.trans_ne impatient), same, line]
        exact counted.believing _

/-- A call that is gone finds the client taken, and nobody notices it. -/
theorem issue_gone {call : Call} (mirrors : Mirrors gone c d)
    (hc : c.Steady patience plan now tickets) (absent : gone c.issued = true)
    (spares : Spares gone (c.issue call).2) : Mirrors gone (c.issue call).2 d := by
  let ticket : Ticket := ⟨c.issued, c.now, call⟩
  have nobody : remaining gone [ticket] = [] := remaining_cons_of_gone absent []
  have counted : Mirrors gone { c with issued := c.issued + 1 } d :=
    { mirrors with issued_eq := by rw [place_succ_of_gone absent, mirrors.issued_eq] }
  cases holding : c.holder with
  | none =>
      have first : c.waiting ++ [(⟨c.issued, c.now, call⟩ : Ticket)] = [ticket] := by
        rw [hc.idle holding]
        rfl
      rw [issue_of_none holding, first] at spares
      have kept : gone ticket.number = false :=
        spares _ (mem_carried_serve (c := { c with issued := c.issued + 1 }) holding ticket [])
      rw [absent] at kept
      cases kept
  | some h =>
      by_cases impatient : c.patience = 0
      · rw [issue_of_impatient holding impatient]
        have given := counted.foldl_giveUp [ticket]
        rw [nobody] at given
        exact given
      · rw [issue_of_patient holding impatient]
        refine { counted with waiting_eq := ?_ }
        show d.waiting = remaining gone (c.waiting ++ [ticket])
        rw [remaining_append, nobody, List.append_nil, mirrors.waiting_eq]

end Mirrors

/-! ## Courses -/

/-- The actions without the calls that are gone, where the first call that they
issue has this number. -/
def without (gone : Nat → Bool) : Nat → List Action → List Action
  | _, [] => []
  | number, .issue call :: actions =>
    if gone number then without gone (number + 1) actions
    else .issue call :: without gone (number + 1) actions
  | number, .setOnline online :: actions => .setOnline online :: without gone number actions
  | number, .wait milliseconds :: actions => .wait milliseconds :: without gone number actions

theorem Accounts.issued_eq (hc : c.Accounts patience plan now tickets waiting) :
    c.issued = tickets.length := by
  have counted := congrArg List.length hc.numbers
  rw [List.length_map, List.length_range] at counted
  exact counted.symm

/-- Calls are numbered in the order of their issue. -/
theorem Steady.issued_act (hc : c.Steady patience plan now tickets) (action : Action) :
    (c.act action).issued = c.issued + action.calls.length := by
  obtain ⟨later, issued, calls, acted⟩ := hc.act action
  rw [acted.accounts.issued_eq, List.length_append, ← calls, List.length_map,
    hc.accounts.issued_eq]

/-- Without the calls that are gone a course mirrors the course with them. -/
theorem Mirrors.run {now' : Nat} (mirrors : Mirrors gone c d)
    (hc : c.Steady patience plan now tickets) (hd : d.Steady patience plan now' tickets')
    (actions : List Action) (spares : Spares gone (c.run actions)) :
    Mirrors gone (c.run actions) (d.run (without gone c.issued actions)) := by
  induction actions generalizing c d now now' tickets tickets' with
  | nil => exact mirrors
  | cons action actions ih =>
      have counted := hc.issued_act action
      obtain ⟨later, issued, -, acted⟩ := hc.act action
      have first : Spares gone (c.act action) := spares.before (extends_run _ _)
      cases action with
      | issue call =>
          change (c.act (.issue call)).issued = c.issued + 1 at counted
          rw [without, ← counted]
          split
          · next absent => exact ih (mirrors.issue_gone hc absent first) acted hd spares
          · next kept =>
              rw [Bool.not_eq_true] at kept
              exact ih (mirrors.issue kept first) acted (hd.issue call) spares
      | setOnline online =>
          exact ih (mirrors.setOnline online) acted (hd.setOnline online) spares
      | wait milliseconds =>
          change (c.act (.wait milliseconds)).issued = c.issued at counted
          obtain ⟨later', issued', -, acted'⟩ := hd.act (.wait milliseconds)
          rw [without, ← counted]
          refine ih ?_ acted acted' spares
          obtain rfl : now' = now := by
            rw [← hd.accounts.now_eq, mirrors.now_eq, hc.accounts.now_eq]
          show Mirrors gone _ (d.advanceTo (d.now + milliseconds))
          rw [mirrors.now_eq]
          exact mirrors.advanceWith hc hd (Nat.le_refl _) (Nat.le_refl _) first

theorem Mirrors.fresh (gone : Nat → Bool) (patience : Nat) (plan : List Conduct)
    (broker : Broker) : Mirrors gone (fresh patience plan broker) (fresh patience plan broker) where
  patience_eq := rfl
  now_eq := rfl
  plan_eq := rfl
  broker_eq := rfl
  holder_eq := rfl
  holder_kept h member := by cases member
  waiting_eq := rfl
  issued_eq := rfl
  endings_eq := rfl
  carried_eq := rfl
  passages_eq := rfl

/-- Whoever gave up was not served. -/
theorem Accounts.spares (hc : c.Accounts patience plan now tickets waiting) (free : c.holder = none)
    (lapsed : ∀ e ∈ c.endings, gone e.ticket.number = true →
      e.result = .error (.lockTimeout patience)) :
    Spares gone c := by
  intro entry member
  have carried := hc.carried
  rw [free, Option.toList_none, List.map_nil, List.append_nil] at carried
  rw [carried] at member
  obtain ⟨p, passed, rfl⟩ := List.mem_map.mp member
  rw [← Bool.not_eq_true]
  intro absent
  have gaveUp : p.ending.gaveUp = true := by
    rw [Ending.gaveUp, lapsed p.ending (hc.ending_mem passed) absent]
  rw [Passage.gaveUp_ending] at gaveUp
  cases gaveUp

/-- Calls that end by the end of their callers' patience can be taken out of a
course, any number of them: every other call begins, ends and is answered as
before, the link has the same calls at the same times, and the broker is the
same, at the end and on the way. -/
theorem lapsed_calls_leave_no_trace (patience : Nat) (plan : List Conduct) (broker : Broker)
    (actions : List Action) (gone : Nat → Bool)
    (lapsed : ∀ e ∈ ((fresh patience plan broker).run actions).finish.endings,
      gone e.ticket.number = true → e.result = .error (.lockTimeout patience)) :
    let full := ((fresh patience plan broker).run actions).finish
    let rest := ((fresh patience plan broker).run (without gone 0 actions)).finish
    rest.endings = remainingEndings gone full.endings ∧
    rest.carried = full.carried.map (fun entry => (entry.1, entry.2.placed gone)) ∧
    rest.passages = full.passages.map (Passage.placed gone) ∧
    rest.broker = full.broker ∧
    ∀ first, first <+: actions →
      ((fresh patience plan broker).run (without gone 0 first)).broker =
        ((fresh patience plan broker).run first).broker := by
  intro full rest
  have begun := Steady.fresh patience plan broker
  obtain ⟨later, tickets, -, ran⟩ := begun.run actions
  obtain ⟨later', tickets', -, ran'⟩ := begun.run (without gone 0 actions)
  obtain ⟨moment, finished, free⟩ := ran.finishWith (Nat.le_refl _)
  have spares : Spares gone full := finished.accounts.spares free lapsed
  have before : Spares gone ((SharedClient.fresh patience plan broker).run actions) :=
    spares.before (extends_finishWith _ _)
  have mirrors := (Mirrors.fresh gone patience plan broker).run begun begun actions before
  obtain rfl : later' = later := by
    rw [← ran'.accounts.now_eq, ← ran.accounts.now_eq]
    exact mirrors.now_eq
  have alike : Mirrors gone full rest :=
    mirrors.finishWith ran ran' (Nat.le_refl _) (Nat.le_refl _) spares
  refine ⟨alike.endings_eq, alike.carried_eq, alike.passages_eq, alike.broker_eq, ?_⟩
  rintro first ⟨others, rfl⟩
  rw [run_append] at before
  exact ((Mirrors.fresh gone patience plan broker).run begun begun first
    (before.before (extends_run _ _))).broker_eq

/-- The second of three calls gives up while the first has the client, with the
third behind it in the line. -/
theorem lapsed_call_between_two :
    let first : Message := ⟨"a", [1]⟩
    let second : Message := ⟨"a", [2]⟩
    let third : Message := ⟨"a", [3]⟩
    let broker : Broker := ⟨true, [⟨"a", 0⟩], [⟨4, [], false, false⟩]⟩
    let plan : List Conduct := [⟨20, none⟩, ⟨5, none⟩]
    let actions : List Action :=
      [.issue (.publish first .atMostOnce), .wait 5, .issue (.publish second .atMostOnce), .wait 7,
        .issue (.publish third .atMostOnce)]
    let full := ((fresh 10 plan broker).run actions).finish
    let rest := ((fresh 10 plan broker).run (without (· == 1) 0 actions)).finish
    (∀ e ∈ full.endings, (e.ticket.number == 1) = true → e.result = .error (.lockTimeout 10)) ∧
      rest.carried = [(0, ⟨0, 0, .publish first .atMostOnce⟩),
        (20, ⟨1, 12, .publish third .atMostOnce⟩)] ∧
      rest.broker = ⟨true, [⟨"a", 0⟩], [⟨4, [first, third], false, false⟩]⟩ := by
  intro first second third broker plan actions full rest
  have lapsed : ∀ e ∈ full.endings, (e.ticket.number == 1) = true →
      e.result = .error (.lockTimeout 10) := by
    decide +kernel
  obtain ⟨-, carried, -, same, -⟩ :=
    lapsed_calls_leave_no_trace 10 plan broker actions (· == 1) lapsed
  exact ⟨lapsed, carried.trans (by decide +kernel),
    same.trans (by decide +kernel)⟩

end SharedClient

end UpdateBridge
