import Mathlib.Data.List.Induction
import Mathlib.Data.List.Pairwise
import UpdateBridge.Proofs.Client.Safety

/-!
# When a call gets the client

The client has its visits one after the other, and each begins as early as it can:
when its call is issued, or when the visits before it are over, whichever comes
later (`Visit.InTurn`). A call that gave up did so when its patience ended, and
then there was a visit that had begun before and lasted at least until then
(`Punctual`). Both hold between any two moments, so they hold in the end.

What a caller has to wait for is therefore known from the calls before it alone,
unless its patience ends at the very moment at which the client becomes free
(`call_reaches_link_in_turn`): it need not be asked who else was waiting.
-/

namespace UpdateBridge

/-- A call and the time for which it has the client. -/
structure Visit where
  ticket : Ticket
  since : Nat
  till : Nat

def Passage.visit (p : Passage) : Visit :=
  ⟨p.ticket, p.since, p.till⟩

def Holding.visit (h : Holding) : Visit :=
  ⟨h.ticket, h.since, h.till⟩

namespace Visit

/-- When the last of these visits ends; zero if there is none. -/
def latest (visits : List Visit) : Nat :=
  visits.foldl (fun t v => max t v.till) 0

@[simp] theorem latest_nil : latest [] = 0 := rfl

@[simp] theorem latest_concat (visits : List Visit) (v : Visit) :
    latest (visits ++ [v]) = max (latest visits) v.till := by
  simp [latest]

theorem latest_le {visits : List Visit} {bound : Nat} :
    latest visits ≤ bound ↔ ∀ v ∈ visits, v.till ≤ bound := by
  induction visits using List.reverseRecOn with
  | nil => simp
  | append_singleton visits v ih =>
      rw [latest_concat, Nat.max_le, ih]
      simp [or_imp, forall_and]

/-- The visit begins when its call is issued, or when those before it are over, but
not after the end of its caller's patience, and it lasts as long as the link takes. -/
structure InTurn (patience : Nat) (plan : List Conduct) (before : List Visit) (v : Visit) :
    Prop where
  since_eq : v.since = max v.ticket.issued (latest before)
  patient : v.since = v.ticket.issued ∨ v.since ≤ v.ticket.issued + patience
  till_eq : v.till = v.since + Pause.length (plan.getD before.length .prompt).delay

end Visit

namespace SharedClient

variable {c d : SharedClient} {patience now moment : Nat} {plan : List Conduct}
  {tickets waiting : List Ticket} {t : Ticket} {h : Holding} {v : Visit}

/-- The visits that the client has had, and the one that goes on. -/
def visits (c : SharedClient) : List Visit :=
  c.passages.map Passage.visit ++ c.holder.toList.map Holding.visit

theorem visits_of_none (free : c.holder = none) : c.visits = c.passages.map Passage.visit := by
  simp [visits, free]

theorem visits_of_some (holding : c.holder = some h) :
    c.visits = c.passages.map Passage.visit ++ [h.visit] := by
  simp [visits, holding]

/-- A visit that goes on becomes one that is over. -/
theorem visits_completing (holding : c.holder = some h) (due : h.till = c.now) :
    (c.completing h).visits = c.visits := by
  have same : (c.passing h).visit = h.visit := by
    rw [Holding.visit, due]
    rfl
  rw [visits_of_none rfl, visits_of_some holding, passages_completing, List.map_append,
    List.map_singleton, same]

theorem visits_handing (free : c.holder = none) (h : Holding) :
    (c.handing h).visits = c.visits ++ [h.visit] := by
  rw [visits_of_none free]
  rfl

/-- Whose call the link has done has not given up. -/
theorem mem_endings_of_completing {e : Ending} (member : e ∈ (c.completing h).endings)
    (gone : e.gaveUp = true) : e ∈ c.endings := by
  rw [endings_completing] at member
  obtain before | last := List.mem_append.mp member
  · exact before
  · rw [List.mem_singleton.mp last, Passage.gaveUp_ending] at gone
    cases gone

/-- All visits are in turn, and whoever gave up did so in time and while somebody
that came before had the client. -/
structure Punctual (c : SharedClient) (patience : Nat) (plan : List Conduct) : Prop where
  inTurn : ∀ (n : Nat) (v : Visit), c.visits[n]? = some v → v.InTurn patience plan (c.visits.take n)
  lapsed : ∀ e ∈ c.endings, e.gaveUp = true → e.ended = e.ticket.issued + patience ∧
    ∃ v ∈ c.visits, v.ticket.number < e.ticket.number ∧ e.ticket.issued < v.till ∧ e.ended ≤ v.till

namespace Punctual

/-- Another visit is in turn. -/
theorem visit (hc : c.Punctual patience plan) (visits : d.visits = c.visits ++ [v])
    (turn : v.InTurn patience plan c.visits)
    (lapsed : ∀ e ∈ d.endings, e.gaveUp = true → e ∈ c.endings) : d.Punctual patience plan where
  inTurn n w found := by
    rw [visits, List.getElem?_append] at found
    split at found
    · next before =>
        rw [visits, List.take_append_of_le_length (Nat.le_of_lt before)]
        exact hc.inTurn n w found
    · next beyond =>
        obtain ⟨first, same⟩ := List.getElem?_eq_some_iff.mp found
        have last : n = c.visits.length := by
          rw [List.length_singleton] at first
          omega
        rw [visits, last, List.take_left, ← same]
        simpa using turn
  lapsed e member gone := by
    obtain ⟨ended, w, before, cause⟩ := hc.lapsed e (lapsed e member gone) gone
    exact ⟨ended, w, visits ▸ List.mem_append_left _ before, cause⟩

/-- Nothing is visited and nobody gives up. -/
theorem of_eq (hc : c.Punctual patience plan) (visits : d.visits = c.visits)
    (lapsed : ∀ e ∈ d.endings, e.gaveUp = true → e ∈ c.endings) : d.Punctual patience plan where
  inTurn := by
    rw [visits]
    exact hc.inTurn
  lapsed e member gone := by
    rw [visits]
    exact hc.lapsed e (lapsed e member gone) gone

/-- Some give up because their patience ends now and the client is not free. -/
theorem lapse {gone : List Ticket} (hc : c.Punctual patience plan)
    (due : ∀ t ∈ gone, c.now = t.issued + patience ∧
      ∃ v ∈ c.visits, v.ticket.number < t.number ∧ t.issued < v.till ∧ c.now ≤ v.till) :
    (gone.foldl giveUp c).Punctual patience plan := by
  rw [foldl_giveUp]
  refine ⟨hc.inTurn, fun e member gaveUp => ?_⟩
  obtain before | lapsed := List.mem_append.mp member
  · exact hc.lapsed e before gaveUp
  · obtain ⟨t, left, rfl⟩ := List.mem_map.mp lapsed
    exact due t left

theorem fresh (patience : Nat) (plan : List Conduct) (broker : Broker) :
    (fresh patience plan broker).Punctual patience plan where
  inTurn n v found := by cases found
  lapsed e member := by cases member

/-- Whoever waits for a client that has just become free has it at once. -/
theorem serve (hc : c.Punctual patience plan)
    (accounts : c.Accounts patience plan now tickets waiting) (free : c.holder = none)
    (turn : ∀ t ∈ waiting, max t.issued (Visit.latest c.visits) = c.now ∧
      (c.now = t.issued ∨ c.now ≤ t.issued + patience)) :
    (c.serve waiting).Punctual patience plan := by
  -- A call without delay is over at once, so the next begins at this moment as well.
  induction waiting generalizing c with
  | nil => exact hc.of_eq rfl fun e member _ => member
  | cons t others ih =>
      obtain ⟨⟨begins, patient⟩, rest⟩ := List.forall_mem_cons.mp turn
      have handed := accounts.handing free
      have index : c.visits.length = c.carried.length := by
        rw [accounts.carried, visits]
        simp
      have conduct : c.plan.headD .prompt = plan.getD c.visits.length .prompt := by
        rw [accounts.plan_eq, index, List.headD_eq_head?_getD, List.head?_drop,
          List.getD_eq_getElem?_getD]
      have inTurn : (c.holding t).visit.InTurn patience plan c.visits := by
        refine ⟨begins.symm, patient, ?_⟩
        rw [← conduct]
        rfl
      have visits := visits_handing free (c.holding t)
      have visiting := hc.visit visits inTurn fun e member _ => member
      rw [serve_cons free]
      split
      · next prompt =>
          have due : (c.holding t).till = c.now := by
            show c.now + Pause.length (c.plan.headD .prompt).delay = c.now
            rw [prompt]
            rfl
          have done := visits_completing (c := c.handing (c.holding t)) rfl due
          refine ih (visiting.of_eq done fun e => mem_endings_of_completing) (handed.completing rfl)
            rfl ?_
          intro s among
          obtain ⟨later, patient'⟩ := rest s among
          refine ⟨?_, patient'⟩
          rw [done, visits, Visit.latest_concat, Holding.visit, due]
          show max s.issued (max (Visit.latest c.visits) c.now) = c.now
          omega
      · exact visiting.of_eq rfl fun e member _ => member

/-- The client passes on at the very moment at which its visit ends. -/
theorem passOn (hc : c.Punctual patience plan)
    (accounts : c.Accounts patience plan now tickets c.waiting)
    (timely : ∀ h ∈ c.holder, c.now ≤ h.till)
    (waited : ∀ t ∈ c.waiting, t.issued ≤ c.now ∧ c.now ≤ t.issued + patience) :
    c.passOn.Punctual patience plan := by
  cases holding : c.holder with
  | none => rwa [passOn_of_none holding]
  | some h =>
      rw [passOn_of_some holding]
      split
      · next past =>
          have due : h.till = c.now := Nat.le_antisymm past (timely h holding)
          have done := visits_completing holding due
          refine serve (c := c.completing h) (hc.of_eq done fun e => mem_endings_of_completing)
            (accounts.completing holding) rfl ?_
          intro t member
          obtain ⟨issued, patient⟩ := waited t member
          have ends : Visit.latest (c.completing h).visits = c.now := by
            rw [done, visits_of_some holding, Visit.latest_concat, Holding.visit, due]
            refine Nat.max_eq_right (Visit.latest_le.mpr fun v visited => ?_)
            obtain ⟨p, passed, rfl⟩ := List.mem_map.mp visited
            exact accounts.now_eq ▸ (accounts.past p passed).2
          rw [ends]
          exact ⟨Nat.max_eq_right issued, .inr patient⟩
      · exact hc

/-- Whoever gives up now has waited for somebody that came before. -/
theorem dropImpatient (hc : c.Punctual patience plan)
    (accounts : c.Accounts patience plan now tickets c.waiting)
    (held : c.holder = none → c.waiting = []) (timely : ∀ h ∈ c.holder, c.now ≤ h.till)
    (waited : ∀ t ∈ c.waiting, t.issued < c.now ∧ c.now ≤ t.issued + patience)
    (among : Ticket → Bool) : (c.dropImpatient among).Punctual patience plan := by
  rw [dropImpatient_eq]
  refine lapse (hc.of_eq rfl fun e member _ => member) fun t left => ?_
  obtain ⟨member, due⟩ := List.mem_filter.mp left
  obtain ⟨issued, patient⟩ := waited t member
  have ends : t.issued + patience ≤ c.now := by
    have elapsed := of_decide_eq_true (Bool.and_eq_true_iff.mp due).1
    rwa [deadline, accounts.patience_eq] at elapsed
  refine ⟨Nat.le_antisymm patient ends, ?_⟩
  show ∃ v ∈ c.visits, v.ticket.number < t.number ∧ t.issued < v.till ∧ c.now ≤ v.till
  cases holding : c.holder with
  | none =>
      rw [held holding] at member
      cases member
  | some h =>
      have line := (List.pairwise_append.mp accounts.line).2.1
      rw [held_of_some holding] at line
      have before := (List.pairwise_cons.mp line).1 t member
      have visiting : h.visit ∈ c.visits := by
        rw [visits_of_some holding]
        exact List.mem_concat_self
      have lasts := timely h holding
      exact ⟨h.visit, visiting, before, Nat.lt_of_lt_of_le issued lasts, lasts⟩

theorem settle (hc : c.Punctual patience plan)
    (accounts : c.Accounts patience plan now tickets c.waiting)
    (idle : c.holder = none → c.waiting = []) (timely : ∀ h ∈ c.holder, c.now ≤ h.till)
    (waited : ∀ t ∈ c.waiting, t.issued < c.now ∧ c.now ≤ t.issued + patience) :
    c.settle.Punctual patience plan := by
  have first := accounts.dropImpatient c.precedesHolder
  have holder := holder_dropImpatient c c.precedesHolder
  have waiting : ∀ t ∈ (c.dropImpatient c.precedesHolder).waiting, t ∈ c.waiting := by
    intro t member
    rw [waiting_dropImpatient] at member
    exact (List.mem_filter.mp member).1
  have passed : (c.dropImpatient c.precedesHolder).passOn.Punctual patience plan := by
    refine (hc.dropImpatient accounts idle timely waited _).passOn first ?_ ?_
    · rw [holder, now_dropImpatient]
      exact timely
    · intro t member
      rw [now_dropImpatient]
      exact (waited t (waiting t member)).imp_left Nat.le_of_lt
  have kept := holder_passOn (c := c.dropImpatient c.precedesHolder) fun free => by
    rw [waiting_dropImpatient, idle (holder.symm.trans free)]
    rfl
  have still := first.passOn.now_eq.trans first.now_eq.symm
  refine passed.dropImpatient first.passOn ?_ ?_ ?_ _
  · intro free
    obtain ⟨-, nobody⟩ | ⟨h, holding, -⟩ := kept
    · exact nobody
    · cases free.symm.trans holding
  · intro h member
    obtain ⟨free, -⟩ | ⟨g, holding, later⟩ := kept
    · cases free.symm.trans member
    · cases holding.symm.trans member
      rw [still]
      exact Nat.le_of_lt later
  · intro t member
    rw [still, now_dropImpatient]
    exact waited t (waiting t ((waiting_passOn _).subset member))

end Punctual

/-- Nobody waits who has not come yet. -/
def Arrived (c : SharedClient) : Prop :=
  ∀ t ∈ c.waiting, t.issued ≤ c.now

theorem Punctual.jump (hc : c.Punctual patience plan)
    (steady : c.Steady patience plan now tickets) (arrived : c.Arrived)
    (due : c.due? = some moment) : (c.jump moment).Punctual patience plan := by
  obtain ⟨h, holding, ⟨busy, patient⟩, -⟩ := due_eq_some due
  have later := steady.lt_due due
  have moved : { c with now := moment }.Punctual patience plan :=
    hc.of_eq rfl fun e member _ => member
  refine moved.settle (steady.accounts.later (Nat.le_of_lt later)) steady.idle ?_ ?_
  · intro g member
    cases holding.symm.trans member
    exact busy
  · intro t member
    have before := arrived t member
    have ends := patient t member
    rw [steady.accounts.now_eq] at before
    rw [deadline, steady.accounts.patience_eq] at ends
    exact ⟨Nat.lt_of_le_of_lt before later, ends⟩

theorem Punctual.issue (hc : c.Punctual patience plan)
    (steady : c.Steady patience plan now tickets) (call : Call) :
    (c.issue call).2.Punctual patience plan := by
  have issuing := steady.accounts.issuing ⟨c.issued, c.now, call⟩ rfl
  have counted : { c with issued := c.issued + 1 }.Punctual patience plan :=
    hc.of_eq rfl fun e member _ => member
  cases holding : c.holder with
  | none =>
      have alone :
          c.waiting ++ [(⟨c.issued, c.now, call⟩ : Ticket)] = [⟨c.issued, c.now, call⟩] := by
        rw [steady.idle holding]
        rfl
      rw [alone] at issuing
      rw [issue_of_none holding, alone]
      refine counted.serve issuing holding fun t member => ?_
      obtain rfl := List.mem_singleton.mp member
      refine ⟨Nat.max_eq_left (Visit.latest_le.mpr fun v visited => ?_), .inl rfl⟩
      rw [visits_of_none (c := { c with issued := c.issued + 1 }) holding] at visited
      obtain ⟨p, passed, rfl⟩ := List.mem_map.mp visited
      exact steady.accounts.now_eq ▸ (steady.accounts.past p passed).2
  | some h =>
      by_cases impatient : c.patience = 0
      · rw [issue_of_impatient holding impatient]
        show ([⟨c.issued, c.now, call⟩].foldl giveUp { c with issued := c.issued + 1 }).Punctual
          patience plan
        refine counted.lapse fun t member => ?_
        obtain rfl := List.mem_singleton.mp member
        have none : patience = 0 := steady.accounts.patience_eq ▸ impatient
        have visiting : h.visit ∈ c.visits := by
          rw [visits_of_some holding]
          exact List.mem_concat_self
        have line : h.ticket ∈ c.passages.map Passage.ticket ++ (c.held ++ c.waiting) := by
          rw [held_of_some holding]
          simp
        have busy : c.now < h.till := steady.accounts.now_eq ▸ steady.busy h holding
        exact ⟨by rw [none]; rfl, h.visit, visiting, steady.accounts.lt_issued line, busy,
          Nat.le_of_lt busy⟩
      · rw [issue_of_patient holding impatient]
        exact hc.of_eq rfl fun e member _ => member

theorem Arrived.issue (hc : c.Arrived) (steady : c.Steady patience plan now tickets) (call : Call) :
    (c.issue call).2.Arrived := by
  cases holding : c.holder with
  | none =>
      have nobody : ∀ t ∈ (c.issue call).2.waiting, False := by
        intro t member
        rw [issue_of_none holding, steady.idle holding] at member
        have gone := (waiting_serve (c := { c with waiting := [], issued := c.issued + 1 })
          holding [⟨c.issued, c.now, call⟩]).subset member
        cases gone
      exact fun t member => (nobody t member).elim
  | some h =>
      by_cases impatient : c.patience = 0
      · rw [issue_of_impatient holding impatient]
        exact hc
      · rw [issue_of_patient holding impatient]
        intro t member
        obtain before | last := List.mem_append.mp member
        · exact hc t before
        · obtain rfl := List.mem_singleton.mp last
          exact Nat.le_refl _

theorem Arrived.jump (hc : c.Arrived) (steady : c.Steady patience plan now tickets)
    (due : c.due? = some moment) : (c.jump moment).Arrived := by
  intro t member
  have before := hc t ((settle_waiting { c with now := moment }).subset member)
  rw [steady.accounts.now_eq] at before
  rw [(steady.jump due).accounts.now_eq]
  exact Nat.le_trans before (Nat.le_of_lt (steady.lt_due due))

/-- Visits are in turn, and whoever waits has come, whatever happens. -/
theorem punctual_invariant (patience : Nat) (plan : List Conduct) :
    Invariant patience plan fun c => c.Punctual patience plan ∧ c.Arrived where
  setOnline holds _ := ⟨holds.1.of_eq rfl fun e member _ => member, holds.2⟩
  wait steady holds le := by
    refine ⟨holds.1.of_eq rfl fun e member _ => member, fun t member => ?_⟩
    exact Nat.le_trans (holds.2 t member) (steady.accounts.now_eq ▸ le)
  jump steady holds due := ⟨holds.1.jump steady holds.2 due, holds.2.jump steady due⟩
  issue steady holds call := ⟨holds.1.issue steady call, holds.2.issue steady call⟩

/-! ## The calls of a schedule -/

/-- The calls that these actions issue, the first of them with this number, if they
begin at this moment. -/
def schedule (now number : Nat) : List Action → List Ticket
  | [] => []
  | .issue call :: actions => ⟨number, now, call⟩ :: schedule now (number + 1) actions
  | .setOnline _ :: actions => schedule now number actions
  | .wait milliseconds :: actions => schedule (now + milliseconds) number actions

theorem Steady.length_tickets (hc : c.Steady patience plan now tickets) :
    tickets.length = c.issued := by
  have numbers := congrArg List.length hc.accounts.numbers
  rwa [List.length_map, List.length_range] at numbers

/-- The calls of a run are those of its schedule. -/
theorem Steady.run_schedule (hc : c.Steady patience plan now tickets) (actions : List Action) :
    ∃ later, (c.run actions).Steady patience plan later
      (tickets ++ schedule now tickets.length actions) := by
  induction actions generalizing c now tickets with
  | nil =>
      rw [schedule, List.append_nil]
      exact ⟨now, hc⟩
  | cons action actions ih =>
      cases action with
      | issue call =>
          have issued := hc.issue call
          rw [← hc.length_tickets, hc.accounts.now_eq] at issued
          obtain ⟨later, ran⟩ := ih issued
          refine ⟨later, ?_⟩
          rwa [List.append_assoc, List.length_append] at ran
      | setOnline online => exact ih (hc.setOnline online)
      | wait milliseconds =>
          have waited := hc.advanceWith (Nat.le_add_right now milliseconds) (Nat.le_refl c.pending)
          rw [← hc.accounts.now_eq] at waited ⊢
          exact ih waited

theorem le_of_mem_schedule {number : Nat} {actions : List Action}
    (member : t ∈ schedule now number actions) : now ≤ t.issued ∧ number ≤ t.number := by
  induction actions generalizing now number with
  | nil => cases member
  | cons action actions ih =>
      cases action with
      | issue call =>
          obtain rfl | member := List.mem_cons.mp member
          · exact ⟨Nat.le_refl _, Nat.le_refl _⟩
          · exact (ih member).imp_right Nat.le_of_succ_le
      | setOnline online => exact ih member
      | wait milliseconds => exact (ih member).imp_left (Nat.le_trans (Nat.le_add_right _ _))

/-- Calls are numbered in the order in which they are issued. -/
theorem pairwise_schedule (now number : Nat) (actions : List Action) :
    (schedule now number actions).Pairwise fun s t =>
      s.number < t.number ∧ s.issued ≤ t.issued := by
  induction actions generalizing now number with
  | nil => exact .nil
  | cons action actions ih =>
      cases action with
      | issue call =>
          refine List.pairwise_cons.mpr ⟨fun t member => ?_, ih now (number + 1)⟩
          obtain ⟨issued, later⟩ := le_of_mem_schedule member
          exact ⟨later, issued⟩
      | setOnline online => exact ih now number
      | wait milliseconds => exact ih _ _

theorem issued_le_of_schedule {s t : Ticket} {number : Nat} {actions : List Action}
    (first : s ∈ schedule now number actions) (second : t ∈ schedule now number actions)
    (order : s.number < t.number) : s.issued ≤ t.issued := by
  have ordered := pairwise_schedule now number actions
  refine List.Pairwise.forall_of_forall_of_flip
    (R := fun s t : Ticket => s.number < t.number → s.issued ≤ t.issued) ?_ ?_ ?_ first second order
  · exact fun _ _ _ => Nat.le_refl _
  · exact ordered.imp fun both _ => both.2
  · exact ordered.imp fun both other => absurd both.1 (Nat.lt_asymm other)

/-! ## Turns -/

/-- When the link is done with those of the earlier calls that it got; zero if it got
none. -/
def freeFor (c : SharedClient) (t : Ticket) : Nat :=
  Visit.latest ((c.passages.filter fun p => p.ticket.number < t.number).map Passage.visit)

/-- When the client is there for this call, if its caller has patience. -/
def turn (c : SharedClient) (t : Ticket) : Nat :=
  max t.issued (c.freeFor t)

/-- The turn of this call comes when it is issued, or before its caller's patience
ends. -/
def InTime (c : SharedClient) (patience : Nat) (t : Ticket) : Prop :=
  c.turn t = t.issued ∨ c.turn t < t.issued + patience

instance (c : SharedClient) (patience : Nat) (t : Ticket) : Decidable (c.InTime patience t) :=
  inferInstanceAs (Decidable (_ ∨ _))

/-- No caller that waits runs out of patience at the very moment at which the client
becomes free. -/
def Untied (c : SharedClient) (patience : Nat) (tickets : List Ticket) : Prop :=
  ∀ p ∈ c.passages, ∀ t ∈ tickets, p.ticket.number < t.number → t.issued < p.till →
    p.till ≠ t.issued + patience

instance (c : SharedClient) (patience : Nat) (tickets : List Ticket) :
    Decidable (c.Untied patience tickets) :=
  inferInstanceAs (Decidable (∀ p ∈ c.passages, ∀ t ∈ tickets, _))

/-- Where keys ascend, the items with a smaller key than another are those before it. -/
theorem filter_key_lt {α : Type} {key : α → Nat} {before after : List α} {a : α}
    (ascending : (before ++ a :: after).Pairwise fun a b => key a < key b) :
    (before ++ a :: after).filter (fun b => key b < key a) = before := by
  obtain ⟨-, later, earlier⟩ := List.pairwise_append.mp ascending
  have kept : before.filter (fun b => key b < key a) = before :=
    List.filter_eq_self.mpr fun b member =>
      decide_eq_true (earlier b member a List.mem_cons_self)
  have dropped : (a :: after).filter (fun b => key b < key a) = [] := by
    refine List.filter_eq_nil_iff.mpr fun b member below => ?_
    obtain rfl | member := List.mem_cons.mp member
    · exact Nat.lt_irrefl _ (of_decide_eq_true below)
    · exact Nat.lt_asymm (of_decide_eq_true below) ((List.pairwise_cons.mp later).1 b member)
  rw [List.filter_append, kept, dropped, List.append_nil]

/-- A client that has served all calls of a schedule, each in its turn. -/
structure Served (c : SharedClient) (patience : Nat) (plan : List Conduct) (tickets : List Ticket) :
    Prop where
  punctual : c.Punctual patience plan
  free : c.holder = none
  accounts : ∃ moment, c.Accounts patience plan moment tickets []
  ordered : ∀ s ∈ tickets, ∀ t ∈ tickets, s.number < t.number → s.issued ≤ t.issued

namespace Served

variable {p : Passage}

theorem ascending (hc : c.Served patience plan tickets) :
    c.passages.Pairwise fun p q => p.ticket.number < q.ticket.number := by
  obtain ⟨moment, accounts⟩ := hc.accounts
  have line := accounts.line
  rwa [held_of_none hc.free, List.append_nil, List.append_nil, List.pairwise_map] at line

theorem ticket_mem (hc : c.Served patience plan tickets) (member : p ∈ c.passages) :
    p.ticket ∈ tickets := by
  obtain ⟨moment, accounts⟩ := hc.accounts
  refine accounts.all.mem_iff.mp (List.mem_append_left _ ?_)
  exact List.mem_map_of_mem (f := Ending.ticket) (accounts.ending_mem member)

/-- A call that reached the link did so in its turn, and not after the end of its
caller's patience. -/
theorem inTurn {before after : List Passage} (hc : c.Served patience plan tickets)
    (parts : c.passages = before ++ p :: after) :
    p.visit.InTurn patience plan (before.map Passage.visit) ∧
      p.since = c.turn p.ticket := by
  have visits := visits_of_none hc.free
  rw [parts, List.map_append, List.map_cons] at visits
  have turn := hc.punctual.inTurn before.length p.visit (by simp [visits])
  have taken : c.visits.take before.length = before.map Passage.visit := by
    simp [visits]
  rw [taken] at turn
  have earlier : c.passages.filter (fun q => q.ticket.number < p.ticket.number) = before := by
    have ascending := hc.ascending
    rw [parts] at ascending ⊢
    exact filter_key_lt ascending
  refine ⟨turn, turn.since_eq.trans ?_⟩
  rw [SharedClient.turn, freeFor, earlier]
  rfl

/-- Between the issue of a call and its turn the client is busy. -/
theorem busy (hc : c.Served patience plan tickets) (member : t ∈ tickets)
    (issued : t.issued ≤ moment) (early : moment < c.turn t) :
    ∃ p ∈ c.passages, p.since ≤ moment ∧ moment < p.till := by
  -- The first passage that lasts beyond the moment began when the ones before it were
  -- over, and its call was issued no later than this one.
  have free : moment < c.freeFor t := by
    rw [SharedClient.turn] at early
    omega
  have lasts : ∃ q ∈ c.passages, q.ticket.number < t.number ∧ moment < q.till := by
    by_contra none
    refine Nat.not_le.mpr free (Visit.latest_le.mpr fun v visited => ?_)
    obtain ⟨q, before, rfl⟩ := List.mem_map.mp visited
    obtain ⟨passed, order⟩ := List.mem_filter.mp before
    exact Nat.le_of_not_lt fun beyond => none ⟨q, passed, of_decide_eq_true order, beyond⟩
  obtain ⟨q, passed, order, beyond⟩ := lasts
  cases first : c.passages.find? (fun p => moment < p.till) with
  | none => exact absurd (decide_eq_true beyond) (List.find?_eq_none.mp first q passed)
  | some p =>
      obtain ⟨lasts, before, after, parts, done⟩ := List.find?_eq_some_iff_append.mp first
      have found : p ∈ c.passages := List.mem_of_find?_eq_some first
      refine ⟨p, found, ?_, of_decide_eq_true lasts⟩
      have earlier : p.ticket.number < t.number := by
        have ascending := hc.ascending
        rw [parts] at passed ascending
        obtain among | later := List.mem_append.mp passed
        · exact absurd beyond (by simpa using done q among)
        · obtain rfl | later := List.mem_cons.mp later
          · exact order
          · have after := (List.pairwise_cons.mp (List.pairwise_append.mp ascending).2.1).1 q later
            exact Nat.lt_trans after order
      have came := hc.ordered p.ticket (hc.ticket_mem found) t member earlier
      have freed : Visit.latest (before.map Passage.visit) ≤ moment := by
        refine Visit.latest_le.mpr fun v visited => ?_
        obtain ⟨b, among, rfl⟩ := List.mem_map.mp visited
        show b.till ≤ moment
        simpa using done b among
      have since : p.since = max p.ticket.issued (Visit.latest (before.map Passage.visit)) :=
        (hc.inTurn parts).1.since_eq
      omega

/-- Whoever reached the link was in time. -/
theorem inTime (hc : c.Served patience plan tickets) (untied : c.Untied patience tickets)
    (member : p ∈ c.passages) : c.InTime patience p.ticket := by
  obtain ⟨before, after, parts⟩ := List.append_of_mem member
  obtain ⟨⟨-, patient, -⟩, since⟩ := hc.inTurn parts
  change p.since = p.ticket.issued ∨ p.since ≤ p.ticket.issued + patience at patient
  rw [InTime, ← since]
  by_contra late
  rw [not_or] at late
  have free : c.freeFor p.ticket = p.ticket.issued + patience := by
    rw [SharedClient.turn] at since
    omega
  have somebody : ¬c.freeFor p.ticket ≤ p.ticket.issued + patience - 1 := by omega
  refine somebody (Visit.latest_le.mpr fun v visited => ?_)
  have most : v.till ≤ p.ticket.issued + patience :=
    free ▸ Visit.latest_le.mp (Nat.le_refl _) v visited
  obtain ⟨q, before, rfl⟩ := List.mem_map.mp visited
  obtain ⟨passed, order⟩ := List.mem_filter.mp before
  have tie := untied q passed p.ticket (hc.ticket_mem member) (of_decide_eq_true order)
  change q.till ≤ _ at most
  show q.till ≤ _
  omega

/-- Whoever gave up did so when its patience ended, and was not in time. -/
theorem not_inTime {e : Ending} (hc : c.Served patience plan tickets)
    (untied : c.Untied patience tickets) (known : e.ticket ∈ tickets) (member : e ∈ c.endings)
    (gone : e.gaveUp = true) :
    e.ended = e.ticket.issued + patience ∧ ¬c.InTime patience e.ticket := by
  obtain ⟨ended, v, visited, order, came, lasts⟩ := hc.punctual.lapsed e member gone
  refine ⟨ended, ?_⟩
  rw [visits_of_none hc.free] at visited
  obtain ⟨q, passed, rfl⟩ := List.mem_map.mp visited
  have tie := untied q passed e.ticket known order came
  have free : q.till ≤ c.freeFor e.ticket := by
    refine Visit.latest_le.mp (Nat.le_refl _) q.visit (List.mem_map_of_mem ?_)
    exact List.mem_filter.mpr ⟨passed, decide_eq_true order⟩
  change e.ended ≤ q.till at lasts
  rw [InTime, SharedClient.turn]
  omega

/-- A call is over in one of two ways, and its turn says in which. -/
theorem fate (hc : c.Served patience plan tickets) (untied : c.Untied patience tickets)
    (member : t ∈ tickets) :
    (c.InTime patience t ∧
      ∃ p, c.passages.filter (fun p => p.ticket.number = t.number) = [p] ∧
        c.endings.filter (fun e => e.ticket.number = t.number) = [p.ending] ∧
        p.ticket = t ∧ p.since = c.turn t) ∨
    (¬c.InTime patience t ∧
      c.passages.filter (fun p => p.ticket.number = t.number) = [] ∧
        c.endings.filter (fun e => e.ticket.number = t.number) =
          [⟨t, t.issued + patience, .error (.lockTimeout patience)⟩]) := by
  obtain ⟨moment, accounts⟩ := hc.accounts
  obtain ⟨e, once, ended, rfl⟩ := accounts.ended hc.free member
  obtain ⟨lapsed, unasked⟩ | ⟨p, passed, rfl⟩ := accounts.outcome ended once
  · have gone : e.gaveUp = true := by rw [Ending.gaveUp, lapsed]
    obtain ⟨late, missed⟩ := hc.not_inTime untied member ended gone
    refine .inr ⟨missed, unasked, once.trans ?_⟩
    rw [← late, ← lapsed]
  · have found : p ∈ c.passages := by
      refine List.mem_of_mem_filter (p := fun q : Passage => q.ticket.number = p.ticket.number) ?_
      exact passed ▸ List.mem_singleton_self p
    obtain ⟨before, after, parts⟩ := List.append_of_mem found
    exact .inl ⟨hc.inTime untied found, p, passed, once, rfl, (hc.inTurn parts).2⟩

/-- No call takes longer than its caller's patience and its own time with the link. -/
theorem till_le (hc : c.Served patience plan tickets) {n : Nat} (found : c.passages[n]? = some p) :
    p.till = p.since + Pause.length (plan.getD n .prompt).delay ∧
      p.till ≤ p.ticket.issued + patience + Pause.length (plan.getD n .prompt).delay := by
  obtain ⟨inside, rfl⟩ := List.getElem?_eq_some_iff.mp found
  have parts : c.passages = c.passages.take n ++ c.passages[n] :: c.passages.drop (n + 1) := by simp
  obtain ⟨⟨-, patient, till⟩, -⟩ := hc.inTurn parts
  rw [List.length_map, List.length_take, Nat.min_eq_left (Nat.le_of_lt inside)] at till
  change c.passages[n].since = _ ∨ c.passages[n].since ≤ _ at patient
  change c.passages[n].till = c.passages[n].since + _ at till
  refine ⟨till, ?_⟩
  change _ = c.passages[n].ticket.issued ∨ _ ≤ c.passages[n].ticket.issued + _ at patient
  omega

end Served

theorem served_schedule (patience : Nat) (plan : List Conduct) (broker : Broker)
    (actions : List Action) :
    ((fresh patience plan broker).run actions).finish.Served patience plan
      (schedule 0 0 actions) := by
  have start := Steady.fresh patience plan broker
  have punctual : (fresh patience plan broker).Punctual patience plan ∧
      (fresh patience plan broker).Arrived := ⟨.fresh patience plan broker, nofun⟩
  have kept := punctual_invariant patience plan
  obtain ⟨later, ran⟩ := start.run_schedule actions
  obtain ⟨moment, finished, free⟩ := ran.finishWith (Nat.le_refl _)
  have accounts := finished.accounts
  rw [finished.idle free] at accounts
  exact ⟨(kept.finishWith ran (kept.run start punctual actions)).1, free, ⟨moment, accounts⟩,
    fun s first t second => issued_le_of_schedule first second⟩

/-- Of every schedule in which no patience ends just when the client becomes free: a
call is handed to the link when it is issued, or when the link is done with the
earlier calls that it got, whichever comes later, if that is when it is issued or
before its caller's patience ends; and if not, it ends with that patience, and the
link never gets it. So a call that finds the client free has it at once, whatever the
patience, the client is busy whenever a call waits for its turn, and no call takes
longer than its caller's patience and its own time with the link. -/
theorem call_reaches_link_in_turn (patience : Nat) (plan : List Conduct) (broker : Broker)
    (actions : List Action)
    (untied : ((fresh patience plan broker).run actions).finish.Untied patience
      (schedule 0 0 actions)) :
    let c := ((fresh patience plan broker).run actions).finish
    (∀ t ∈ schedule 0 0 actions,
      (c.InTime patience t →
        ∃ p, c.passages.filter (fun p => p.ticket.number = t.number) = [p] ∧
          c.endings.filter (fun e => e.ticket.number = t.number) = [p.ending] ∧
          p.ticket = t ∧ p.since = c.turn t) ∧
      (¬c.InTime patience t →
        c.passages.filter (fun p => p.ticket.number = t.number) = [] ∧
          c.endings.filter (fun e => e.ticket.number = t.number) =
            [⟨t, t.issued + patience, .error (.lockTimeout patience)⟩]) ∧
      (c.freeFor t ≤ t.issued → ∃ p ∈ c.passages, p.ticket = t ∧ p.since = t.issued) ∧
      ∀ moment, t.issued ≤ moment → moment < c.turn t →
        ∃ p ∈ c.passages, p.since ≤ moment ∧ moment < p.till) ∧
    ∀ (n : Nat) (p : Passage), c.passages[n]? = some p →
      p.till = p.since + Pause.length (plan.getD n .prompt).delay ∧
        p.till ≤ p.ticket.issued + patience + Pause.length (plan.getD n .prompt).delay := by
  intro c
  have hc : c.Served patience plan (schedule 0 0 actions) :=
    served_schedule patience plan broker actions
  change c.Untied patience (schedule 0 0 actions) at untied
  refine ⟨fun t member => ?_, fun n p found => hc.till_le found⟩
  have busy : ∀ moment, t.issued ≤ moment → moment < c.turn t →
      ∃ p ∈ c.passages, p.since ≤ moment ∧ moment < p.till :=
    fun moment issued early => hc.busy member issued early
  obtain ⟨inTime, p, passed, ended, rfl, since⟩ | ⟨late, unasked, ended⟩ := hc.fate untied member
  · refine ⟨fun _ => ⟨p, passed, ended, rfl, since⟩, fun late => absurd inTime late, ?_, busy⟩
    intro free
    refine ⟨p, ?_, rfl, since.trans (Nat.max_eq_left free)⟩
    refine List.mem_of_mem_filter (p := fun q : Passage => q.ticket.number = p.ticket.number) ?_
    exact passed ▸ List.mem_singleton_self p
  · refine ⟨fun inTime => absurd inTime late, fun _ => ⟨unasked, ended⟩, fun free => ?_, busy⟩
    exact absurd (.inl (Nat.max_eq_left free)) late

/-- Three callers with a patience of 100: the second gives up while the link takes 150
for the first, and the third, which came later, gets the client after that. -/
theorem call_reaches_link_in_turn_third :
    let plan : List Conduct := [⟨150, none⟩, ⟨30, none⟩]
    let call : Call := .unsubscribe "core2/"
    let actions : List Action := [.issue call, .wait 10, .issue call, .wait 60, .issue call]
    let c := ((fresh 100 plan Broker.fresh).run actions).finish
    c.Untied 100 (schedule 0 0 actions) ∧
      c.endings.filter (fun e => e.ticket.number = 1) =
        [⟨⟨1, 10, call⟩, 110, .error (.lockTimeout 100)⟩] ∧
      ∃ p, c.passages.filter (fun p => p.ticket.number = 2) = [p] ∧ p.since = 150 := by
  intro plan call actions c
  have untied : c.Untied 100 (schedule 0 0 actions) := by decide +kernel
  have second : (⟨1, 10, call⟩ : Ticket) ∈ schedule 0 0 actions := by decide +kernel
  have third : (⟨2, 70, call⟩ : Ticket) ∈ schedule 0 0 actions := by decide +kernel
  have late : ¬c.InTime 100 ⟨1, 10, call⟩ := by decide +kernel
  have early : c.InTime 100 ⟨2, 70, call⟩ := by decide +kernel
  have turn : c.turn ⟨2, 70, call⟩ = 150 := by decide +kernel
  obtain ⟨turns, -⟩ := call_reaches_link_in_turn 100 plan Broker.fresh actions untied
  obtain ⟨p, passed, -, -, since⟩ := (turns _ third).1 early
  exact ⟨untied, ((turns _ second).2.1 late).2, p, passed, since.trans turn⟩

end SharedClient

end UpdateBridge
