import Mathlib.Data.List.Perm.Basic
import UpdateBridge.Client.Shared

/-!
# The account of all calls

Every call that was issued is in one place: it is over, it has the client, or
it waits. The calls that the link is done with, the one that it has and those
that wait stand in one line in the order of their issue, and the link was done
with each before it got the next. `Accounts` says this together with what ties
the histories of a client to one another. It speaks of the waiting callers as a
list of their own, since a client that serves several callers at one moment
writes down who waits only when it is through with them.

Handing a call to the link, being done with it and giving up keep the account
(`handing`, `completing`, `dropImpatient`), and everything that a client does is
made of these.
-/

namespace UpdateBridge

/-- Whether the call ended because its caller gave up. -/
def Ending.gaveUp (e : Ending) : Bool :=
  match e.result with
  | .error (.lockTimeout _) => true
  | _ => false

/-- What the caller of a passage is told, and when. -/
def Passage.ending (p : Passage) : Ending :=
  ⟨p.ticket, p.till, p.answer.mapError .link⟩

theorem Passage.gaveUp_ending (p : Passage) : p.ending.gaveUp = false := by
  obtain ⟨ticket, since, till, answer⟩ := p
  cases answer <;> rfl

/-- The caller is told of success if the link had success. -/
theorem Passage.result_ending_eq_ok_iff (p : Passage) :
    p.ending.result = .ok () ↔ p.answer = .ok () := by
  rw [Passage.ending]
  cases p.answer <;> simp [Except.mapError]

theorem Passage.result_ending_eq_link_iff (p : Passage) (cause : LinkFault) :
    p.ending.result = .error (.link cause) ↔ p.answer = .error cause := by
  rw [Passage.ending]
  cases p.answer <;> simp [Except.mapError]

namespace SharedClient

variable {c : SharedClient} {patience now : Nat} {plan : List Conduct}
  {tickets waiting : List Ticket} {t : Ticket} {h : Holding}

def held (c : SharedClient) : List Ticket :=
  c.holder.toList.map Holding.ticket

/-- Where all calls are, and what the histories have to do with each other. -/
structure Accounts (c : SharedClient) (patience : Nat) (plan : List Conduct) (now : Nat)
    (tickets waiting : List Ticket) : Prop where
  patience_eq : c.patience = patience
  now_eq : c.now = now
  plan_eq : c.plan = plan.drop c.carried.length
  numbers : tickets.map Ticket.number = List.range c.issued
  all : (c.endings.map Ending.ticket ++ (c.held ++ waiting)).Perm tickets
  line : (c.passages.map Passage.ticket ++ (c.held ++ waiting)).Pairwise
    fun s t => s.number < t.number
  served : c.endings.filter (fun e => !e.gaveUp) = c.passages.map Passage.ending
  gave_up : ∀ e ∈ c.endings, e.gaveUp = true → e.result = .error (.lockTimeout patience)
  carried : c.carried = c.passages.map (fun p => (p.since, p.ticket)) ++
    c.holder.toList.map fun h => (h.since, h.ticket)
  apart : c.passages.Pairwise fun p q => p.till ≤ q.since
  past : ∀ p ∈ c.passages, p.since ≤ p.till ∧ p.till ≤ now
  since : ∀ h ∈ c.holder, h.since ≤ now ∧ ∀ p ∈ c.passages, p.till ≤ h.since
  answered : ∀ (n : Nat) (p : Passage), c.passages[n]? = some p →
    ∃ b, p.answer = p.ticket.call.answer (plan.getD n .prompt).failure b
  conducted : ∀ h ∈ c.holder, h.failure = (plan.getD c.passages.length .prompt).failure

/-- The client with a call handed to the link. -/
def handing (c : SharedClient) (h : Holding) : SharedClient :=
  { c with plan := c.plan.tail, carried := c.carried ++ [(h.since, h.ticket)], holder := some h }

/-- The client that the link gives back. -/
def completing (c : SharedClient) (h : Holding) : SharedClient :=
  { c with holder := none }.complete h.ticket h.since h.failure

def holding (c : SharedClient) (t : Ticket) : Holding :=
  let conduct := c.plan.headD .prompt
  ⟨t, c.now, c.now + Pause.length conduct.delay, conduct.failure⟩

theorem carry_eq (free : c.holder = none) (t : Ticket) :
    c.carry t =
      if (c.plan.headD .prompt).delay = 0 then (c.handing (c.holding t)).completing (c.holding t)
      else c.handing (c.holding t) := by
  obtain ⟨⟩ := c
  cases free
  rfl

/-- What the link says about the call if it is done with it now. -/
def passing (c : SharedClient) (h : Holding) : Passage :=
  ⟨h.ticket, h.since, c.now, h.ticket.call.answer h.failure c.broker⟩

@[simp] theorem passages_completing (c : SharedClient) (h : Holding) :
    (c.completing h).passages = c.passages ++ [c.passing h] := rfl

@[simp] theorem endings_completing (c : SharedClient) (h : Holding) :
    (c.completing h).endings = c.endings ++ [(c.passing h).ending] := by
  rw [Passage.ending, passing, ← Call.result_perform]
  rfl

@[simp] theorem holder_completing (c : SharedClient) (h : Holding) :
    (c.completing h).holder = none := rfl

theorem held_of_none (free : c.holder = none) : c.held = [] := by
  rw [held, free]
  rfl

theorem held_of_some (holding : c.holder = some h) : c.held = [h.ticket] := by
  rw [held, holding]
  rfl

/-- How the call of a caller that gives up now is over. -/
def lapse (c : SharedClient) (t : Ticket) : Ending :=
  ⟨t, c.now, .error (.lockTimeout c.patience)⟩

theorem foldl_giveUp (c : SharedClient) (gone : List Ticket) :
    gone.foldl giveUp c =
      { c with
        endings := c.endings ++ gone.map c.lapse
        journal := c.journal ++ gone.flatMap fun _ =>
          Journal.stamped c.now [.lockTimedOut c.patience] } := by
  induction gone generalizing c with
  | nil => simp
  | cons t gone ih => simp [ih, giveUp, ending, noting, lapse]

theorem dropImpatient_eq (c : SharedClient) (among : Ticket → Bool) :
    c.dropImpatient among =
      (c.waiting.filter fun t => c.deadline t ≤ c.now && among t).foldl giveUp
        { c with waiting := c.waiting.filter fun t => !(c.deadline t ≤ c.now && among t) } := by
  rw [dropImpatient, List.partition_eq_filter_filter]
  rfl

theorem waiting_dropImpatient (c : SharedClient) (among : Ticket → Bool) :
    (c.dropImpatient among).waiting =
      c.waiting.filter fun t => !(c.deadline t ≤ c.now && among t) := by
  rw [dropImpatient_eq, foldl_giveUp]

theorem holder_dropImpatient (c : SharedClient) (among : Ticket → Bool) :
    (c.dropImpatient among).holder = c.holder := by
  rw [dropImpatient_eq, foldl_giveUp]

/-- The first who waits for a free client has it until the link is done with the
call, which may be at once. -/
theorem serve_cons (free : c.holder = none) (t : Ticket) (others : List Ticket) :
    c.serve (t :: others) =
      if (c.plan.headD .prompt).delay = 0 then
        ((c.handing (c.holding t)).completing (c.holding t)).serve others
      else { c.handing (c.holding t) with waiting := others } := by
  rw [serve, carry_eq free]
  split <;> rfl

/-- Of those who wait for a free client the first does not stay in the line. -/
theorem waiting_serve (free : c.holder = none) (waiting : List Ticket) :
    (c.serve waiting).waiting.Sublist waiting.tail := by
  induction waiting generalizing c with
  | nil => exact List.Sublist.refl _
  | cons t others ih =>
      rw [serve_cons free]
      split
      · exact (ih rfl).trans (List.tail_sublist others)
      · exact List.Sublist.refl others

/-- A client that is through with those who wait is free if nobody waits any
longer, and else has a call for some time. -/
theorem holder_serve (free : c.holder = none) (waiting : List Ticket) :
    ((c.serve waiting).holder = none ∧ (c.serve waiting).waiting = []) ∨
      ∃ h, (c.serve waiting).holder = some h ∧ c.now < h.till := by
  induction waiting generalizing c with
  | nil => exact Or.inl ⟨free, rfl⟩
  | cons t others ih =>
      rw [serve_cons free]
      split
      · exact ih (c := (c.handing (c.holding t)).completing (c.holding t)) rfl
      · next slow =>
          refine Or.inr ⟨c.holding t, rfl, ?_⟩
          have long : Pause.length (c.plan.headD .prompt).delay ≠ 0 := by
            rwa [ne_eq, Pause.length_eq_zero]
          show c.now < c.now + Pause.length (c.plan.headD .prompt).delay
          omega

theorem issue_of_none (free : c.holder = none) (call : Call) :
    (c.issue call).2 =
      { c with issued := c.issued + 1 }.serve
        (c.waiting ++ [(⟨c.issued, c.now, call⟩ : Ticket)]) := by
  rw [issue, free]
  rfl

theorem issue_of_impatient (holding : c.holder = some h) (impatient : c.patience = 0)
    (call : Call) :
    (c.issue call).2 = { c with issued := c.issued + 1 }.giveUp ⟨c.issued, c.now, call⟩ := by
  rw [issue, holding]
  exact if_pos impatient

theorem issue_of_patient (holding : c.holder = some h) (patient : c.patience ≠ 0) (call : Call) :
    (c.issue call).2 =
      { c with
        issued := c.issued + 1
        waiting := c.waiting ++ [(⟨c.issued, c.now, call⟩ : Ticket)] } := by
  rw [issue, holding]
  exact if_neg patient

namespace Accounts

theorem fresh (patience : Nat) (plan : List Conduct) (broker : Broker) :
    (fresh patience plan broker).Accounts patience plan 0 [] [] where
  patience_eq := rfl
  now_eq := rfl
  plan_eq := rfl
  numbers := rfl
  all := List.Perm.refl _
  line := List.Pairwise.nil
  served := rfl
  gave_up e member := by cases member
  carried := rfl
  apart := List.Pairwise.nil
  past p member := by cases member
  since h member := by cases member
  answered n p found := by cases found
  conducted h member := by cases member

/-- The account does not ask whom the client believes to be waiting. -/
theorem believing (hc : c.Accounts patience plan now tickets waiting) (others : List Ticket) :
    { c with waiting := others }.Accounts patience plan now tickets waiting :=
  { hc with }

theorem setOnline (hc : c.Accounts patience plan now tickets waiting) (online : Bool) :
    (c.setOnline online).Accounts patience plan now tickets waiting :=
  { hc with }

theorem handing (hc : c.Accounts patience plan now tickets (t :: waiting))
    (free : c.holder = none) :
    (c.handing (c.holding t)).Accounts patience plan now tickets waiting := by
  have line := hc.line
  have all := hc.all
  have carried := hc.carried
  rw [held_of_none free, List.nil_append] at line all
  rw [free, Option.toList_none, List.map_nil, List.append_nil] at carried
  refine { hc with all, line, plan_eq := ?_, carried := ?_, since := ?_, conducted := ?_ }
  · show c.plan.tail = plan.drop (c.carried ++ [(c.now, t)]).length
    rw [hc.plan_eq, List.tail_drop, List.length_append]
    rfl
  · show c.carried ++ [(c.now, t)] = _
    rw [carried]
    rfl
  · intro g member
    cases member
    refine ⟨Nat.le_of_eq hc.now_eq, fun p member => ?_⟩
    rw [holding, hc.now_eq]
    exact (hc.past p member).2
  · intro g member
    cases member
    have handed : c.carried.length = c.passages.length := by rw [carried, List.length_map]
    show (c.plan.headD .prompt).failure = (plan.getD c.passages.length .prompt).failure
    rw [hc.plan_eq, handed, List.headD_eq_head?_getD, List.head?_drop, List.getD_eq_getElem?_getD]

theorem completing (hc : c.Accounts patience plan now tickets waiting)
    (holding : c.holder = some h) :
    (c.completing h).Accounts patience plan now tickets waiting := by
  obtain ⟨begun, before⟩ := hc.since h holding
  -- The call that was held stays in its place in the line and in the list of all
  -- calls; only the border between the parts moves past it.
  have line := hc.line
  have all := hc.all
  have carried := hc.carried
  rw [held_of_some holding] at line all
  rw [holding] at carried
  have free : (c.completing h).held = [] := held_of_none rfl
  have till : (c.passing h).till = now := hc.now_eq
  refine { hc with
    all := ?_, line := ?_, served := ?_, gave_up := ?_, carried := ?_, apart := ?_, past := ?_,
    since := ?_, answered := ?_, conducted := ?_ }
  · rw [free, endings_completing, List.map_append, List.append_assoc]
    exact all
  · rw [free, passages_completing, List.map_append, List.append_assoc]
    exact line
  · rw [endings_completing, passages_completing, List.filter_append, hc.served, List.map_append]
    simp [Passage.gaveUp_ending]
  · intro e member gone
    rw [endings_completing, List.mem_append, List.mem_singleton] at member
    obtain member | rfl := member
    · exact hc.gave_up e member gone
    · rw [Passage.gaveUp_ending] at gone
      cases gone
  · rw [passages_completing, holder_completing, List.map_append]
    simpa [SharedClient.completing, complete, noting, ending, passing] using carried
  · rw [passages_completing, List.pairwise_append]
    refine ⟨hc.apart, List.pairwise_singleton _ _, ?_⟩
    intro p member q last
    obtain rfl := List.mem_singleton.mp last
    exact before p member
  · intro p member
    rw [passages_completing, List.mem_append, List.mem_singleton] at member
    obtain member | rfl := member
    · exact hc.past p member
    · rw [till]
      exact ⟨begun, Nat.le_refl now⟩
  · intro g member
    cases member
  · intro n p found
    rw [passages_completing, List.getElem?_append] at found
    split at found
    · exact hc.answered n p found
    · next last =>
        rw [List.getElem?_singleton] at found
        split at found
        · obtain rfl : n = c.passages.length := by omega
          obtain rfl := Option.some.inj found
          exact ⟨c.broker, by rw [passing, hc.conducted h holding]⟩
        · cases found
  · intro g member
    cases member

/-- Some of those who wait give up, and the others keep their order. -/
theorem foldl_giveUp {gone rest : List Ticket} (hc : c.Accounts patience plan now tickets waiting)
    (parted : waiting.Perm (gone ++ rest)) (order : rest.Sublist waiting) :
    (gone.foldl giveUp c).Accounts patience plan now tickets rest := by
  rw [SharedClient.foldl_giveUp]
  refine { hc with all := ?_, line := ?_, served := ?_, gave_up := ?_ }
  · have moved : (c.endings.map Ending.ticket ++ gone ++ (c.held ++ rest)).Perm
        (c.endings.map Ending.ticket ++ (c.held ++ waiting)) := by
      rw [List.append_assoc]
      refine List.Perm.append_left _ (List.Perm.trans ?_ (parted.symm.append_left c.held))
      rw [← List.append_assoc, ← List.append_assoc]
      exact List.perm_append_comm.append_right rest
    have tickets_lapse : (gone.map c.lapse).map Ending.ticket = gone := by
      rw [List.map_map]
      exact List.map_id gone
    rw [List.map_append, tickets_lapse]
    exact moved.trans hc.all
  · exact hc.line.sublist ((order.append_left c.held).append_left _)
  · have none : (gone.map c.lapse).filter (fun e => !e.gaveUp) = [] := by
      rw [List.filter_eq_nil_iff]
      intro e member
      obtain ⟨t, -, rfl⟩ := List.mem_map.mp member
      exact Bool.false_ne_true
    rw [List.filter_append, none, List.append_nil]
    exact hc.served
  · intro e member left
    obtain member | member := List.mem_append.mp member
    · exact hc.gave_up e member left
    · obtain ⟨t, -, rfl⟩ := List.mem_map.mp member
      rw [lapse, hc.patience_eq]

theorem dropImpatient (hc : c.Accounts patience plan now tickets c.waiting)
    (among : Ticket → Bool) :
    (c.dropImpatient among).Accounts patience plan now tickets (c.dropImpatient among).waiting := by
  rw [waiting_dropImpatient, dropImpatient_eq]
  refine foldl_giveUp (hc.believing _) ?_ List.filter_sublist
  exact (List.filter_append_perm _ _).symm

/-- The first in the line gets the client, and whoever gets it at the same
moment. -/
theorem serve (hc : c.Accounts patience plan now tickets waiting) (free : c.holder = none) :
    (c.serve waiting).Accounts patience plan now tickets (c.serve waiting).waiting := by
  -- A call without delay is over at once and the next one gets the client, so the
  -- induction is on those who wait; it stops at the first call that takes time.
  induction waiting generalizing c with
  | nil => exact hc.believing []
  | cons t others ih =>
      have taken := hc.handing free
      rw [serve_cons free]
      split
      · next prompt => exact ih (taken.completing rfl) rfl
      · next slow => exact taken.believing others

/-- Whoever has been served has been told so. -/
theorem ending_mem {p : Passage} (hc : c.Accounts patience plan now tickets waiting)
    (member : p ∈ c.passages) : p.ending ∈ c.endings := by
  have told : p.ending ∈ c.endings.filter fun e => !e.gaveUp := by
    rw [hc.served]
    exact List.mem_map_of_mem member
  exact List.mem_of_mem_filter told

/-- Every call of the line was issued. -/
theorem lt_issued (hc : c.Accounts patience plan now tickets waiting)
    (member : t ∈ c.passages.map Passage.ticket ++ (c.held ++ waiting)) : t.number < c.issued := by
  have known : t ∈ c.endings.map Ending.ticket ++ (c.held ++ waiting) := by
    obtain past | present := List.mem_append.mp member
    · obtain ⟨p, done, rfl⟩ := List.mem_map.mp past
      exact List.mem_append_left _ (List.mem_map_of_mem (hc.ending_mem done))
    · exact List.mem_append_right _ present
  have numbered : t.number ∈ tickets.map Ticket.number :=
    List.mem_map_of_mem (hc.all.mem_iff.mp known)
  rw [hc.numbers] at numbered
  exact List.mem_range.mp numbered

/-- A call is issued: it comes last in the line. -/
theorem issuing (hc : c.Accounts patience plan now tickets waiting) (ticket : Ticket)
    (next : ticket.number = c.issued) :
    { c with issued := c.issued + 1 }.Accounts patience plan now (tickets ++ [ticket])
      (waiting ++ [ticket]) := by
  refine { hc with numbers := ?_, all := ?_, line := ?_ }
  · rw [List.map_append, hc.numbers, List.range_succ, List.map_singleton, next]
  · have later := hc.all.append_right [ticket]
    rw [List.append_assoc, List.append_assoc] at later
    exact later
  · show (c.passages.map Passage.ticket ++ (c.held ++ (waiting ++ [ticket]))).Pairwise _
    rw [← List.append_assoc c.held, ← List.append_assoc, List.pairwise_append]
    refine ⟨hc.line, List.pairwise_singleton _ _, ?_⟩
    intro s member t last
    obtain rfl := List.mem_singleton.mp last
    rw [next]
    exact hc.lt_issued member

theorem later {moment : Nat} (hc : c.Accounts patience plan now tickets waiting)
    (le : now ≤ moment) :
    { c with now := moment }.Accounts patience plan moment tickets waiting := by
  refine { hc with now_eq := rfl, past := ?_, since := ?_ }
  · intro p member
    obtain ⟨start, done⟩ := hc.past p member
    exact ⟨start, Nat.le_trans done le⟩
  · intro h member
    obtain ⟨start, before⟩ := hc.since h member
    exact ⟨Nat.le_trans start le, before⟩

end Accounts

end SharedClient

end UpdateBridge
