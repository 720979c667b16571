import UpdateBridge.Proofs.Exchange.Accounts
import UpdateBridge.Proofs.Exchange.Basic

/-!
# Who has the buffers

The engine's side takes events in the order in which they were accepted, and
none is missing or comes twice: `InOrder` holds after any run.

Where both sides keep to their parts (`Proper`), the pool's live handles are
those of the accepted events that were not reported processed, and those only
(`Custody`). So a buffer in use always waits in the queue, is with the engine's
side or was lost when the engine's side went, and it is in one of these places.
A report may be repeated, also when the buffer is lent again: the old handle is
spent by then, so the pool refuses it.
-/

namespace UpdateBridge

open Pool (WithinGenerations Spent)

namespace Exchange

/-- The handles that events lend, in order. -/
def buffers (events : List Event) : List Handle :=
  events.filterMap Event.buffer

@[simp] theorem buffers_append (first second : List Event) :
    buffers (first ++ second) = buffers first ++ buffers second :=
  List.filterMap_append

@[simp] theorem buffers_lending (kind : EventKind) (h : Handle) (length : Nat) :
    buffers [Event.lending kind h length] = [h] := rfl

variable {ε : Type} {setting : Setting ε} {x y : Exchange ε} {a : Action} {actions : List Action}

/-- The handles that the engine's side took and did not report processed. -/
def outstanding (x : Exchange ε) : List Handle :=
  (buffers x.received).filter fun h => h ∉ x.reported

/-- The handles that are with the engine's side, in the queue or lost. -/
def inFlight (x : Exchange ε) : List Handle :=
  x.outstanding ++ buffers x.lost ++ buffers x.queue.items

/-- Whether an action keeps to its side's part: the engine's side reports only
handles that it took, and nobody uses the pool directly. -/
def Action.Proper (x : Exchange ε) : Action → Prop
  | .callback c => ∀ h ∈ c.reports, h ∈ buffers x.received
  | .acquire => False
  | .write _ _ => False
  | .release _ => False
  | _ => True

instance (x : Exchange ε) : (a : Action) → Decidable (a.Proper x)
  | .callback c => inferInstanceAs (Decidable (∀ h ∈ c.reports, h ∈ buffers x.received))
  | .acquire => .isFalse id
  | .write _ _ => .isFalse id
  | .release _ => .isFalse id
  | .message _ _ => .isTrue trivial
  | .start => .isTrue trivial
  | .stop => .isTrue trivial
  | .receive => .isTrue trivial
  | .leave => .isTrue trivial

/-- Whether every action of a run keeps to its side's part at its moment. -/
def Orderly (setting : Setting ε) (x : Exchange ε) : List Action → Prop
  | [] => True
  | a :: actions => a.Proper x ∧ Orderly setting (x.act setting a) actions

instance decidableOrderly (setting : Setting ε) (x : Exchange ε) :
    (actions : List Action) → Decidable (Orderly setting x actions)
  | [] => .isTrue trivial
  | a :: actions =>
    have := decidableOrderly setting (x.act setting a) actions
    inferInstanceAs (Decidable (a.Proper x ∧ Orderly setting (x.act setting a) actions))

/-- The accepted events are those taken, those lost and those waiting. None is
lost before the engine's side goes, and none is waiting afterwards. -/
structure InOrder (x : Exchange ε) : Prop where
  account : x.received ++ x.lost ++ x.queue.items = x.submitted
  none_lost : x.queue.closed = false → x.lost = []
  none_waiting : x.queue.closed = true → x.queue.items = []

/-- The events are in order if the accounts of the queue are right. -/
theorem inOrder_iff : x.InOrder ↔ x.queue.Accounts x.submitted x.received x.lost :=
  ⟨fun hx => ⟨hx.account, hx.none_lost, hx.none_waiting⟩,
    fun hx => ⟨hx.account, hx.none_lost, hx.none_waiting⟩⟩

namespace InOrder

theorem create (capacity size depth : Nat) (engine : ε) :
    (create capacity size depth engine).InOrder :=
  inOrder_iff.mpr (.empty depth)

theorem of_eq (hx : x.InOrder) (queue : y.queue = x.queue) (submitted : y.submitted = x.submitted)
    (received : y.received = x.received) (lost : y.lost = x.lost) : y.InOrder := by
  simp only [inOrder_iff, queue, submitted, received, lost]
  exact inOrder_iff.mp hx

/-- An accepted event waits behind all others. -/
theorem accept (hx : x.InOrder) (opened : x.queue.closed = false) (event : Event)
    (queue : y.queue = { x.queue with items := x.queue.items ++ [event] })
    (submitted : y.submitted = x.submitted ++ [event]) (received : y.received = x.received)
    (lost : y.lost = x.lost) : y.InOrder := by
  simp only [inOrder_iff, queue, submitted, received, lost]
  exact (inOrder_iff.mp hx).post opened event

theorem submit (hx : x.InOrder) (event : Event) : (x.submit event).InOrder := by
  obtain same | ⟨opened, added⟩ := x.submit_cases event
  · exact same.symm ▸ hx
  · rw [added]
    exact hx.accept opened event rfl rfl rfl rfl

theorem receive (hx : x.InOrder) : x.receive.InOrder := by
  obtain same | ⟨event, items, waiting, taken⟩ := x.receive_cases
  · exact same.symm ▸ hx
  · rw [taken]
    exact inOrder_iff.mpr ((inOrder_iff.mp hx).take waiting)

theorem leave (hx : x.InOrder) :
    InOrder { x with queue := x.queue.close, lost := x.lost ++ x.queue.items } :=
  inOrder_iff.mpr (inOrder_iff.mp hx).close

/-- Every action keeps the events in order. -/
theorem act (hx : x.InOrder) (consistent : x.pool.Consistent) :
    (x.act setting a).InOrder := by
  cases a with
  | message topic payload =>
      cases arrival consistent setting topic payload with
      | unheld outcome contents queue submitted => exact hx.of_eq queue submitted rfl rfl
      | held outcome acquired unused contents opened queue submitted =>
          exact hx.accept opened _ queue submitted rfl rfl
  | start => exact (hx.submit .start).of_eq rfl rfl rfl rfl
  | stop => exact (hx.submit .stop).of_eq rfl rfl rfl rfl
  | receive => exact hx.receive.of_eq rfl rfl rfl rfl
  | leave => exact hx.leave.of_eq rfl rfl rfl rfl
  | _ => exact hx.of_eq rfl rfl rfl rfl

/-- Every run keeps the events in order. -/
theorem run (hx : x.InOrder) (consistent : x.pool.Consistent) (actions : List Action) :
    (x.run setting actions).InOrder := by
  induction actions generalizing x with
  | nil => exact hx
  | cons a actions ih =>
      exact ih (hx.act consistent) (consistent_act consistent)

end InOrder

/-- Every live handle is that of one accepted event, which was not reported
processed. -/
structure Custody (x : Exchange ε) : Prop where
  distinct : (buffers x.submitted).Nodup
  live_iff : ∀ h, x.pool.contents h ≠ none ↔ h ∈ buffers x.submitted ∧ h ∉ x.reported
  received_of_reported : ∀ h ∈ x.reported, h ∈ buffers x.received
  spent_of_reported : ∀ h ∈ x.reported, Spent x.back h

namespace Custody

theorem create (capacity size depth : Nat) (engine : ε) :
    (create capacity size depth engine).Custody where
  distinct := List.nodup_nil
  live_iff h := by
    have unused : (Exchange.create capacity size depth engine).pool.contents h = none :=
      Pool.contents_create capacity size h
    constructor
    · exact fun live => absurd unused live
    · exact fun accepted => absurd accepted.1 List.not_mem_nil
  received_of_reported h reported := absurd reported List.not_mem_nil
  spent_of_reported h reported := absurd reported List.not_mem_nil

/-- What concerns no buffer changes nothing about who has which. -/
theorem of_eq (hx : x.Custody) (contents : y.pool.contents = x.pool.contents)
    (submitted : buffers y.submitted = buffers x.submitted)
    (received : ∃ more, y.received = x.received ++ more) (reported : y.reported = x.reported)
    (back : ∃ more, y.back = x.back ++ more) : y.Custody where
  distinct := by
    rw [submitted]
    exact hx.distinct
  live_iff h := by
    rw [contents, submitted, reported]
    exact hx.live_iff h
  received_of_reported h member := by
    obtain ⟨more, received⟩ := received
    rw [reported] at member
    rw [received, buffers_append]
    exact List.mem_append_left _ (hx.received_of_reported h member)
  spent_of_reported h member := by
    obtain ⟨more, back⟩ := back
    rw [reported] at member
    rw [back]
    exact (hx.spent_of_reported h member).append more

/-- A message that is dispatched puts one more buffer in flight. -/
theorem message (hx : x.Custody) (aged : x.pool.Aged x.back) (topic : String)
    (payload : List UInt8) : (x.act setting (.message topic payload)).Custody := by
  cases arrival aged.consistent setting topic payload with
  | unheld outcome contents queue submitted =>
      exact hx.of_eq contents (congrArg buffers submitted) ⟨[], (List.append_nil _).symm⟩ rfl
        ⟨_, rfl⟩
  | @held kind h outcome acquired unused contents opened queue submitted =>
      obtain ⟨held, acquired⟩ := acquired
      have unreported : h ∉ x.reported := fun reported =>
        aged.not_spent_of_acquire acquired (hx.spent_of_reported h reported)
      have unlent : h ∉ buffers x.submitted := fun lent =>
        (hx.live_iff h).mpr ⟨lent, unreported⟩ unused
      refine ⟨?_, fun g => ?_, hx.received_of_reported, fun g reported => ?_⟩
      · rw [submitted, buffers_append, buffers_lending, List.nodup_append_comm]
        exact List.nodup_cons.mpr ⟨unlent, hx.distinct⟩
      · change _ ↔ _ ∧ g ∉ x.reported
        rw [contents, submitted, buffers_append, buffers_lending, List.mem_append,
          List.mem_singleton]
        by_cases same : g = h
        · subst same
          rw [Function.update_self]
          exact iff_of_true (Option.some_ne_none _) ⟨.inr rfl, unreported⟩
        · rw [Function.update_of_ne same, hx.live_iff, or_iff_left same]
      · exact (hx.spent_of_reported g reported).append _

/-- A handle that was taken is spent once it is reported, for the first time or
again. -/
theorem spent_callback (hx : x.Custody) (aged : x.pool.Aged x.back) (ordered : x.InOrder)
    {c : Callback} {h : Handle} (member : h ∈ c.reports) (taken : h ∈ buffers x.received) :
    Spent (x.act setting (.callback c)).back h := by
  by_cases live : x.pool.contents h = none
  · have lent : h ∈ buffers x.submitted := by
      rw [← ordered.account, buffers_append, buffers_append]
      exact List.mem_append_left _ (List.mem_append_left _ taken)
    have reported : h ∈ x.reported := by
      by_contra unreported
      exact (hx.live_iff h).mpr ⟨lent, unreported⟩ live
    exact (hx.spent_of_reported h reported).append _
  · exact spent_act aged live member

/-- A report of a handle that was taken removes its buffer from those in
flight, if it was still there. -/
theorem callback (hx : x.Custody) (aged : x.pool.Aged x.back) (ordered : x.InOrder) {c : Callback}
    (proper : ∀ h ∈ c.reports, h ∈ buffers x.received) :
    (x.act setting (.callback c)).Custody := by
  have pool := pool_act setting x (.callback c)
  change _ = (x.pool.run (c.reports.map .release)).2 at pool
  have reported : (x.act setting (.callback c)).reported = x.reported ++ c.reports := rfl
  have spent : ∀ h ∈ c.reports, Spent (x.act setting (.callback c)).back h :=
    fun h member => hx.spent_callback aged ordered member (proper h member)
  rcases c.reports_cases with nothing | ⟨h, one⟩
  · rw [nothing] at pool reported
    exact hx.of_eq (congrArg Pool.contents pool) rfl ⟨[], (List.append_nil _).symm⟩
      (reported.trans (List.append_nil _)) ⟨_, rfl⟩
  · rw [one] at pool reported proper spent
    change _ = (x.pool.release h).2 at pool
    refine ⟨hx.distinct, fun g => ?_, fun g member => ?_, fun g member => ?_⟩
    · change _ ↔ g ∈ buffers x.submitted ∧ _
      rw [pool, aged.consistent.contents_release, reported, List.mem_append, List.mem_singleton]
      by_cases same : g = h
      · subst same
        rw [Function.update_self]
        exact iff_of_false (fun live => live rfl) fun kept => kept.2 (.inr rfl)
      · rw [Function.update_of_ne same, hx.live_iff, or_iff_left same]
    · rw [reported] at member
      rcases List.mem_append.mp member with before | now
      · exact hx.received_of_reported g before
      · exact proper g now
    · rw [reported] at member
      rcases List.mem_append.mp member with before | now
      · exact (hx.spent_of_reported g before).append _
      · exact spent g now

theorem submit (hx : x.Custody) {event : Event} (unlent : event.buffer = none) :
    (x.submit event).Custody := by
  rcases x.submit_cases event with same | ⟨opened, added⟩
  · rw [same]
    exact hx
  · rw [added]
    refine hx.of_eq rfl ?_ ⟨[], (List.append_nil _).symm⟩ rfl ⟨[], (List.append_nil _).symm⟩
    change buffers (x.submitted ++ [event]) = buffers x.submitted
    rw [buffers_append]
    simp [buffers, unlent]

theorem receive (hx : x.Custody) : x.receive.Custody := by
  rcases x.receive_cases with same | ⟨event, items, waiting, taken⟩
  · rw [same]
    exact hx
  · rw [taken]
    exact hx.of_eq rfl rfl ⟨[event], rfl⟩ rfl ⟨[], (List.append_nil _).symm⟩

/-- Every proper action leaves every buffer in use in one place. -/
theorem act (hx : x.Custody) (aged : x.pool.Aged x.back) (ordered : x.InOrder)
    (proper : a.Proper x) : (x.act setting a).Custody := by
  have still : ∀ events : List Event, ∃ more, events = events ++ more :=
    fun events => ⟨[], (List.append_nil events).symm⟩
  have later : ∃ more, (x.act setting a).back = (x.perform setting a).back ++ more :=
    ⟨x.returned setting a, by rw [back_perform, back_act]⟩
  cases a with
  | message topic payload => exact hx.message aged topic payload
  | start => exact (hx.submit rfl).of_eq rfl rfl (still _) rfl later
  | stop => exact (hx.submit rfl).of_eq rfl rfl (still _) rfl later
  | receive => exact hx.receive.of_eq rfl rfl (still _) rfl later
  | leave => exact hx.of_eq rfl rfl (still _) rfl later
  | callback c => exact hx.callback aged ordered proper
  | acquire => exact proper.elim
  | write h payload => exact proper.elim
  | release h => exact proper.elim

/-- Every orderly run leaves every buffer in use in one place. -/
theorem run (hx : x.Custody) (aged : x.pool.Aged x.back) (ordered : x.InOrder)
    (orderly : Orderly setting x actions)
    (bounded : WithinGenerations (x.run setting actions).back) :
    (x.run setting actions).Custody := by
  induction actions generalizing x with
  | nil => exact hx
  | cons a actions ih =>
      obtain ⟨proper, later⟩ := orderly
      exact ih (hx.act aged ordered proper) (aged_act aged (withinGenerations_of_run bounded))
        (ordered.act aged.consistent) later bounded

/-- Nothing lost or waiting was reported, so what is in flight is what was
accepted and not reported. -/
theorem inFlight_eq (hx : x.Custody) (ordered : x.InOrder) :
    x.inFlight = (buffers x.submitted).filter fun h => h ∉ x.reported := by
  have distinct := hx.distinct
  rw [← ordered.account, buffers_append, buffers_append] at distinct ⊢
  obtain ⟨-, -, apartItems⟩ := List.nodup_append.mp distinct
  obtain ⟨-, -, apartLost⟩ := List.nodup_append.mp (List.nodup_append.mp distinct).1
  have lost : (buffers x.lost).filter (fun h => h ∉ x.reported) = buffers x.lost := by
    refine List.filter_eq_self.mpr fun h member => decide_eq_true fun reported => ?_
    exact apartLost h (hx.received_of_reported h reported) h member rfl
  have items : (buffers x.queue.items).filter (fun h => h ∉ x.reported) =
      buffers x.queue.items := by
    refine List.filter_eq_self.mpr fun h member => decide_eq_true fun reported => ?_
    exact apartItems h (List.mem_append_left _ (hx.received_of_reported h reported)) h member rfl
  rw [List.filter_append, List.filter_append, lost, items]
  rfl

/-- The live handles are those in flight, each once. -/
theorem handles_perm (hx : x.Custody) (ordered : x.InOrder) :
    x.pool.handles.Perm x.inFlight ∧ x.inFlight.Nodup := by
  have distinct : x.inFlight.Nodup := by
    rw [hx.inFlight_eq ordered]
    exact hx.distinct.filter _
  refine ⟨Pool.handles_perm_of_iff distinct fun h => ?_, distinct⟩
  rw [hx.live_iff, hx.inFlight_eq ordered, List.mem_filter, decide_eq_true_iff]

end Custody

/-- Whatever the two sides do in their parts, a buffer in use is with the
engine's side, in the queue or lost with it, and in one place only; the events
taken are the accepted ones in order, up to those that wait or were lost; and a
message that is not dispatched uses no buffer and adds no event. -/
theorem buffers_conserved {capacity size depth : Nat} {engine : ε}
    (orderly : Orderly setting (create capacity size depth engine) actions)
    (bounded : WithinGenerations ((create capacity size depth engine).run setting actions).back) :
    let now := (create capacity size depth engine).run setting actions
    (now.pool.handles.Perm now.inFlight ∧ now.inFlight.Nodup) ∧
      (now.received ++ now.lost ++ now.queue.items = now.submitted ∧
        (now.queue.closed = false → now.lost = []) ∧
        (now.queue.closed = true → now.queue.items = [])) ∧
      ∀ topic payload,
        (∀ kind h length,
          (now.dispatch setting topic payload).outcome ≠ .dispatched kind h length) →
        let refused := now.act setting (.message topic payload)
        refused.pool.contents = now.pool.contents ∧ refused.inFlight = now.inFlight ∧
          refused.submitted = now.submitted := by
  intro now
  have aged : (create capacity size depth engine).pool.Aged [] := Pool.aged_create capacity size
  have agedNow : now.pool.Aged now.back := aged_run aged bounded
  have ordered := InOrder.create capacity size depth engine
  have orderedNow : now.InOrder := ordered.run aged.consistent actions
  have custody : now.Custody :=
    (Custody.create capacity size depth engine).run aged ordered orderly bounded
  refine ⟨custody.handles_perm orderedNow,
    ⟨orderedNow.account, orderedNow.none_lost, orderedNow.none_waiting⟩, ?_⟩
  intro topic payload undispatched refused
  cases arrival agedNow.consistent setting topic payload with
  | unheld outcome contents queue submitted =>
      refine ⟨contents, ?_, submitted⟩
      change now.outstanding ++ buffers now.lost ++ buffers refused.queue.items = now.inFlight
      rw [queue]
      rfl
  | held outcome => exact absurd outcome (undispatched _ _ _)

/-- The second message finds the queue full; the buffer of the first is lent
again and its old handle reported again; the last event is lost. -/
theorem buffers_conserved_departure :
    let setting : Setting Answering := ⟨[⟨"a", .fileBlock⟩], Control.answering, false⟩
    let started := create 2 4 2 (⟨[], .ready, .ok (), .ok ()⟩ : Answering)
    let actions : List Action :=
      [.message "a" [1], .start, .message "a" [2], .receive, .callback (.processed (some ⟨0, 0⟩)),
        .message "a" [3], .callback (.processed (some ⟨0, 0⟩)), .receive, .message "a" [4],
        .receive, .leave]
    let now := started.run setting actions
    Orderly setting started actions ∧ WithinGenerations now.back ∧
      now.pool.handles.Perm [⟨0, 1⟩, ⟨1, 1⟩] ∧
      now.received ++ [Event.lending .fileBlock ⟨1, 1⟩ 1] = now.submitted ∧
      (now.act setting (.message "a" [5])).pool.contents = now.pool.contents := by
  intro setting started actions now
  have orderly : Orderly setting started actions := by decide +kernel
  have bounded : WithinGenerations now.back :=
    Pool.withinGenerations_of_length_lt (by decide +kernel)
  obtain ⟨⟨handles, -⟩, ⟨account, -⟩, refused⟩ := buffers_conserved orderly bounded
  have inFlight : now.inFlight = [⟨0, 1⟩, ⟨1, 1⟩] := by decide +kernel
  have gone : (now.dispatch setting "a" [5]).outcome = .dropped (.exhausted 2) := by
    decide +kernel
  have lost : now.lost = [Event.lending .fileBlock ⟨1, 1⟩ 1] := by decide +kernel
  have waiting : now.queue.items = [] := by decide +kernel
  rw [inFlight] at handles
  rw [lost, waiting, List.append_nil] at account
  refine ⟨orderly, bounded, handles, account, (refused "a" [5] ?_).1⟩
  intro kind h length dispatched
  rw [gone] at dispatched
  cases dispatched

end Exchange

end UpdateBridge
