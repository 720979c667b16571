import UpdateBridge.Proofs.Exchange.Ownership
import UpdateBridge.Proofs.Intake.Decision

/-!
# A queue as deep as the pool

As long as nobody gives a buffer back whose event was not yet taken (`Punctual`),
the event of every buffer in the queue keeps this buffer in use, and no two
events lend the same one (`Tracked`). So there wait at most as many events with a
buffer as there are buffers in use, and at the moment at which one more buffer is
handed out, one event fewer. If the queue is as deep as there are buffers, and
deeper by the events without a buffer that wait in it, it has a place for that
event: it refuses none that a message leads to (`deep_queue_never_full`).

Others may hold buffers of the pool and write into any; that only leaves fewer
for the messages.
-/

namespace UpdateBridge

open Pool (WithinGenerations Spent)

namespace Exchange

variable {ε : Type} {setting : Setting ε} {x y : Exchange ε} {a : Action} {actions : List Action}
variable {h : Handle}

/-- Whether an action gives back only what the engine's side has taken. -/
def Action.Due (x : Exchange ε) (a : Action) : Prop :=
  ∀ h ∈ a.givesBack, h ∈ buffers x.received

instance (x : Exchange ε) (a : Action) : Decidable (a.Due x) :=
  inferInstanceAs (Decidable (∀ h ∈ a.givesBack, h ∈ buffers x.received))

/-- Whether every action of a run gives back only what was taken by then. -/
def Punctual (setting : Setting ε) (x : Exchange ε) : List Action → Prop
  | [] => True
  | a :: actions => a.Due x ∧ Punctual setting (x.act setting a) actions

instance decidablePunctual (setting : Setting ε) (x : Exchange ε) :
    (actions : List Action) → Decidable (Punctual setting x actions)
  | [] => .isTrue trivial
  | a :: actions =>
    have := decidablePunctual setting (x.act setting a) actions
    inferInstanceAs (Decidable (a.Due x ∧ Punctual setting (x.act setting a) actions))

/-- A live handle that an action does not give back stays live. -/
theorem live_act (hx : x.pool.Consistent) (live : x.pool.contents h ≠ none)
    (kept : h ∉ a.givesBack) : (x.act setting a).pool.contents h ≠ none := by
  cases a with
  | message topic payload =>
      cases arrival hx setting topic payload with
      | unheld outcome contents => rwa [contents]
      | held outcome acquired unused contents =>
          have other : h ≠ _ := fun same => live (same ▸ unused)
          rwa [contents, Function.update_of_ne other]
  | callback c =>
      rw [pool_act]
      apply Pool.live_run hx live
      intro released
      obtain ⟨g, reported, same⟩ := List.mem_map.mp released
      cases same
      exact kept reported
  | release g =>
      rw [pool_act]
      apply Pool.live_run hx live
      intro released
      cases List.mem_singleton.mp released
      exact kept (List.mem_singleton.mpr rfl)
  | _ =>
      rw [pool_act]
      exact Pool.live_run hx live (by simp [operations])

/-- What an action does to the events that lend buffers: it adds none, or one
that lends the buffer that was handed out next. -/
inductive Lending (setting : Setting ε) (x : Exchange ε) (a : Action) : Prop
  | nothing (submitted : buffers (x.act setting a).submitted = buffers x.submitted)
      (items : ∀ h ∈ buffers (x.act setting a).queue.items, h ∈ buffers x.queue.items)
  | lent {h : Handle} (acquired : ∃ held, x.pool.acquire = (.ok h, held))
      (unused : x.pool.contents h = none) (live : (x.act setting a).pool.contents h ≠ none)
      (submitted : buffers (x.act setting a).submitted = buffers x.submitted ++ [h])
      (items : buffers (x.act setting a).queue.items = buffers x.queue.items ++ [h])

/-- Submitting an event that lends no buffer changes nothing about the others. -/
theorem buffers_submit (x : Exchange ε) (event : Event) (unlent : event.buffer = none) :
    buffers (x.submit event).submitted = buffers x.submitted ∧
      buffers (x.submit event).queue.items = buffers x.queue.items := by
  have none : buffers [event] = [] := by simp [buffers, unlent]
  obtain same | ⟨-, added⟩ := x.submit_cases event
  · rw [same]
    exact ⟨rfl, rfl⟩
  · rw [added]
    constructor
    · simp only [buffers_append, none, List.append_nil]
    · simp only [buffers_append, none, List.append_nil]

/-- Taking an event adds none. -/
theorem buffers_receive (x : Exchange ε) :
    buffers x.receive.submitted = buffers x.submitted ∧
      ∀ h ∈ buffers x.receive.queue.items, h ∈ buffers x.queue.items := by
  obtain same | ⟨event, items, waiting, taken⟩ := x.receive_cases
  · rw [same]
    exact ⟨rfl, fun h member => member⟩
  · rw [taken, waiting]
    refine ⟨rfl, fun h member => ?_⟩
    rw [← List.singleton_append, buffers_append]
    exact List.mem_append_right _ member

theorem lending (hx : x.pool.Consistent) (setting : Setting ε) (a : Action) :
    Lending setting x a := by
  cases a with
  | message topic payload =>
      cases arrival hx setting topic payload with
      | unheld outcome contents queue submitted =>
          apply Lending.nothing
          · rw [submitted]
          · intro h member
            rwa [queue] at member
      | held outcome acquired unused contents opened queue submitted =>
          apply Lending.lent acquired unused
          · rw [contents, Function.update_self]
            exact Option.some_ne_none _
          · rw [submitted, buffers_append, buffers_lending]
          · rw [queue, buffers_append, buffers_lending]
  | start =>
      obtain ⟨submitted, items⟩ := x.buffers_submit .start rfl
      exact .nothing submitted fun h member => items ▸ member
  | stop =>
      obtain ⟨submitted, items⟩ := x.buffers_submit .stop rfl
      exact .nothing submitted fun h member => items ▸ member
  | receive =>
      obtain ⟨submitted, items⟩ := x.buffers_receive
      exact .nothing submitted items
  | leave => exact .nothing rfl fun h member => absurd member List.not_mem_nil
  | _ => exact .nothing rfl fun h member => member

/-- Every event that waits lends a buffer or does not. -/
theorem length_items (events : List Event) :
    events.length = (buffers events).length + events.countP fun event => event.buffer.isNone := by
  induction events with
  | nil => rfl
  | cons event events ih =>
      cases lent : event.buffer with
      | none =>
          simp only [buffers] at ih ⊢
          simp [lent, ih]
          omega
      | some h =>
          simp only [buffers] at ih ⊢
          simp [lent, ih]
          omega

/-- No two accepted events lend the same buffer. A buffer that was lent is in use
or spent for good, and it is in use while its event waits. -/
structure Tracked (x : Exchange ε) : Prop where
  distinct : (buffers x.submitted).Nodup
  known : ∀ h ∈ buffers x.submitted, x.pool.contents h ≠ none ∨ Spent x.back h
  waiting : ∀ h ∈ buffers x.queue.items, x.pool.contents h ≠ none

namespace Tracked

theorem create (capacity size depth : Nat) (engine : ε) :
    (create capacity size depth engine).Tracked where
  distinct := List.nodup_nil
  known _ member := absurd member List.not_mem_nil
  waiting _ member := absurd member List.not_mem_nil

/-- What was lent stays known. -/
theorem known_act (hx : x.Tracked) (aged : x.pool.Aged x.back) (lent : h ∈ buffers x.submitted) :
    (x.act setting a).pool.contents h ≠ none ∨ Spent (x.act setting a).back h := by
  by_cases given : h ∈ a.givesBack
  · obtain live | spent := hx.known h lent
    · exact .inr (spent_act aged live given)
    · exact .inr (spent.append _)
  · obtain live | spent := hx.known h lent
    · exact .inl (live_act aged.consistent live given)
    · exact .inr (spent.append _)

/-- What waits stays in use. -/
theorem waiting_act (hx : x.Tracked) (aged : x.pool.Aged x.back) (ordered : x.InOrder)
    (due : a.Due x) (member : h ∈ buffers x.queue.items) :
    (x.act setting a).pool.contents h ≠ none := by
  apply live_act aged.consistent (hx.waiting h member)
  intro given
  have distinct := hx.distinct
  rw [← ordered.account, buffers_append, buffers_append] at distinct
  obtain ⟨-, -, apart⟩ := List.nodup_append.mp distinct
  exact apart h (List.mem_append_left _ (due h given)) h member rfl

/-- Every punctual action keeps track of the buffers. -/
theorem act (hx : x.Tracked) (aged : x.pool.Aged x.back) (ordered : x.InOrder)
    (due : a.Due x) : (x.act setting a).Tracked := by
  cases lending aged.consistent setting a with
  | nothing submitted items =>
      constructor
      · rw [submitted]
        exact hx.distinct
      · intro h lent
        rw [submitted] at lent
        exact hx.known_act aged lent
      · intro h member
        exact hx.waiting_act aged ordered due (items h member)
  | @lent g acquired unused live submitted items =>
      obtain ⟨held, acquired⟩ := acquired
      have new : g ∉ buffers x.submitted := by
        intro lent
        obtain reached | spent := hx.known g lent
        · exact reached unused
        · exact aged.not_spent_of_acquire acquired spent
      constructor
      · rw [submitted, ← List.concat_eq_append, List.nodup_concat]
        exact ⟨new, hx.distinct⟩
      · intro h lent
        rw [submitted] at lent
        obtain before | now := List.mem_append.mp lent
        · exact hx.known_act aged before
        · exact .inl (List.mem_singleton.mp now ▸ live)
      · intro h member
        rw [items] at member
        obtain before | now := List.mem_append.mp member
        · exact hx.waiting_act aged ordered due before
        · exact List.mem_singleton.mp now ▸ live

/-- Every punctual run keeps track of the buffers. -/
theorem run (hx : x.Tracked) (aged : x.pool.Aged x.back) (ordered : x.InOrder)
    (punctual : Punctual setting x actions)
    (bounded : WithinGenerations (x.run setting actions).back) :
    (x.run setting actions).Tracked := by
  induction actions generalizing x with
  | nil => exact hx
  | cons a actions ih =>
      obtain ⟨due, later⟩ := punctual
      have agedLater := aged_act aged (withinGenerations_of_run bounded)
      exact ih (hx.act aged ordered due) agedLater (ordered.act aged.consistent) later bounded

/-- Of the events that lend a buffer no more wait than buffers are in use. -/
theorem length_waiting_le (hx : x.Tracked) (ordered : x.InOrder) :
    (buffers x.queue.items).length ≤ x.pool.handles.length := by
  have distinct := hx.distinct
  rw [← ordered.account, buffers_append] at distinct
  obtain ⟨-, distinct, -⟩ := List.nodup_append.mp distinct
  apply List.Subperm.length_le
  apply distinct.subperm
  intro h member
  exact Pool.mem_handles_iff_contents.mpr (hx.waiting h member)

/-- A queue as deep as there are buffers, and deeper by the events without a
buffer, has a place while a buffer is free. -/
theorem spare (hx : x.Tracked) (hp : x.pool.Consistent) (ordered : x.InOrder)
    (deep : x.pool.capacity + x.queue.items.countP (fun event => event.buffer.isNone) ≤
      x.queue.capacity)
    (some : x.pool.free ≠ []) : x.queue.items.length < x.queue.capacity := by
  have total := hp.freeCount_add_takenCount
  have left : 0 < x.pool.freeCount := List.length_pos_of_ne_nil some
  have waiting := hx.length_waiting_le ordered
  have items := length_items x.queue.items
  rw [Pool.length_handles] at waiting
  omega

end Tracked

/-- No buffer is free if all are in use. -/
theorem free_eq_nil_iff (hp : x.pool.Consistent) :
    x.pool.free = [] ↔ x.pool.handles.length = x.pool.capacity := by
  have total := hp.freeCount_add_takenCount
  rw [← List.length_eq_zero_iff, Pool.length_handles]
  rw [Pool.freeCount] at total
  omega

/-- No action makes the queue deeper or shallower, or ends it. -/
theorem queue_act (hx : x.pool.Consistent) (setting : Setting ε) (a : Action) :
    (x.act setting a).queue.capacity = x.queue.capacity ∧
      (x.act setting a).queue.ended = x.queue.ended := by
  have submit : ∀ event, (x.submit event).queue.capacity = x.queue.capacity ∧
      (x.submit event).queue.ended = x.queue.ended := by
    intro event
    obtain same | ⟨-, added⟩ := x.submit_cases event
    · rw [same]
      exact ⟨rfl, rfl⟩
    · rw [added]
      exact ⟨rfl, rfl⟩
  cases a with
  | message topic payload =>
      cases arrival hx setting topic payload with
      | unheld outcome contents queue =>
          rw [queue]
          exact ⟨rfl, rfl⟩
      | held outcome acquired unused contents opened queue =>
          rw [queue]
          exact ⟨rfl, rfl⟩
  | start => exact submit .start
  | stop => exact submit .stop
  | receive =>
      change x.receive.queue.capacity = _ ∧ x.receive.queue.ended = _
      obtain same | ⟨event, items, -, taken⟩ := x.receive_cases
      · rw [same]
        exact ⟨rfl, rfl⟩
      · rw [taken]
        exact ⟨rfl, rfl⟩
  | _ => exact ⟨rfl, rfl⟩

theorem queue_run (hx : x.pool.Consistent) (setting : Setting ε) (actions : List Action) :
    (x.run setting actions).queue.capacity = x.queue.capacity ∧
      (x.run setting actions).queue.ended = x.queue.ended := by
  induction actions generalizing x with
  | nil => exact ⟨rfl, rfl⟩
  | cons a actions ih =>
      have later : (x.act setting a).pool.Consistent := consistent_act hx
      obtain ⟨capacity, ended⟩ := queue_act hx setting a
      obtain ⟨capacities, endeds⟩ := ih later
      exact ⟨capacities.trans capacity, endeds.trans ended⟩

theorem dimensions_run (hx : x.pool.Consistent) (setting : Setting ε) (actions : List Action) :
    (x.run setting actions).pool.capacity = x.pool.capacity ∧
      (x.run setting actions).pool.size = x.pool.size := by
  induction actions generalizing x with
  | nil => exact ⟨rfl, rfl⟩
  | cons a actions ih =>
      have later : (x.act setting a).pool.Consistent := consistent_act hx
      obtain ⟨capacity, size⟩ := ih later
      rw [pool_act] at capacity size
      exact ⟨capacity.trans (hx.capacity_run _), size.trans (hx.size_run _)⟩

/-- Where the queue has a place whenever the pool has a buffer, a message that
the engine wants and that fits is dispatched if there is a buffer. -/
theorem dispatch_of_spare (hx : x.pool.Consistent) (opened : x.queue.closed = false)
    (awaited : x.queue.ended = false)
    (spare : x.pool.free ≠ [] → x.queue.items.length < x.queue.capacity) {topic : String}
    {payload : List UInt8} {kind : EventKind} (wants : Route.Wants topic setting.routes kind)
    (fits : payload.length ≤ x.pool.size) :
    x.pool.free = [] ∧
        (x.dispatch setting topic payload).outcome = .dropped (.exhausted x.pool.capacity) ∨
      x.pool.free ≠ [] ∧
        ∃ h, (x.dispatch setting topic payload).outcome = .dispatched kind h payload.length := by
  rw [dispatch, Intake.dispatch_of_routed wants.kindOf wants.routed]
  cases top : x.pool.free with
  | nil =>
      rw [Intake.handOver_of_exhausted fits (Pool.acquire_of_free_eq_nil top)]
      exact .inl ⟨rfl, rfl⟩
  | cons slot free =>
      obtain ⟨b, found, -⟩ := hx.buffer_of_free top
      have place : x.queue.items.length < x.queue.capacity := by
        apply spare
        rw [top]
        exact List.cons_ne_nil slot free
      obtain ⟨-, accepted⟩ | ⟨full, -⟩ := Sink.queue_offer_of_open opened awaited
        (.lending kind ⟨slot, b.generation⟩ payload.length)
      · rw [Intake.handOver_of_accepted fits (Pool.acquire_of_free top found)
          (Pool.write_handingOut found free fits) accepted]
        exact .inr ⟨List.cons_ne_nil slot free, _, rfl⟩
      · exact absurd full (Nat.not_le.mpr place)

/-- There, such a message is dropped for want of a buffer exactly if all are in use. -/
theorem exhausted_iff_of_spare (hx : x.pool.Consistent) (opened : x.queue.closed = false)
    (awaited : x.queue.ended = false)
    (spare : x.pool.free ≠ [] → x.queue.items.length < x.queue.capacity) {topic : String}
    {payload : List UInt8} {kind : EventKind} (wants : Route.Wants topic setting.routes kind)
    (fits : payload.length ≤ x.pool.size) :
    let outcome := (x.dispatch setting topic payload).outcome
    (outcome = .dropped (.exhausted x.pool.capacity) ↔
        x.pool.handles.length = x.pool.capacity) ∧
      (x.pool.handles.length < x.pool.capacity →
        ∃ h, outcome = .dispatched kind h payload.length) := by
  intro outcome
  rw [← free_eq_nil_iff hx]
  obtain ⟨none, exhausted⟩ | ⟨some, h, dispatched⟩ :=
    dispatch_of_spare hx opened awaited spare wants fits
  · refine ⟨iff_of_true exhausted none, ?_⟩
    intro fewer
    exact absurd ((free_eq_nil_iff hx).mp none) (Nat.ne_of_lt fewer)
  · refine ⟨iff_of_false ?_ some, fun _ => ⟨h, dispatched⟩⟩
    intro exhausted
    cases dispatched.symm.trans exhausted

/-- There, the queue refuses no message. -/
theorem ne_queueFull_of_spare (hx : x.pool.Consistent) (opened : x.queue.closed = false)
    (awaited : x.queue.ended = false)
    (spare : x.pool.free ≠ [] → x.queue.items.length < x.queue.capacity) {topic : String}
    {payload : List UInt8} {kind : EventKind} (wants : Route.Wants topic setting.routes kind)
    (fits : payload.length ≤ x.pool.size) :
    (x.dispatch setting topic payload).outcome ≠ .dropped .queueFull := by
  obtain ⟨-, exhausted⟩ | ⟨-, h, dispatched⟩ := dispatch_of_spare hx opened awaited spare wants fits
  · simp [exhausted]
  · rw [dispatched]
    exact Outcome.noConfusion

/-- While no buffer is given back before its event was taken and generations tell
handles apart, a queue that is as deep as there are buffers and events without a
buffer in it refuses no message. A message that the engine wants and that fits a
buffer is dropped exactly if all buffers are in use, and every other one meets
the same fate as if none was. -/
theorem deep_queue_never_full {capacity size depth : Nat} {engine : ε}
    (punctual : Punctual setting (create capacity size depth engine) actions)
    (bounded : WithinGenerations ((create capacity size depth engine).run setting actions).back)
    (opened : ((create capacity size depth engine).run setting actions).queue.closed = false)
    (deep : capacity + ((create capacity size depth engine).run setting actions).queue.items.countP
      (fun event => event.buffer.isNone) ≤ depth)
    (topic : String) (payload : List UInt8) :
    let fresh := create capacity size depth engine
    let now := fresh.run setting actions
    let outcome := (now.dispatch setting topic payload).outcome
    outcome ≠ .dropped .queueFull ∧
      (∀ kind, Route.Wants topic setting.routes kind → payload.length ≤ size →
        (outcome = .dropped (.exhausted capacity) ↔ now.pool.handles.length = capacity) ∧
          (now.pool.handles.length < capacity →
            ∃ h, outcome = .dispatched kind h payload.length)) ∧
      ((∀ kind, Route.Wants topic setting.routes kind → size < payload.length) →
        outcome = (fresh.dispatch setting topic payload).outcome) := by
  intro fresh now outcome
  have start : fresh.pool.Aged fresh.back := Pool.aged_create capacity size
  have aged : now.pool.Aged now.back := aged_run start bounded
  have first := InOrder.create capacity size depth engine
  have ordered : now.InOrder := first.run start.consistent actions
  have tracked : now.Tracked :=
    (Tracked.create capacity size depth engine).run start first punctual bounded
  obtain ⟨capacity_run, size_eq⟩ := dimensions_run start.consistent setting actions
  have capacity_eq : now.pool.capacity = capacity :=
    capacity_run.trans (Pool.capacity_create capacity size)
  change now.pool.size = size at size_eq
  obtain ⟨depth_eq, awaited⟩ := queue_run start.consistent setting actions
  change now.queue.capacity = depth at depth_eq
  have spare : now.pool.free ≠ [] → now.queue.items.length < now.queue.capacity := by
    apply tracked.spare aged.consistent ordered
    rw [capacity_eq, depth_eq]
    exact deep
  have unwanted : (∀ kind, Route.Wants topic setting.routes kind → size < payload.length) →
      outcome = (fresh.dispatch setting topic payload).outcome := by
    intro other
    rw [← size_eq] at other
    exact Intake.outcome_of_unwanted other size_eq.symm
  refine ⟨?_, ?_, unwanted⟩
  · by_cases other : ∀ kind, Route.Wants topic setting.routes kind → size < payload.length
    · rw [unwanted other]
      exact Intake.ne_queueFull_of_unwanted start.consistent (Pool.blank_create capacity size)
        Sink.queue fresh.queue other
    · push Not at other
      obtain ⟨kind, wants, fits⟩ := other
      exact ne_queueFull_of_spare aged.consistent opened awaited spare wants (size_eq ▸ fits)
  · intro kind wants fits
    have decided := exhausted_iff_of_spare aged.consistent opened awaited spare wants
      (size_eq ▸ fits)
    rwa [capacity_eq] at decided

/-- Two buffers and a queue of three. The first buffer comes back late and twice,
and another is written by somebody else. With a stop in the queue and both
buffers lent again the queue is full to the last place, and the next block is
dropped for want of a buffer. -/
theorem deep_queue_never_full_brim :
    let setting : Setting Answering := ⟨[⟨"a", .fileBlock⟩], Control.answering, false⟩
    let engine : Answering := ⟨[], .ready, .ok (), .ok ()⟩
    let actions : List Action :=
      [.start, .message "a" [1], .receive, .receive, .stop, .message "a" [2],
        .callback (.processed (some ⟨0, 0⟩)), .write ⟨1, 0⟩ [9],
        .callback (.processed (some ⟨0, 0⟩)), .message "a" [3]]
    let now := (create 2 4 3 engine).run setting actions
    now.queue.items.length = now.queue.capacity ∧
      (now.dispatch setting "a" [4]).outcome = .dropped (.exhausted 2) := by
  intro setting engine actions now
  have few : WithinGenerations now.back := Pool.withinGenerations_of_length_lt (by decide +kernel)
  have wants : Route.Wants "a" setting.routes .fileBlock :=
    Route.wants_iff.mpr ⟨by decide +kernel, by decide⟩
  have punctual : Punctual setting (create 2 4 3 engine) actions := by decide +kernel
  obtain ⟨-, wanted, -⟩ :=
    deep_queue_never_full punctual few (by decide +kernel) (by decide +kernel) "a" [4]
  obtain ⟨exhausted, -⟩ := wanted .fileBlock wants (by decide)
  exact ⟨by decide +kernel, exhausted.mpr (by decide +kernel)⟩

end Exchange

end UpdateBridge
