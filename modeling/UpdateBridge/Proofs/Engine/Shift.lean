import UpdateBridge.Proofs.Engine.Agreement

/-!
# The same shift with either engine

A shift is the task of an engine with what happens around it: messages are dispatched
into its queue, the start and the stop are submitted, others take buffers, everybody
goes who could submit, and the task has its turns. Buffers come back from the engine
alone. The records of a shift say what was submitted and what the engine took and
raised, and nothing is decided by them.

All but a turn does not look at the engine, so it comes to the same with another
(`meet_exchange`); for a turn this is what `serveAll_agree` says.
-/

namespace UpdateBridge

/-- An engine's task, what was submitted to it, and what it reported. -/
structure Shift (ε : Type) where
  task : Engine.Task ε
  /-- The events that its queue accepted, in order. -/
  given : List Event
  /-- The events that the engine took, in order, each with what it raised. -/
  reports : List Report

inductive Shift.Happening where
  /-- A message is dispatched. -/
  | message (m : Message)
  /-- The start is submitted. -/
  | start
  /-- The stop is submitted. -/
  | stop
  /-- Somebody else takes a buffer. -/
  | take
  /-- Everybody goes who could submit. -/
  | finish
  /-- The task has a turn of at most so many events; one that gets to the end of the
  queue ends there. -/
  | turn (limit : Nat)
  deriving DecidableEq

namespace Shift

variable {ε φ : Type}

/-- A task that has not run, with an empty queue of that depth, on a pool that was
used before. -/
def start (capacity size depth : Nat) (before : List Pool.Operation) (engine : ε) : Shift ε :=
  ⟨⟨.created, ((Pool.create capacity size).run before).2, .empty depth, engine⟩, [], []⟩

def submit (x : Shift ε) (event : Event) : Shift ε :=
  match Sink.queue.offer x.task.queue event with
  | (.ok (), queue) => { x with task := { x.task with queue }, given := x.given ++ [event] }
  | (.error _, queue) => { x with task := { x.task with queue } }

def dispatch (x : Shift ε) (m : Message) : Shift ε :=
  let d := Intake.dispatch Sink.queue Route.updates m.topic m.payload x.task.pool x.task.queue
  { x with
    task := { x.task with pool := d.pool, queue := d.sink }
    given := x.given ++ d.outcome.events }

def turn (E : Engine ε) (unsubscribe : Bool) (x : Shift ε) (limit : Nat) : Shift ε :=
  { x with
    task := (x.task.turn E unsubscribe limit).1
    reports := x.reports ++ if x.task.state.isAlive then
      E.reports unsubscribe x.task.pool x.task.engine (x.task.queue.items.take limit) else [] }

def meet (E : Engine ε) (unsubscribe : Bool) (x : Shift ε) : Happening → Shift ε
  | .message m => x.dispatch m
  | .start => x.submit .start
  | .stop => x.submit .stop
  | .take => { x with task := { x.task with pool := x.task.pool.acquire.2 } }
  | .finish => { x with task := { x.task with queue := x.task.queue.finish } }
  | .turn limit => x.turn E unsubscribe limit

def meetAll (E : Engine ε) (unsubscribe : Bool) (x : Shift ε) (happenings : List Happening) :
    Shift ε :=
  happenings.foldl (meet E unsubscribe) x

/-- The shift with another engine. -/
def exchange (x : Shift ε) (engine : φ) : Shift φ :=
  ⟨⟨x.task.state, x.task.pool, x.task.queue, engine⟩, x.given, x.reports⟩

variable {x : Shift ε} {happening : Happening} {event : Event}

/-- An event is submitted behind the others, or nothing happens. -/
theorem submit_cases (x : Shift ε) (event : Event) :
    x.submit event = x ∨
      x.submit event =
        { x with
          task := { x.task with
            queue := { x.task.queue with items := x.task.queue.items ++ [event] } }
          given := x.given ++ [event] } := by
  unfold submit
  obtain ⟨accepted, -⟩ | ⟨fault, refused⟩ := Sink.queue_offer_cases x.task.queue event
  · rw [accepted]
    exact .inr rfl
  · rw [refused]
    exact .inl rfl

theorem submit_exchange (x : Shift ε) (engine : φ) (event : Event) :
    (x.exchange engine).submit event = (x.submit event).exchange engine := by
  unfold submit exchange
  dsimp only
  split <;> rfl

/-- A task that is over has no turn. -/
theorem turn_of_over (dead : x.task.state.isAlive = false) (E : Engine ε) (unsubscribe : Bool)
    (limit : Nat) : x.turn E unsubscribe limit = x := by
  simp [turn, Engine.Task.turn_of_over dead, dead]

/-- What happens around the task does not depend on the engine. -/
theorem meet_exchange (outside : ∀ limit, happening ≠ .turn limit) (E : Engine ε) (F : Engine φ)
    (unsubscribe : Bool) (x : Shift ε) (engine : φ) :
    (x.exchange engine).meet F unsubscribe happening =
      (x.meet E unsubscribe happening).exchange engine := by
  cases happening with
  | turn limit => exact absurd rfl (outside limit)
  | start => exact x.submit_exchange engine .start
  | stop => exact x.submit_exchange engine .stop
  | _ => rfl

/-- What happens around the task leaves the task where it is. -/
theorem meet_outside (outside : ∀ limit, happening ≠ .turn limit) (E : Engine ε)
    (unsubscribe : Bool) (x : Shift ε) :
    (x.meet E unsubscribe happening).task.state = x.task.state ∧
      (x.meet E unsubscribe happening).task.engine = x.task.engine ∧
      (x.meet E unsubscribe happening).reports = x.reports ∧
      x.given <+: (x.meet E unsubscribe happening).given := by
  have submitted : ∀ event, (x.submit event).task.state = x.task.state ∧
      (x.submit event).task.engine = x.task.engine ∧ (x.submit event).reports = x.reports ∧
      x.given <+: (x.submit event).given := by
    intro event
    obtain same | added := x.submit_cases event
    · rw [same]
      exact ⟨rfl, rfl, rfl, List.prefix_rfl⟩
    · rw [added]
      exact ⟨rfl, rfl, rfl, List.prefix_append _ _⟩
  cases happening with
  | turn limit => exact absurd rfl (outside limit)
  | message m => exact ⟨rfl, rfl, rfl, List.prefix_append _ _⟩
  | start => exact submitted .start
  | stop => exact submitted .stop
  | _ => exact ⟨rfl, rfl, rfl, List.prefix_rfl⟩

/-- What happens around the task puts backed events behind those that wait, or none. -/
theorem waiting_outside (outside : ∀ limit, happening ≠ .turn limit) (E : Engine ε)
    (unsubscribe : Bool) {limit : Nat} (backs : x.task.pool.Backs limit x.task.queue.items) :
    let y := x.meet E unsubscribe happening
    y.task.pool.Backs limit y.task.queue.items ∧
      ∃ added, y.task.queue.items = x.task.queue.items ++ added ∧ y.given = x.given ++ added := by
  have submitted : ∀ event, event.Backed x.task.pool → event.buffer = none →
      (x.submit event).task.pool.Backs limit (x.submit event).task.queue.items ∧
        ∃ added, (x.submit event).task.queue.items = x.task.queue.items ++ added ∧
          (x.submit event).given = x.given ++ added := by
    intro event backed unlent
    obtain same | added := x.submit_cases event
    · rw [same]
      exact ⟨backs, [], (List.append_nil _).symm, (List.append_nil _).symm⟩
    · rw [added]
      refine ⟨backs.concat backed ?_, [event], rfl, rfl⟩
      simp [Exchange.buffers, unlent]
  cases happening with
  | turn limit => exact absurd rfl (outside limit)
  | message m =>
      refine ⟨backs.dispatch m, ?_⟩
      simp only [meet, dispatch]
      cases Intake.dispatch_adds backs.consistent x.task.queue m with
      | @loan h outcome routed opened sink unused contents =>
          rw [sink, outcome]
          exact ⟨[Loan.event ⟨h, m⟩], rfl, rfl⟩
      | nothing outcome sink contents =>
          have silent := Outcome.events_of_undispatched outcome
          rw [sink, silent]
          exact ⟨[], (List.append_nil _).symm, rfl⟩
  | start => exact submitted .start .start rfl
  | stop => exact submitted .stop .stop rfl
  | take => exact ⟨backs.acquire, [], (List.append_nil _).symm, (List.append_nil _).symm⟩
  | finish => exact ⟨backs, [], (List.append_nil _).symm, (List.append_nil _).symm⟩

/-! ## A shift of both engines -/

/-- How a shift of the download engine stands where another engine with a script has
the same shift: it goes on with the two engines abreast, or it is over. -/
inductive Standing (k : UInt32) (x : Shift Download) (s : Scripted) : Prop
  | running (alive : x.task.state.isAlive = true)
      (account : Report.events x.reports ++ x.task.queue.items = x.given)
      (quiet : Report.activations x.reports = 0) (abreast : Abreast k x.task.engine s)
      (backs : x.task.pool.Backs Download.blockSize x.task.queue.items)
  | ended (dead : x.task.state.isAlive = false) (part : Report.events x.reports <+: x.given)
      (once : Report.activations x.reports ≤ 1)

/-- Both engines have the same shift and show the same of themselves. -/
structure Agree (k : UInt32) (x : Shift Download) (y : Shift Scripted) : Prop where
  same : y = x.exchange y.task.engine
  phase_eq : x.task.engine.phase = y.task.engine.phase
  counters_eq : x.task.engine.counters = y.task.engine.counters
  standing : Standing k x y.task.engine

namespace Agree

variable {k : UInt32} {x : Shift Download} {y : Shift Scripted} {unsubscribe : Bool}
variable {happening : Happening}

theorem start (positive : 0 < k) {size : Nat} (small : size ≤ Download.blockSize)
    (capacity depth : Nat) (before : List Pool.Operation) :
    Agree k (start capacity size depth before (Download.fresh k))
      (start capacity size depth before (Scripted.fresh (.activate k) .init)) where
  same := rfl
  phase_eq := rfl
  counters_eq := rfl
  standing := by
    have created := Pool.consistent_create capacity size
    have size_le : ((Pool.create capacity size).run before).2.size ≤ Download.blockSize := by
      rw [created.size_run]
      exact small
    exact .running rfl rfl rfl (.fresh positive) (.nil (created.run before) size_le)

/-- What happens around the task is the same for both. -/
theorem outside (agree : Agree k x y) (outside : ∀ limit, happening ≠ .turn limit)
    (unsubscribe : Bool) :
    Agree k (x.meet Download.engine unsubscribe happening)
      (y.meet Scripted.engine unsubscribe happening) := by
  obtain ⟨state, engine, reports, given⟩ := meet_outside outside Download.engine unsubscribe x
  have same : y.meet Scripted.engine unsubscribe happening =
      (x.meet Download.engine unsubscribe happening).exchange y.task.engine := by
    rw [agree.same]
    exact meet_exchange outside Download.engine Scripted.engine unsubscribe x _
  rw [same]
  refine ⟨rfl, ?_, ?_, ?_⟩
  · rw [engine]
    exact agree.phase_eq
  · rw [engine]
    exact agree.counters_eq
  · cases agree.standing with
    | running alive account quiet abreast backs =>
        obtain ⟨backs', added, items, given'⟩ :=
          waiting_outside outside Download.engine unsubscribe backs
        refine .running (state ▸ alive) ?_ (reports ▸ quiet) (engine ▸ abreast) backs'
        rw [reports, items, given', ← account, List.append_assoc]
    | ended dead part once =>
        refine .ended (state ▸ dead) ?_ (reports ▸ once)
        rw [reports]
        exact part.trans given

/-- A turn of a task that goes on is the same for both: the two loops take the same
part of the queue, and both go on, both stop on the way or both learn at its end that
nothing will come any more. -/
theorem turn_running {e : Scripted} (alive : x.task.state.isAlive = true)
    (account : Report.events x.reports ++ x.task.queue.items = x.given)
    (quiet : Report.activations x.reports = 0) (abreast : Abreast k x.task.engine e)
    (backs : x.task.pool.Backs Download.blockSize x.task.queue.items) (unsubscribe : Bool)
    (limit : Nat) :
    Agree k (x.turn Download.engine unsubscribe limit)
      ((x.exchange e).turn Scripted.engine unsubscribe limit) := by
  have portion := List.take_append_drop limit x.task.queue.items
  have alive' : (x.exchange e).task.state.isAlive = true := alive
  rw [← portion] at backs
  obtain ⟨reports, alike, progress⟩ := serveAll_agree abreast backs unsubscribe
  cases progress with
  | going waiting all quiet' next left =>
      have waiting' := alike.task_eq.symm.trans waiting
      by_cases more : x.task.queue.ended = false ∨ limit ≤ x.task.queue.items.length
      · have turned : (x.task.turn Download.engine unsubscribe limit).1 = _ :=
          Engine.Task.turn_of_waiting alive more rfl waiting
        have turned' : ((x.exchange e).task.turn Scripted.engine unsubscribe limit).1 = _ :=
          Engine.Task.turn_of_waiting alive more rfl waiting'
        simp only [turn, turned, turned', if_pos alive, if_pos alive']
        refine ⟨?_, alike.phase_eq, alike.counters_eq, .running rfl ?_ ?_ next left⟩
        · simp only [exchange, alike.pool_eq, reports]
        · rw [Report.events_append, all, ← account, List.append_assoc]
          exact congrArg _ portion
        · rw [Report.activations_append, quiet, quiet']
      · obtain ⟨ended, beyond⟩ := not_or.mp more
        rw [Bool.not_eq_false] at ended
        rw [Nat.not_le] at beyond
        have turned : (x.task.turn Download.engine unsubscribe limit).1 = _ :=
          Engine.Task.turn_of_ended alive ended beyond rfl waiting
        have turned' : ((x.exchange e).task.turn Scripted.engine unsubscribe limit).1 = _ :=
          Engine.Task.turn_of_ended alive ended beyond rfl waiting'
        simp only [turn, turned, turned', if_pos alive, if_pos alive']
        refine ⟨?_, rfl, alike.counters_eq, .ended rfl ?_ ?_⟩
        · simp only [exchange, alike.pool_eq, reports]
        · rw [Report.events_append, all, ← account]
          exact (List.prefix_append_right_inj _).mpr (List.take_prefix limit _)
        · rw [Report.activations_append, quiet, quiet']
          exact Nat.zero_le 1
  | ended finished part once =>
      have finished' := alike.task_eq.symm.trans finished
      have turned : (x.task.turn Download.engine unsubscribe limit).1 = _ :=
        Engine.Task.turn_of_left alive rfl finished TaskState.noConfusion
      have turned' : ((x.exchange e).task.turn Scripted.engine unsubscribe limit).1 = _ :=
        Engine.Task.turn_of_left alive rfl finished' TaskState.noConfusion
      simp only [turn, turned, turned', if_pos alive, if_pos alive']
      refine ⟨?_, alike.phase_eq, alike.counters_eq, .ended rfl ?_ ?_⟩
      · simp only [exchange, alike.pool_eq, reports]
      · rw [Report.events_append, ← account]
        exact (List.prefix_append_right_inj _).mpr (part.trans (List.take_prefix limit _))
      · rwa [Report.activations_append, quiet, Nat.zero_add]

theorem turn (agree : Agree k x y) (unsubscribe : Bool) (limit : Nat) :
    Agree k (x.turn Download.engine unsubscribe limit)
      (y.turn Scripted.engine unsubscribe limit) := by
  rw [agree.same]
  cases agree.standing with
  | running alive account quiet abreast backs =>
      exact turn_running alive account quiet abreast backs unsubscribe limit
  | ended dead part once =>
      have dead' : (x.exchange y.task.engine).task.state.isAlive = false := dead
      rw [turn_of_over dead, turn_of_over dead', ← agree.same]
      exact agree

theorem meet (agree : Agree k x y) (unsubscribe : Bool) (happening : Happening) :
    Agree k (x.meet Download.engine unsubscribe happening)
      (y.meet Scripted.engine unsubscribe happening) := by
  by_cases around : ∃ limit, happening = .turn limit
  · obtain ⟨limit, rfl⟩ := around
    exact agree.turn unsubscribe limit
  · exact agree.outside (fun limit same => around ⟨limit, same⟩) unsubscribe

theorem meetAll (agree : Agree k x y) (unsubscribe : Bool) (happenings : List Happening) :
    Agree k (x.meetAll Download.engine unsubscribe happenings)
      (y.meetAll Scripted.engine unsubscribe happenings) := by
  induction happenings generalizing x y with
  | nil => exact agree
  | cons happening happenings ih => exact ih (agree.meet unsubscribe happening)

/-- At every moment the engine has taken the first events of the stream, and raised
activation with one of them at most. -/
theorem taken (agree : Agree k x y) :
    Report.events x.reports <+: x.given ∧ Report.activations x.reports ≤ 1 := by
  cases agree.standing with
  | running alive account quiet abreast backs =>
      exact ⟨account ▸ List.prefix_append _ _, quiet ▸ Nat.zero_le 1⟩
  | ended dead part once => exact ⟨part, once⟩

end Agree

/-- A download engine that waits for `k` blocks, and a scripted engine that is to raise
activation with the `k`-th, on a pool with buffers of at most 1024 octets: as long as
buffers come back from the engine alone, whatever is dispatched and submitted, whoever
else takes buffers and however the task gets its turns, the same events are submitted
to both. Both take the same part of them from the first on, raise the same callbacks
with each, activation with one at most, and the phase, the counters, the whole pool,
the queue and the state of the task are the same. -/
theorem download_agrees_with_scripted {k : UInt32} (positive : 1 ≤ k) {size : Nat}
    (small : size ≤ 1024) (capacity depth : Nat) (before : List Pool.Operation)
    (unsubscribe : Bool) (happenings : List Happening) :
    let x := (start capacity size depth before (Download.fresh k)).meetAll Download.engine
      unsubscribe happenings
    let y := (start capacity size depth before
      (Scripted.fresh (.activate k) .init)).meetAll Scripted.engine unsubscribe happenings
    x.given = y.given ∧
      (x.reports = y.reports ∧ Report.events x.reports <+: x.given ∧
        Report.activations x.reports ≤ 1) ∧
      (x.task.engine.phase = y.task.engine.phase ∧
        x.task.engine.counters = y.task.engine.counters) ∧
      x.task.pool = y.task.pool ∧ x.task.queue = y.task.queue ∧ x.task.state = y.task.state := by
  intro x y
  have agree : Agree k x y :=
    (Agree.start (UInt32.lt_of_lt_of_le (by decide) positive) small capacity depth before).meetAll
      unsubscribe happenings
  have same := agree.same
  exact ⟨(congrArg given same).symm, ⟨(congrArg Shift.reports same).symm, agree.taken⟩,
    ⟨agree.phase_eq, agree.counters_eq⟩, (congrArg (·.task.pool) same).symm,
    (congrArg (·.task.queue) same).symm, (congrArg (·.task.state) same).symm⟩

/-- With the second block both are over. The third and the stop behind it are not
taken, and the buffer of the third stays lent, as does the one that somebody else has. -/
theorem download_agrees_with_scripted_completed :
    let block : List UInt8 → Message :=
      fun payload => ⟨"$aws/things/core2/streams/fw/data", payload⟩
    let happenings : List Happening :=
      [.start, .message ⟨"$aws/things/core2/jobs/notify-next", [7, 7]⟩, .message (block [1]),
        .turn 8, .message (block [2]), .message (block [3]), .stop, .turn 8, .message (block [4])]
    let y := (start 3 16 4 [.acquire] (Scripted.fresh (.activate 2) .init)).meetAll Scripted.engine
      true happenings
    ((1 : UInt32) ≤ 2 ∧ 16 ≤ 1024) ∧ y.task.state = .finished ∧
      (Report.events y.reports).length = 4 ∧ y.given.length = 6 ∧
      Report.activations y.reports = 1 ∧ y.task.engine.phase = .stopped ∧
      y.task.engine.counters.processed = 3 ∧ y.task.pool.freeCount = 1 := by
  intro block happenings y
  let x := (start 3 16 4 [.acquire] (Download.fresh 2)).meetAll Download.engine true happenings
  have positive : (1 : UInt32) ≤ 2 := by decide
  have small : 16 ≤ 1024 := by decide
  have finished : x.task.state = .finished := by decide +kernel
  have taken : (Report.events x.reports).length = 4 := by decide +kernel
  have submitted : x.given.length = 6 := by decide +kernel
  have activated : Report.activations x.reports = 1 := by decide +kernel
  have stopped : x.task.engine.phase = .stopped := by decide +kernel
  have processed : x.task.engine.counters.processed = 3 := by decide +kernel
  have left : x.task.pool.freeCount = 1 := by decide +kernel
  obtain ⟨given, ⟨reports, -, -⟩, ⟨phase, counters⟩, pool, -, state⟩ :=
    download_agrees_with_scripted positive small 3 4 [.acquire] true happenings
  refine ⟨⟨positive, small⟩, ?_, ?_, ?_, ?_, ?_, ?_, ?_⟩
  · rw [← finished, state]
  · rw [← taken, reports]
  · rw [← submitted, given]
  · rw [← activated, reports]
  · rw [← stopped, phase]
  · rw [← processed, counters]
  · rw [← left, pool]

end Shift

end UpdateBridge
