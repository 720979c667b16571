import UpdateBridge.Proofs.Engine.Record
import UpdateBridge.Proofs.Engine.Stop
import UpdateBridge.Proofs.Pool.Atomic

/-!
# Any stream of events, in any portions

The task of a scripted engine is given events one at a time, and gets turns in
between in which it takes some of those that wait. Meanwhile others use the same
pool as they like. However the stream is cut, the engine has taken a prefix of it
and recorded that prefix, and it goes on or has come to what makes it stop
(`Attendance.Lawful.meetAll`).

An attendance keeps, besides the task, what the task was given, what the engine
saw of it and what was done to the pool. Nothing is ever decided by these records.
-/

namespace UpdateBridge

open Pool (WithinGenerations)

namespace Engine.Task

variable {ε : Type} {E : Engine ε} {task : Task ε} {unsubscribe : Bool} {limit : Nat}
variable {s : Served ε}

/-- A turn that may take more events than wait gets to the end of the queue. -/
theorem turn_of_lt (beyond : task.queue.items.length < limit) :
    task.turn E unsubscribe limit = task.advance E unsubscribe := by
  simp [turn, Nat.not_le.mpr beyond]

/-- In a turn the task serves as many events as it may, or as there are. -/
theorem turn_of_waiting (alive : task.state.isAlive = true)
    (more : task.queue.ended = false ∨ limit ≤ task.queue.items.length)
    (served : E.serveAll unsubscribe task.pool task.engine (task.queue.items.take limit) = s)
    (waiting : s.task = .waiting) :
    (task.turn E unsubscribe limit).1 = ⟨.waiting, s.pool, task.queue.drop limit, s.engine⟩ := by
  obtain beyond | filled := Nat.lt_or_ge task.queue.items.length limit
  · have awaited : task.queue.ended = false := more.resolve_right (Nat.not_le.mpr beyond)
    have none : task.queue.drop limit = task.queue.drained := by
      rw [Mailbox.drop, Mailbox.drained, List.drop_of_length_le (by omega)]
    rw [List.take_of_length_le (by omega)] at served
    rw [turn_of_lt beyond, none, advance_of_waiting alive awaited served waiting]
  · simp [turn, alive, filled, served, waiting]

/-- A task that gets to the end of a queue to which nobody can submit is over. -/
theorem turn_of_ended (alive : task.state.isAlive = true) (ended : task.queue.ended = true)
    (beyond : task.queue.items.length < limit)
    (served : E.serveAll unsubscribe task.pool task.engine (task.queue.items.take limit) = s)
    (waiting : s.task = .waiting) :
    (task.turn E unsubscribe limit).1 =
      ⟨.finished, s.pool, task.queue.close, E.setPhase .stopped s.engine⟩ := by
  rw [List.take_of_length_le (Nat.le_of_lt beyond)] at served
  rw [turn_of_lt beyond]
  simp [advance, alive, ended, served, waiting]

theorem turn_of_left {state : TaskState} (alive : task.state.isAlive = true)
    (served : E.serveAll unsubscribe task.pool task.engine (task.queue.items.take limit) = s)
    (left : s.task = state) (gone : state ≠ .waiting) :
    (task.turn E unsubscribe limit).1 = ⟨state, s.pool, task.queue.close, s.engine⟩ := by
  obtain beyond | filled := Nat.lt_or_ge task.queue.items.length limit
  · rw [List.take_of_length_le (by omega)] at served
    rw [turn_of_lt beyond, advance_of_left alive served left gone]
  · cases state with
    | waiting => exact absurd rfl gone
    | _ => simp [turn, alive, filled, served, left]

/-- A task that is over has no turn. -/
theorem turn_of_over (dead : task.state.isAlive = false) (E : Engine ε) (unsubscribe : Bool)
    (limit : Nat) : (task.turn E unsubscribe limit).1 = task := by
  simp [turn, advance, dead]

end Engine.Task

/-- A scripted engine's task, and what happened to it. -/
structure Attendance where
  task : Engine.Task Scripted
  /-- The events that were submitted, but for those that found the queue full. -/
  given : List Event
  /-- The events that the engine took, each with the pool at its moment. -/
  seen : List Glance
  /-- All that was done to the pool. -/
  history : List Pool.Operation

inductive Attendance.Happening where
  /-- Somebody uses the pool. -/
  | use (operation : Pool.Operation)
  | submit (event : Event)
  /-- The task has a turn of at most so many events; one that gets to the end of
  the queue ends there. -/
  | turn (limit : Nat)
  deriving DecidableEq

def Attendance.Happening.submits : Happening → List Event
  | .submit event => [event]
  | _ => []

namespace Attendance

/-- A task that has not run, and a pool to which something was done before. -/
def start (script : Script) (capacity size depth : Nat) (before : List Pool.Operation) :
    Attendance :=
  ⟨⟨.created, ((Pool.create capacity size).run before).2, Mailbox.empty depth,
    Scripted.fresh script .init⟩, [], [], before⟩

/-- What the engine takes in a turn of at most so many events. -/
def glances (unsubscribe : Bool) (a : Attendance) (limit : Nat) : List Glance :=
  if a.task.state.isAlive then
    Scripted.engine.glances unsubscribe a.task.pool a.task.engine (a.task.queue.items.take limit)
  else []

def operations (unsubscribe : Bool) (a : Attendance) : Happening → List Pool.Operation
  | .use operation => [operation]
  | .submit _ => []
  | .turn limit => Glance.releases (a.glances unsubscribe limit)

def meet (unsubscribe : Bool) (a : Attendance) (happening : Happening) : Attendance :=
  let history := a.history ++ a.operations unsubscribe happening
  match happening with
  | .use operation =>
    { a with task := { a.task with pool := (a.task.pool.apply operation).2 }, history }
  | .submit event =>
    match a.task.queue.post event with
    | (.error .full, _) => { a with history }
    | (_, queue) => { a with task := { a.task with queue }, given := a.given ++ [event], history }
  | .turn limit =>
    { a with
      task := (a.task.turn Scripted.engine unsubscribe limit).1
      seen := a.seen ++ a.glances unsubscribe limit
      history }

def meetAll (unsubscribe : Bool) (a : Attendance) (course : List Happening) : Attendance :=
  course.foldl (meet unsubscribe) a

variable {unsubscribe : Bool} {script : Script} {capacity size depth : Nat} {a : Attendance}
variable {happening : Happening} {course : List Happening} {event : Event} {limit : Nat}

theorem meetAll_append (unsubscribe : Bool) (a : Attendance) (first second : List Happening) :
    a.meetAll unsubscribe (first ++ second) =
      (a.meetAll unsubscribe first).meetAll unsubscribe second :=
  List.foldl_append

theorem history_meet (unsubscribe : Bool) (a : Attendance) (happening : Happening) :
    (a.meet unsubscribe happening).history = a.history ++ a.operations unsubscribe happening := by
  cases happening with
  | submit event =>
      rw [meet]
      dsimp only
      split <;> rfl
  | _ => rfl

theorem given_meet (unsubscribe : Bool) (a : Attendance) (happening : Happening) :
    (a.meet unsubscribe happening).given = a.given ∨
      (a.meet unsubscribe happening).given = a.given ++ happening.submits := by
  cases happening with
  | submit event =>
      rw [meet]
      dsimp only
      split
      · exact .inl rfl
      · exact .inr rfl
  | _ => exact .inl rfl

@[simp] theorem seen_submit (unsubscribe : Bool) (a : Attendance) (event : Event) :
    (a.meet unsubscribe (.submit event)).seen = a.seen := by
  rw [meet]
  dsimp only
  split <;> rfl

theorem seen_meet (unsubscribe : Bool) (a : Attendance) (happening : Happening) :
    a.seen <+: (a.meet unsubscribe happening).seen := by
  cases happening with
  | use operation => exact List.prefix_rfl
  | submit event => rw [seen_submit]
  | turn limit => exact List.prefix_append _ _

/-- What is given and what is seen only grows. -/
theorem grows (unsubscribe : Bool) (a : Attendance) (course : List Happening) :
    a.given <+: (a.meetAll unsubscribe course).given ∧
      a.seen <+: (a.meetAll unsubscribe course).seen := by
  induction course generalizing a with
  | nil => exact ⟨List.prefix_rfl, List.prefix_rfl⟩
  | cons happening course ih =>
      obtain ⟨givens, seens⟩ := ih (a.meet unsubscribe happening)
      refine ⟨?_, (a.seen_meet unsubscribe happening).trans seens⟩
      obtain same | more := a.given_meet unsubscribe happening
      · rwa [same] at givens
      · rw [more] at givens
        exact (List.prefix_append _ _).trans givens

/-- The engine has taken what it was given, up to what waits, and goes on. -/
structure Running (a : Attendance) (script : Script) : Prop where
  alive : a.task.state.isAlive = true
  opened : a.task.queue.closed = false
  awaited : a.task.queue.ended = false
  account : Glance.events a.seen ++ a.task.queue.items = a.given
  awake : a.task.engine.Awake script (Glance.events a.seen)

/-- The engine has come to what makes it stop, and nothing waits any more. -/
structure Over (a : Attendance) (script : Script) : Prop where
  state_eq : a.task.state = .finished
  closed : a.task.queue.closed = true
  items_eq : a.task.queue.items = []
  phase_eq : a.task.engine.phase = .stopped
  account : Glance.events a.seen <+: a.given
  stops : script.Stops (Glance.events a.seen)
  runs : script.Runs (Glance.events a.seen)

/-- The engine has recorded what it has seen, the pool is that of its history, and
the engine goes on or is over. -/
structure Lawful (a : Attendance) (script : Script) (unsubscribe : Bool) (capacity size : Nat) :
    Prop where
  records : a.task.engine.Records script unsubscribe a.seen
  pool_eq : a.task.pool = ((Pool.create capacity size).run a.history).2
  standing : a.Running script ∨ a.Over script

/-- In a turn a running engine takes as many events as it may, or stops on the way. -/
theorem Running.turn (running : a.Running script)
    (records : a.task.engine.Records script unsubscribe a.seen) (calm : script ≠ .crash)
    (manageable : Event.Manageable a.given) (limit : Nat) :
    let now := a.meet unsubscribe (.turn limit)
    now.task.engine.Records script unsubscribe now.seen ∧
      now.task.pool = (a.task.pool.run (a.operations unsubscribe (.turn limit))).2 ∧
      (now.Running script ∧ now.task.state = .waiting ∧
          now.task.queue.items = a.task.queue.items.drop limit ∨
        now.Over script) := by
  have portion : Glance.events a.seen ++ a.task.queue.items.take limit <+: a.given := by
    rw [← running.account, List.prefix_append_right_inj]
    exact List.take_prefix limit _
  have taken : a.glances unsubscribe limit = _ := if_pos running.alive
  have takes := Scripted.serveAll_records records running.awake calm
    (a.task.queue.items.take limit) (manageable.of_prefix portion) a.task.pool
  rw [← taken] at takes
  obtain ⟨task, rest, awake⟩ | ⟨task, phase, stops, runs⟩ := takes.outcome
  · have after := Engine.Task.turn_of_waiting running.alive (.inl running.awaited) rfl task
    simp only [meet, operations, after]
    refine ⟨takes.records, takes.pool_eq, .inl ⟨⟨rfl, running.opened, running.awaited, ?_, awake⟩,
      trivial, rfl⟩⟩
    have parts := takes.parts
    rw [rest, List.append_nil] at parts
    rw [Glance.events_append, parts, List.append_assoc, Mailbox.drop, List.take_append_drop]
    exact running.account
  · have after := Engine.Task.turn_of_left running.alive rfl task TaskState.noConfusion
    simp only [meet, operations, after]
    refine ⟨takes.records, takes.pool_eq, .inr ⟨rfl, rfl, rfl, phase, ?_, stops, runs⟩⟩
    have part : Glance.events (a.glances unsubscribe limit) <+: a.task.queue.items.take limit := by
      rw [← takes.parts]
      exact List.prefix_append _ _
    rw [Glance.events_append, ← running.account, List.prefix_append_right_inj]
    exact part.trans (List.take_prefix limit _)

/-- An engine that is over has no turn. -/
theorem Over.turn (halted : a.Over script) (unsubscribe : Bool) (limit : Nat) :
    a.meet unsubscribe (.turn limit) = a := by
  have dead : a.task.state.isAlive = false := by rw [halted.state_eq]; rfl
  have none : a.glances unsubscribe limit = [] := by rw [glances, dead]; rfl
  have after := Engine.Task.turn_of_over dead Scripted.engine unsubscribe limit
  simp [meet, operations, after, none, Glance.releases, Glance.events]

namespace Lawful

theorem start (script : Script) (unsubscribe : Bool) (capacity size depth : Nat)
    (before : List Pool.Operation) :
    (start script capacity size depth before).Lawful script unsubscribe capacity size where
  records := Scripted.records_fresh script .init unsubscribe
  pool_eq := rfl
  standing := .inl ⟨rfl, rfl, rfl, rfl, Scripted.awake_fresh script⟩

theorem use (lawful : a.Lawful script unsubscribe capacity size) (operation : Pool.Operation) :
    (a.meet unsubscribe (.use operation)).Lawful script unsubscribe capacity size where
  records := lawful.records
  pool_eq := by
    have run := Pool.run_append (Pool.create capacity size) a.history [operation]
    rw [← lawful.pool_eq] at run
    exact run.symm
  standing := by
    obtain ⟨alive, opened, awaited, account, awake⟩ | halted := lawful.standing
    · exact .inl ⟨alive, opened, awaited, account, awake⟩
    · exact .inr ⟨halted.state_eq, halted.closed, halted.items_eq, halted.phase_eq, halted.account,
        halted.stops, halted.runs⟩

theorem submit (lawful : a.Lawful script unsubscribe capacity size) (event : Event) :
    (a.meet unsubscribe (.submit event)).Lawful script unsubscribe capacity size := by
  have history : a.history ++ a.operations unsubscribe (.submit event) = a.history :=
    List.append_nil a.history
  rw [meet]
  dsimp only
  rw [history]
  obtain running | halted := lawful.standing
  · obtain vacant | full := Nat.lt_or_ge a.task.queue.items.length a.task.queue.capacity
    · rw [Mailbox.post_of_lt running.opened running.awaited vacant]
      refine ⟨lawful.records, lawful.pool_eq, .inl ⟨running.alive, running.opened,
        running.awaited, ?_, running.awake⟩⟩
      rw [← running.account, List.append_assoc]
    · rw [Mailbox.post_of_le running.opened running.awaited full]
      exact ⟨lawful.records, lawful.pool_eq, .inl ⟨running.alive, running.opened,
        running.awaited, running.account, running.awake⟩⟩
  · rw [Mailbox.post_of_closed halted.closed]
    exact ⟨lawful.records, lawful.pool_eq, .inr ⟨halted.state_eq, halted.closed, halted.items_eq,
      halted.phase_eq, halted.account.trans (List.prefix_append _ _), halted.stops, halted.runs⟩⟩

theorem turn (lawful : a.Lawful script unsubscribe capacity size) (calm : script ≠ .crash)
    (manageable : Event.Manageable a.given) (limit : Nat) :
    (a.meet unsubscribe (.turn limit)).Lawful script unsubscribe capacity size := by
  obtain running | halted := lawful.standing
  · obtain ⟨records, pool, standing⟩ := running.turn lawful.records calm manageable limit
    refine ⟨records, ?_, standing.imp_left And.left⟩
    rw [pool, lawful.pool_eq, history_meet, Pool.run_append]
  · rw [halted.turn]
    exact lawful

theorem meet (lawful : a.Lawful script unsubscribe capacity size) (calm : script ≠ .crash)
    (manageable : Event.Manageable a.given) (happening : Happening) :
    (a.meet unsubscribe happening).Lawful script unsubscribe capacity size := by
  cases happening with
  | use operation => exact lawful.use operation
  | submit event => exact lawful.submit event
  | turn limit => exact lawful.turn calm manageable limit

theorem meetAll (lawful : a.Lawful script unsubscribe capacity size) (calm : script ≠ .crash)
    (manageable : Event.Manageable (a.meetAll unsubscribe course).given) :
    (a.meetAll unsubscribe course).Lawful script unsubscribe capacity size := by
  induction course generalizing a with
  | nil => exact lawful
  | cons happening course ih =>
      have now := manageable.of_prefix (a.grows unsubscribe (happening :: course)).1
      exact ih (lawful.meet calm now happening) manageable

/-- What happens changes the pool by its operations and in no other way. -/
theorem pool_meet (lawful : a.Lawful script unsubscribe capacity size) (calm : script ≠ .crash)
    (manageable : Event.Manageable a.given) (happening : Happening) :
    (a.meet unsubscribe happening).task.pool =
      (a.task.pool.run (a.operations unsubscribe happening)).2 := by
  rw [(lawful.meet calm manageable happening).pool_eq, history_meet, Pool.run_append,
    lawful.pool_eq]

theorem consistent (lawful : a.Lawful script unsubscribe capacity size) :
    a.task.pool.Consistent := by
  rw [lawful.pool_eq]
  exact (Pool.consistent_create capacity size).run a.history

end Lawful

end Attendance

end UpdateBridge
