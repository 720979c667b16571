import UpdateBridge.Engine.Reaction

/-!
# Engines and their event loop

An `Engine` is what the bridge knows of an update engine with states `ε`: how
it answers requests, what it shows of itself, what it does with one event and
when its loop ends. The loop takes events from the queue one at a time, lets
the engine accept each and reacts to the callbacks that raises. It ends when
the engine wants to leave, when a crash stops it, or when no event can come
any more; all but a crash leave the engine stopped.

Once a loop has ended its queue is closed, and the events still in it are lost
together with the buffers they lend.
-/

namespace UpdateBridge

structure Accepted (ε : Type) where
  engine : ε
  callbacks : List Callback
  notes : List Note

/-- A crash, and what it leaves of the engine. -/
structure Crashed (ε : Type) where
  crash : Crash
  engine : ε

/-- An update engine with states `ε`. -/
structure Engine (ε : Type) extends Control ε where
  phase : ε → Phase
  setPhase : Phase → ε → ε
  counters : ε → Counters
  /-- The engine after somebody has looked at its counters. -/
  countersRead : ε → ε
  /-- The crash with which this event stops the engine's task on the spot, if it does. -/
  crash? : Pool → Event → ε → Option (Crashed ε)
  /-- What the engine does with an event, given the pool to read from. -/
  accept : Pool → Event → ε → Accepted ε
  /-- Whether the loop ends after this event and its callbacks. -/
  leaves : Event → ε → Bool

/-- How far the engine's task has come. -/
inductive TaskState where
  /-- There is no task. -/
  | absent
  /-- There is one, and it has not run yet. -/
  | created
  /-- It waits for an event. -/
  | waiting
  | finished
  | crashed (crash : Crash)
  deriving DecidableEq, Repr, Inhabited

namespace TaskState

def isOver : TaskState → Bool
  | .finished | .crashed _ => true
  | _ => false

/-- Whether the task will go on when an event comes. -/
def isAlive : TaskState → Bool
  | .created | .waiting => true
  | _ => false

/-- Whether the engine crashed while it wrote to its records. Whoever looks at them
after that crashes as well. -/
def isPoisoned : TaskState → Bool
  | .crashed .unaddressable => true
  | _ => false

def openingNotes : TaskState → List Note
  | .created => [.taskStarted]
  | _ => []

end TaskState

namespace Engine

variable {ε : Type}

/-- The engine, its pool and its task after some events. -/
structure Served (ε : Type) where
  task : TaskState
  pool : Pool
  engine : ε
  /-- Events that were not looked at. -/
  rest : List Event
  notes : List Note

/-- Do what one event asks for. -/
def serve (E : Engine ε) (unsubscribe : Bool) (pool : Pool) (engine : ε) (event : Event) :
    Served ε :=
  match E.crash? pool event engine with
  | some crashed => ⟨.crashed crashed.crash, pool, crashed.engine, [], []⟩
  | none =>
    let accepted := E.accept pool event engine
    let reaction :=
      Reaction.ofCallbacks E.toControl unsubscribe pool accepted.engine accepted.callbacks
    let notes := accepted.notes ++ reaction.notes
    if E.leaves event reaction.engine then
      ⟨.finished, reaction.pool, E.setPhase .stopped reaction.engine, [],
        notes ++ [.taskFinished]⟩
    else ⟨.waiting, reaction.pool, reaction.engine, [], notes⟩

/-- Do what the events ask for, in order, until the loop ends. -/
def serveAll (E : Engine ε) (unsubscribe : Bool) (pool : Pool) (engine : ε) :
    List Event → Served ε
  | [] => ⟨.waiting, pool, engine, [], []⟩
  | event :: events =>
    let first := E.serve unsubscribe pool engine event
    match first.task with
    | .waiting =>
      let others := E.serveAll unsubscribe first.pool first.engine events
      { others with notes := first.notes ++ others.notes }
    | _ => { first with rest := events }

/-- The engine's task: its loop together with what it works on. -/
structure Task (ε : Type) where
  state : TaskState
  pool : Pool
  queue : Mailbox Event
  engine : ε

/-- Let the task go on until it waits or ends. -/
def Task.advance (E : Engine ε) (unsubscribe : Bool) (task : Task ε) : Task ε × List Note :=
  if !task.state.isAlive then (task, [])
  else
    let served := E.serveAll unsubscribe task.pool task.engine task.queue.items
    let notes := task.state.openingNotes ++ served.notes
    match served.task with
    | .waiting =>
      if task.queue.ended then
        (⟨.finished, served.pool, task.queue.close, E.setPhase .stopped served.engine⟩,
          notes ++ [.taskFinished])
      else (⟨.waiting, served.pool, task.queue.drained, served.engine⟩, notes)
    | state => (⟨state, served.pool, task.queue.close, served.engine⟩, notes)

/-- Let the task go on for one turn of at most so many events. If there are as
many it does not get to the end of its queue, and waits for its next turn. -/
def Task.turn (E : Engine ε) (unsubscribe : Bool) (limit : Nat) (task : Task ε) :
    Task ε × List Note :=
  if task.state.isAlive && limit ≤ task.queue.items.length then
    let served := E.serveAll unsubscribe task.pool task.engine (task.queue.items.take limit)
    let notes := task.state.openingNotes ++ served.notes
    match served.task with
    | .waiting => (⟨.waiting, served.pool, task.queue.drop limit, served.engine⟩, notes)
    | state => (⟨state, served.pool, task.queue.close, served.engine⟩, notes)
  else task.advance E unsubscribe

@[simp] theorem serveAll_nil (E : Engine ε) (unsubscribe : Bool) (pool : Pool) (engine : ε) :
    E.serveAll unsubscribe pool engine [] = ⟨.waiting, pool, engine, [], []⟩ := rfl

end Engine

end UpdateBridge
