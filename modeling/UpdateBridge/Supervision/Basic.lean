import UpdateBridge.Intake.Dispatch
import UpdateBridge.Supervision.Watch
import UpdateBridge.Turn

/-!
# Supervision

An engine's task, the watchers over it and those who submit events share one
thread. Each runs until it has nothing to do and is then run again when there
is a reason: the task when an event comes, a watcher when its next look is due.
Who has a reason to run waits in `ready`, and runs in the order in which the
reasons arose. A task with plenty of events gives way after a turn, so that a
watcher may look at it amid its events. Time passes only when nobody is ready.

Watchers know nothing of each other. Each keeps its own times from the moment
at which it first runs, and each reads the engine's counters for itself. They
are numbered from zero in the order in which they were created. A watcher that
looks at an engine whose records are poisoned crashes.
-/

namespace UpdateBridge

inductive Role where
  | engine
  | watcher (number : Nat)
  deriving DecidableEq, Repr, Inhabited

inductive WatcherState where
  /-- It has not run yet. -/
  | created (interval : Nat)
  | watching (watch : Watch)
  /-- It has seen the engine's end. -/
  | ended (moment : Nat) (counters : Counters)
  | crashed (crash : Crash)
  deriving DecidableEq, Repr

namespace WatcherState

def isAlive : WatcherState → Bool
  | .created _ | .watching _ => true
  | .ended .. | .crashed _ => false

def due? : WatcherState → Option Nat
  | .watching w => some w.next
  | _ => none

end WatcherState

structure Supervision (ε : Type) where
  unsubscribe : Bool
  now : Nat
  task : Engine.Task ε
  watchers : List WatcherState
  ready : List Role
  journal : Journal

namespace Supervision

variable {ε : Type}

/-- An engine that nobody runs or watches yet. -/
def fresh (unsubscribe : Bool) (pool : Pool) (queue : Mailbox Event) (engine : ε) :
    Supervision ε :=
  ⟨unsubscribe, 0, ⟨.absent, pool, queue, engine⟩, [], [], []⟩

def noting (s : Supervision ε) (notes : List Note) : Supervision ε :=
  { s with journal := s.journal ++ Journal.stamped s.now notes }

/-- Give somebody a reason to run. -/
def wake (s : Supervision ε) (role : Role) : Supervision ε :=
  if role ∈ s.ready then s else { s with ready := s.ready ++ [role] }

def spawn (s : Supervision ε) : Supervision ε :=
  { s with task := { s.task with state := .created } }.wake .engine

def watch (s : Supervision ε) (interval : Nat) : Supervision ε :=
  { s with watchers := s.watchers ++ [WatcherState.created interval] }.wake
    (.watcher s.watchers.length)

/-- Whether anybody is going to look at the engine again. -/
def isWatched (s : Supervision ε) : Bool :=
  s.watchers.any WatcherState.isAlive

/-- Close the queue before there is a task that takes from it. -/
def closeQueue (s : Supervision ε) : Supervision ε :=
  match s.task.state with
  | .absent => { s with task := { s.task with queue := s.task.queue.close } }
  | _ => s

/-- Put the engine into a phase from outside. -/
def setPhase (E : Engine ε) (phase : Phase) (s : Supervision ε) : Supervision ε :=
  { s with task := { s.task with engine := E.setPhase phase s.task.engine } }

def offer (s : Supervision ε) (event : Event) : Except Fault Unit × Supervision ε :=
  let (answer, queue) := Sink.queue.offer s.task.queue event
  let s := { s with task := { s.task with queue } }.noting (Sink.queue.notes event answer)
  match answer with
  | .ok () => (answer, if s.task.state.isAlive then s.wake .engine else s)
  | .error _ => (answer, s)

def start (s : Supervision ε) : Except Fault Unit × Supervision ε :=
  (s.noting [.engineStarting]).offer .start

def stop (s : Supervision ε) : Except Fault Unit × Supervision ε :=
  (s.noting [.engineStopping]).offer .stop

/-- Take a buffer, write to it and put an event on the queue that lends it and
claims it to hold `length` octets. After a fault the buffer stays taken. -/
def submit (s : Supervision ε) (kind : EventKind) (payload : List UInt8) (length : Nat) :
    Except Fault Handle × Supervision ε :=
  let withPool (pool : Pool) : Supervision ε := { s with task := { s.task with pool } }
  match s.task.pool.acquire with
  | (.error fault, pool) => (.error fault, withPool pool)
  | (.ok h, pool) =>
    match pool.write h payload with
    | (.error fault, pool) => (.error fault, withPool pool)
    | (.ok _, pool) =>
      match (withPool pool).offer (.lending kind h length) with
      | (.ok (), s) => (.ok h, s)
      | (.error fault, s) => (.error fault, s)

/-- The watcher of that number looks. -/
def look (E : Engine ε) (number : Nat) (w : Watch) (s : Supervision ε) : Supervision ε :=
  if s.task.state.isPoisoned then
    { s with watchers := s.watchers.set number (.crashed .poisoned) }
  else
    let looked := E.look s.task.state.isOver s.task.engine
    let watcher :=
      if looked.sight.isLast then .ended s.now looked.counters else .watching w.looked
    { s with
      watchers := s.watchers.set number watcher
      task := { s.task with engine := looked.engine } }.noting looked.notes

/-- Let somebody run. -/
def turn (E : Engine ε) (s : Supervision ε) : Role → Supervision ε
  | .engine =>
    let (task, notes) := Engine.Task.turn E s.unsubscribe Turn.limit s.task
    { s with task }.noting notes
  | .watcher number =>
    match s.watchers[number]? with
    | some (.created interval) =>
      match Watch.begin s.now interval with
      | .ok w => s.look E number w
      | .error crash => { s with watchers := s.watchers.set number (.crashed crash) }
    | some (.watching w) => s.look E number w
    | _ => s

def advanceTask (E : Engine ε) (s : Supervision ε) : Supervision ε :=
  let (task, notes) := Engine.Task.advance E s.unsubscribe s.task
  { s with task }.noting notes

/-- Let everybody run who is ready. Nobody's turn gives another a reason, so
only a task that did not get to the end of its queue goes on after that. -/
def settle (E : Engine ε) (s : Supervision ε) : Supervision ε :=
  (s.ready.foldl (turn E) { s with ready := [] }).advanceTask E

def due? (s : Supervision ε) : Option Nat :=
  (s.watchers.filterMap WatcherState.due?).min?

def dueWatchers (s : Supervision ε) : List Nat :=
  (List.range s.watchers.length).filter fun number =>
    (s.watchers[number]?.bind WatcherState.due?).any (· ≤ s.now)

/-- Give the watchers a reason to run whose next look is due. -/
def wakeDue (s : Supervision ε) : Supervision ε :=
  (s.dueWatchers.map Role.watcher).foldl wake s

/-- Go from look to look, at most `fuel` times, and then to the moment. -/
def advanceWith (E : Engine ε) (moment : Nat) (s : Supervision ε) : Nat → Supervision ε
  | 0 => { s with now := moment }
  | fuel + 1 =>
    match s.due? with
    | some t =>
      if t ≤ moment then
        ({ s with now := t }.wakeDue.settle E).advanceWith E moment fuel
      else { s with now := moment }
    | none => { s with now := moment }

/-- Let time pass. Moments at which somebody looks are at least a millisecond
apart. -/
def advance (E : Engine ε) (milliseconds : Nat) (s : Supervision ε) : Supervision ε :=
  (s.settle E).advanceWith E (s.now + milliseconds) milliseconds

end Supervision

end UpdateBridge
