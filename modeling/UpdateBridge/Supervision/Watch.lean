import UpdateBridge.Engine.Basic
import UpdateBridge.Pause

/-!
# Watching the engine

A watcher looks at the engine at fixed times: when it begins and then after
every full interval, which is cut as a pause is. What it sees depends on the
engine's phase and on whether the engine's task is over. It reads the counters
unless the engine is suspended, and it stops looking once the engine has
stopped or its task is over; what it read last is what it reports.
-/

namespace UpdateBridge

/-- What a look at the engine shows. -/
inductive Sight where
  /-- The engine has stopped. -/
  | stopped
  /-- The task is over although the engine has not stopped. -/
  | orphaned
  | suspended
  | working
  deriving DecidableEq, Repr, Inhabited

namespace Sight

/-- What a look shows when the engine is in this phase and its task is over or
not. -/
def of : Phase → Bool → Sight
  | .stopped, _ => .stopped
  | _, true => .orphaned
  | .suspended, false => .suspended
  | _, false => .working

/-- Whether there is nothing more to look for. -/
def isLast : Sight → Bool
  | .stopped | .orphaned => true
  | .suspended | .working => false

/-- Whether the counters are read. -/
def reads : Sight → Bool
  | .suspended => false
  | _ => true

/-- What is noted, given the counters at that moment. -/
def notes (counters : Counters) : Sight → List Note
  | .stopped => [.engineStopped counters]
  | .orphaned => [.engineEndedEarly, .engineStopped counters]
  | .suspended => [.engineSuspended]
  | .working => [.engineCounters counters]

end Sight

/-- A watcher's times: when it began, how long it waits and how often it has
looked. -/
structure Watch where
  began : Nat
  interval : Nat
  looks : Nat
  deriving DecidableEq, Repr, Inhabited

namespace Watch

/-- Begin to watch; an interval of zero cannot be waited for. -/
def begin (now interval : Nat) : Except Crash Watch :=
  if interval = 0 then .error .zeroPeriod else .ok ⟨now, interval, 0⟩

def next (w : Watch) : Nat :=
  w.began + w.looks * Pause.length w.interval

def looked (w : Watch) : Watch :=
  { w with looks := w.looks + 1 }

end Watch

structure Looked (ε : Type) where
  sight : Sight
  counters : Counters
  engine : ε
  notes : List Note

/-- Look at the engine, whose task is over or not. -/
def Engine.look {ε : Type} (E : Engine ε) (taskOver : Bool) (engine : ε) : Looked ε :=
  let sight := Sight.of (E.phase engine) taskOver
  let counters := E.counters engine
  ⟨sight, counters, if sight.reads then E.countersRead engine else engine, sight.notes counters⟩

end UpdateBridge
