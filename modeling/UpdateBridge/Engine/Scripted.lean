import UpdateBridge.Engine.Basic

/-!
# The scripted engine

The scripted engine keeps what it is given and reports every buffer processed.
A script gives it at most one thing to do besides: to raise activation with the
n-th block that lends a buffer, or to give up on the event that should start
it. A start event makes it active and a stop event stopped; it leaves its loop
once it is shutting down or stopped.

A lent buffer is read into as many octets as its event says. Where that is more
than can be laid out the engine crashes, with the packet counted as received and
the buffer still lent.
-/

namespace UpdateBridge

/-- What a scripted engine is to do beyond keeping what it gets. -/
inductive Script where
  | nothing
  /-- Raise activation with the block of that number. -/
  | activate (block : UInt32)
  /-- Give up on a start event. -/
  | crash
  deriving DecidableEq, Repr, Inhabited

namespace Script

/-- Whether the block of that number completes the download. -/
def completesWith (number : UInt32) : Script → Bool
  | .activate block => block == number
  | .nothing | .crash => false

/-- The crash that an event of that kind brings about. -/
def crash? (kind : EventKind) : Script → Option Crash
  | .crash => if kind = .start then some .engineStart else none
  | .nothing | .activate _ => none

/-- Only a script that says so crashes. -/
theorem crash?_of_ne {script : Script} (h : script ≠ .crash) (kind : EventKind) :
    script.crash? kind = none := by
  cases script with
  | crash => exact absurd rfl h
  | _ => rfl

end Script

structure Scripted where
  script : Script
  phase : Phase
  counters : Counters
  kinds : List EventKind
  payloads : List (List UInt8)
  requests : List Request
  /-- How often its counters were looked at. -/
  reads : UInt32
  /-- Blocks that lent a buffer. -/
  blocks : UInt32
  deriving DecidableEq, Repr, Inhabited

namespace Scripted

def fresh (script : Script) (phase : Phase) : Scripted :=
  ⟨script, phase, .zero, [], [], [], 0, 0⟩

def phaseAfter : EventKind → Phase → Phase
  | .start, _ => .active
  | .stop, _ => .stopped
  | _, phase => phase

/-- Take down that an event came. -/
def noting (kind : EventKind) (e : Scripted) : Scripted :=
  { e with kinds := e.kinds ++ [kind], phase := phaseAfter kind e.phase }

/-- Take down an event that lends a buffer, and count its packet. -/
def receiving (kind : EventKind) (e : Scripted) : Scripted :=
  { noting kind e with counters := e.counters.countReceived }

/-- The most octets that can be laid out in one piece. -/
def addressLimit : Nat := UInt64.size / 2 - 1

/-- The most octets into which something of the pool can be read. Its buffers are in
memory already, so there is always as much as one of them has. -/
def readingLimit (pool : Pool) : Nat := max addressLimit pool.size

/-- The crash that an event brings about. A buffer is read into as many octets as the
event says, and they are laid out after the event was taken down and counted. -/
def crash? (pool : Pool) (event : Event) (e : Scripted) : Option (Crashed Scripted) :=
  match e.script.crash? event.kind with
  | some crash => some ⟨crash, e⟩
  | none =>
    if event.lends && readingLimit pool < event.length then
      some ⟨.unaddressable, receiving event.kind e⟩
    else none

/-- Only a script that says so crashes, and only a length that is too much. -/
theorem crash?_eq_none {pool : Pool} {event : Event} {e : Scripted} (calm : e.script ≠ .crash)
    (short : event.lends = true → event.length ≤ readingLimit pool) :
    crash? pool event e = none := by
  simp only [crash?, Script.crash?_of_ne calm]
  exact if_neg (by simpa using short)

/-- Read a lent buffer into `length` octets, keep what was read and count. -/
def keep (pool : Pool) (h : Handle) (length : Nat) (e : Scripted) : Scripted :=
  match pool.copy h (List.replicate length 0) with
  | (.ok n, octets) =>
    { e with payloads := e.payloads ++ [octets.take n], counters := e.counters.countProcessed }
  | (.error _, _) => { e with counters := e.counters.countDropped }

def accept (pool : Pool) (event : Event) (e : Scripted) : Accepted Scripted :=
  let e := noting event.kind e
  match event.buffer with
  | none => ⟨e, [], []⟩
  | some h =>
    let e := keep pool h event.length e
    if event.kind = .fileBlock then
      let e := { e with blocks := e.blocks + 1 }
      if e.script.completesWith e.blocks then ⟨e, [.processed (some h), .activate], []⟩
      else ⟨e, [.processed (some h)], []⟩
    else ⟨e, [.processed (some h)], []⟩

/-- Keep a request and grant it. -/
def ask (request : Request) (e : Scripted) : Except Fault Unit × Scripted :=
  let e := { e with requests := e.requests ++ [request] }
  match request with
  | .shutdown _ => (.ok (), { e with phase := .shuttingDown })
  | _ => (.ok (), e)

def engine : Engine Scripted where
  ask := ask
  notes _ := []
  phase := phase
  setPhase phase e := { e with phase }
  counters := counters
  countersRead e := { e with reads := e.reads + 1 }
  crash? := crash?
  accept := accept
  leaves _ e := e.phase == .shuttingDown || e.phase == .stopped

end Scripted

end UpdateBridge
