import UpdateBridge.Pool.Basic

/-!
# Events and what the engine says about itself

The bridge hands `Event`s to the update engine and the engine answers with
`Callback`s. An event with a buffer lends that buffer to the engine until the
engine reports it processed. `Phase` and `Counters` are what the engine shows
of itself to those who watch it, and `Request` is what it can be asked to do.
-/

namespace UpdateBridge

/-- What an event means to the engine. -/
inductive EventKind where
  /-- A job document arrived. -/
  | jobDocument
  /-- A block of the streamed file arrived. -/
  | fileBlock
  /-- Begin to process jobs. -/
  | start
  /-- Stop processing jobs. -/
  | stop
  /-- Not for the engine. -/
  | ignored
  deriving DecidableEq, Repr, Inhabited

def EventKind.text : EventKind → String
  | .jobDocument => "job document received"
  | .fileBlock => "file block received"
  | .start => "start"
  | .stop => "stop"
  | .ignored => "ignored"

/-- What is handed to the engine. -/
structure Event where
  kind : EventKind
  buffer : Option Handle
  length : Nat
  deriving DecidableEq, Repr, Inhabited

namespace Event

/-- The event that begins processing. -/
def start : Event := ⟨.start, none, 0⟩

/-- The event that ends processing. -/
def stop : Event := ⟨.stop, none, 0⟩

def lending (kind : EventKind) (h : Handle) (length : Nat) : Event :=
  ⟨kind, some h, length⟩

def lends (event : Event) : Bool :=
  event.buffer.isSome

end Event

/-- What the engine reports while it works. -/
inductive Callback where
  /-- The new image is complete and ready to boot. -/
  | activate
  /-- The job failed; the engine recovers by itself. -/
  | fail
  /-- A freshly booted image runs for the first time. -/
  | startTest
  /-- The engine is done with an event and the buffer it lent. -/
  | processed (buffer : Option Handle)
  /-- The new image failed its own test. -/
  | selfTestFailed
  deriving DecidableEq, Repr, Inhabited

/-- The verdict on the running image. -/
inductive ImageVerdict where
  | testing
  | accepted
  | rejected
  | aborted
  deriving DecidableEq, Repr, Inhabited

def ImageVerdict.text : ImageVerdict → String
  | .testing => "Testing"
  | .accepted => "Accepted"
  | .rejected => "Rejected"
  | .aborted => "Aborted"

inductive Request where
  /-- Boot into the new image. -/
  | activate
  /-- Wind down, and drop the job subscriptions or keep them. -/
  | shutdown (unsubscribe : Bool)
  /-- Record a verdict on the running image. -/
  | judge (verdict : ImageVerdict)
  deriving DecidableEq, Repr, Inhabited

/-- Where the engine stands. -/
inductive Phase where
  | init
  | ready
  | active
  | suspended
  | shuttingDown
  | stopped
  deriving DecidableEq, Repr, Inhabited

/-- How many packets met which fate; each count wraps at 2^32. -/
structure Counters where
  received : UInt32
  queued : UInt32
  processed : UInt32
  dropped : UInt32
  deriving DecidableEq, Repr, Inhabited

namespace Counters

def zero : Counters := ⟨0, 0, 0, 0⟩

def text (c : Counters) : String :=
  s!"Received: {c.received.toNat}   Queued: {c.queued.toNat}   " ++
    s!"Processed: {c.processed.toNat}   Dropped: {c.dropped.toNat}"

def countReceived (c : Counters) : Counters :=
  { c with received := c.received + 1 }

/-- One more packet arrived and could be read. -/
def countProcessed (c : Counters) : Counters :=
  { c with received := c.received + 1, processed := c.processed + 1 }

/-- One more packet arrived and could not be read. -/
def countDropped (c : Counters) : Counters :=
  { c with received := c.received + 1, dropped := c.dropped + 1 }

end Counters

end UpdateBridge
