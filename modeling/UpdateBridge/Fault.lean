/-!
# Faults

Every operation of the bridge that can fail says why with a `Fault`; the
client under it fails with a `LinkFault`. The wording is fixed in `message`
and nowhere else, so the cause can be compared without comparing text.

A `Crash` is not a fault: it ends the task that meets it, and no caller
receives it as a result.
-/

namespace UpdateBridge

/-- Why the client could not carry out an operation. -/
inductive LinkFault where
  /-- There is no live session with the broker. -/
  | offline
  /-- The broker or the client refused the operation. -/
  | refused
  /-- Reading from or writing to the link failed. -/
  | io
  deriving DecidableEq, Repr, Inhabited

def LinkFault.message : LinkFault → String
  | .offline => "Client is not connected"
  | .refused => "Operation rejected by the client"
  | .io => "I/O error occurred"

/-- Why an operation of the bridge failed. Sizes and lengths count octets. -/
inductive Fault where
  /-- Malformed input, such as an empty topic. -/
  | invalidArgument (reason : String)
  /-- Every buffer of a pool of that capacity is taken. -/
  | exhausted (capacity : Nat)
  /-- More octets than the place for them holds. -/
  | tooLarge (limit actual : Nat)
  /-- The handle was released since it was issued, or was never issued. -/
  | staleHandle (slot : Nat)
  /-- The buffer was not held under the handle that releases it. -/
  | doubleRelease (slot : Nat)
  /-- The shared client was not free in time. -/
  | lockTimeout (milliseconds : Nat)
  /-- The client failed. -/
  | link (cause : LinkFault)
  /-- The engine's event queue holds as many events as it may. -/
  | queueFull
  /-- Nobody takes events from the engine's queue any more. -/
  | queueClosed
  /-- The engine refused a request. -/
  | engineRejected (operation : String)
  deriving DecidableEq, Repr, Inhabited

def Fault.message : Fault → String
  | .invalidArgument reason => s!"Invalid argument: {reason}"
  | .exhausted capacity => s!"No event buffers available (capacity: {capacity})"
  | .tooLarge limit actual => s!"Payload too large: max {limit} bytes, actual {actual} bytes"
  | .staleHandle slot => s!"Stale handle for event buffer {slot}"
  | .doubleRelease slot => s!"Event buffer {slot} released while already free"
  | .lockTimeout milliseconds => s!"Could not take client lock within {milliseconds} ms"
  | .link cause => s!"Transport failure: {cause.message}"
  | .queueFull => "Engine event queue is full"
  | .queueClosed => "Engine event queue is closed"
  | .engineRejected operation => s!"Update engine rejected {operation}"

/-- What ends a task on the spot. -/
inductive Crash where
  /-- A mailbox was asked for that could never hold anything. -/
  | emptyMailbox
  /-- A mailbox was asked for with more places than can be counted. -/
  | hugeMailbox
  /-- Something was to be repeated every zero milliseconds. -/
  | zeroPeriod
  /-- The engine gave up while starting. -/
  | engineStart
  /-- More octets were to be laid out in one piece than memory has addresses for. -/
  | unaddressable
  /-- Records were looked at whose keeper had crashed while writing to them. -/
  | poisoned
  deriving DecidableEq, Repr, Inhabited

def Crash.message : Crash → String
  | .emptyMailbox => "mpsc bounded channel requires buffer > 0"
  | .hugeMailbox =>
    "a semaphore may not have more than MAX_PERMITS permits (2305843009213693951)"
  | .zeroPeriod => "`period` must be non-zero."
  | .engineStart => "engine task failed on start"
  | .unaddressable => "capacity overflow"
  | .poisoned => "called `Result::unwrap()` on an `Err` value: PoisonError \x7b .. \x7d"

end UpdateBridge
