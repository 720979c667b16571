import UpdateBridge.Intake.Dispatch
import UpdateBridge.Message

/-!
# The intake line

The intake line takes messages from the inbound mailbox, dispatches each by
the update routes and counts what became of it. It ends when the inbound
mailbox is empty for good, or when it is told to stop; being told to stop and
losing the one who could tell it are the same to it. What waits in the inbound
mailbox when the line ends is lost.

While it runs the line makes one of two steps at a time: `takeMessage?` and
`takeStop?`. Where both are possible either may come first; `settle` takes
messages as long as there are any. `takeMessages` is a turn that ends before
the line has got to the end of its mailbox.
-/

namespace UpdateBridge

/-- What became of the messages so far; each count wraps at 2^32. -/
structure Tally where
  dispatched : UInt32
  ignored : UInt32
  dropped : UInt32
  deriving DecidableEq, Repr, Inhabited

namespace Tally

def zero : Tally := ⟨0, 0, 0⟩

def count (t : Tally) : Outcome → Tally
  | .dispatched .. => { t with dispatched := t.dispatched + 1 }
  | .ignored => { t with ignored := t.ignored + 1 }
  | .dropped _ => { t with dropped := t.dropped + 1 }

/-- The note about a line that has ended. -/
def note (t : Tally) : Note :=
  .intakeFinished t.dispatched t.ignored t.dropped

end Tally

inductive LineState where
  | idle
  | running
  | ended
  deriving DecidableEq, Repr, Inhabited

/-- The intake line with all that it works on. -/
structure Line where
  state : LineState
  /-- Whether it was told to stop. -/
  stopping : Bool
  tally : Tally
  pool : Pool
  events : Mailbox Event
  inbound : Mailbox Message
  deriving DecidableEq, Repr

namespace Line

def idle (pool : Pool) (events : Mailbox Event) (inbound : Mailbox Message) : Line :=
  ⟨.idle, false, .zero, pool, events, inbound⟩

/-- Dispatch one message and count it. -/
def handle (l : Line) (m : Message) : Line × List Note :=
  let d := Intake.dispatch Sink.queue Route.updates m.topic m.payload l.pool l.events
  ({ l with pool := d.pool, events := d.sink, tally := l.tally.count d.outcome }, d.notes)

def handleAll (l : Line) : List Message → Line × List Note
  | [] => (l, [])
  | m :: ms =>
    let (l, notes) := l.handle m
    let (l, others) := l.handleAll ms
    (l, notes ++ others)

/-- End the line for a reason. -/
def finish (l : Line) (reason : Note) : Line × List Note :=
  ({ l with state := .ended, inbound := l.inbound.close }, [reason, l.tally.note])

/-- Take one message, or learn that none will come any more. -/
def takeMessage? (l : Line) : Option (Line × List Note) :=
  if l.state = .running then
    match l.inbound.take with
    | (.item m, inbound) => some ({ l with inbound }.handle m)
    | (.ended, _) => some (l.finish .inboundEnded)
    | (.empty, _) => none
  else none

/-- Obey being told to stop. -/
def takeStop? (l : Line) : Option (Line × List Note) :=
  if l.state = .running ∧ l.stopping then some (l.finish .intakeStopRequested) else none

def takeMessages (count : Nat) (l : Line) : Line × List Note :=
  if l.state = .running then
    { l with inbound := l.inbound.drop count }.handleAll (l.inbound.items.take count)
  else (l, [])

/-- Run until nothing can be done: every waiting message first, then the end
if there is a reason for it. -/
def settle (l : Line) : Line × List Note :=
  if l.state = .running then
    let (l, notes) := { l with inbound := l.inbound.drained }.handleAll l.inbound.items
    if l.inbound.ended then
      let (l, more) := l.finish .inboundEnded
      (l, notes ++ more)
    else if l.stopping then
      let (l, more) := l.finish .intakeStopRequested
      (l, notes ++ more)
    else (l, notes)
  else (l, [])

@[simp] theorem handleAll_nil (l : Line) : l.handleAll [] = (l, []) := rfl

@[simp] theorem handleAll_cons (l : Line) (m : Message) (ms : List Message) :
    l.handleAll (m :: ms) =
      (((l.handle m).1.handleAll ms).1, (l.handle m).2 ++ ((l.handle m).1.handleAll ms).2) := rfl

end Line

end UpdateBridge
