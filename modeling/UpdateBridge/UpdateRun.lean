import UpdateBridge.Intake.Line
import UpdateBridge.Supervision.Watch
import UpdateBridge.Turn
import UpdateBridge.UpdateTopics

/-!
# A run of the bridge

A bridge for one thing owns a pool and an inbound mailbox. Its run subscribes
the mailbox to the thing's update topics, sets up the engine's queue, the
engine's task and the intake line, submits the start event and watches the
engine. When the watcher has seen the engine's end the line is stopped, and
the run is over as soon as the engine's task is; its result is what the
watcher read last.

All of it shares one thread. The engine's task comes first when the run
begins; after that the line and the engine take turns. In a turn the line
empties the inbound mailbox, but takes no more than `turn` messages, and the
engine then does all it can. So the engine sees no event before the line has
got to the end of its mailbox or of its turn. The watcher's first look comes
before either has run. Time passes only when nothing else can happen.

A run that cannot subscribe is over with that fault. A queue that there cannot
be and an interval of zero crash the run; in the second case the line and the
task, which are there already, are left to end by themselves.

The engine's events come from the line, which says of each how long its payload
is. So none of them is longer than a buffer, and the engine is never poisoned.
-/

namespace UpdateBridge

section

local instance decEqResult : DecidableEq (Except Fault Counters)
  | .ok a, .ok b => decidable_of_iff (a = b) ⟨congrArg _, Except.ok.inj⟩
  | .error a, .error b => decidable_of_iff (a = b) ⟨congrArg _, Except.error.inj⟩
  | .ok _, .error _ | .error _, .ok _ => .isFalse nofun

inductive RunStage where
  /-- It has not begun. -/
  | idle
  | watching (watch : Watch)
  /-- The watcher is done and the engine's task is not. -/
  | closing (counters : Counters)
  | over (moment : Nat) (result : Except Fault Counters)
  | crashed (moment : Nat) (crash : Crash)
  deriving DecidableEq

end

/-- A bridge, its run and the broker that it uses. -/
structure UpdateRun (ε : Type) where
  settings : Settings
  /-- How many messages the line takes in one turn at most. -/
  turn : Nat
  now : Nat
  broker : Broker
  inbound : MailboxId
  pool : Pool
  queue : Mailbox Event
  engine : ε
  task : TaskState
  line : LineState
  lineStopping : Bool
  tally : Tally
  stage : RunStage
  journal : Journal

namespace UpdateRun

variable {ε : Type}

/-- A bridge that does not run yet, with an inbound mailbox at the broker. -/
def idle (settings : Settings) (pool : Pool) (engine : ε) (broker : Broker)
    (inbound : MailboxId) : UpdateRun ε where
  settings := settings
  turn := Turn.limit
  now := 0
  broker := broker
  inbound := inbound
  pool := pool
  queue := .empty settings.queueDepth
  engine := engine
  task := .absent
  line := .idle
  lineStopping := false
  tally := .zero
  stage := .idle
  journal := []

/-- A bridge that does not run yet, with a new inbound mailbox at the broker. -/
def create (settings : Settings) (pool : Pool) (engine : ε) (broker : Broker) :
    Except Crash (UpdateRun ε) := do
  let mailbox ← Mailbox.create settings.inboundCapacity
  let (inbound, broker) := broker.addMailbox mailbox
  return idle settings pool engine broker inbound

def noting (r : UpdateRun ε) (notes : List Note) : UpdateRun ε :=
  { r with journal := r.journal ++ Journal.stamped r.now notes }

def engineTask (r : UpdateRun ε) : Engine.Task ε :=
  ⟨r.task, r.pool, r.queue, r.engine⟩

def advanceTask (E : Engine ε) (r : UpdateRun ε) : UpdateRun ε :=
  let (task, notes) := Engine.Task.advance E r.settings.unsubscribeOnShutdown r.engineTask
  { r with
    task := task.state, pool := task.pool, queue := task.queue, engine := task.engine
    }.noting notes

def intakeLine (r : UpdateRun ε) (inbound : Mailbox Message) : Line :=
  ⟨r.line, r.lineStopping, r.tally, r.pool, r.queue, inbound⟩

def onLine (work : Line → Line × List Note) (r : UpdateRun ε) : UpdateRun ε :=
  match r.broker.mailbox? r.inbound with
  | none => r
  | some mailbox =>
    let (line, notes) := work (r.intakeLine mailbox)
    { r with
      line := line.state, tally := line.tally, pool := line.pool, queue := line.events
      broker := r.broker.setMailbox r.inbound line.inbound
      }.noting notes

def advanceLine (r : UpdateRun ε) : UpdateRun ε :=
  r.onLine Line.settle

/-- How often the line comes to the end of its turn before it comes to the end
of its mailbox; a turn of no messages is one without a limit. -/
def fullTurns (r : UpdateRun ε) : Nat :=
  match r.line, r.broker.mailbox? r.inbound with
  | .running, some mailbox => mailbox.items.length / r.turn
  | _, _ => 0

/-- After a crash nobody but the line can post events, and after its end
nobody at all. -/
def abandonQueue (r : UpdateRun ε) : UpdateRun ε :=
  match r.stage, r.line with
  | .crashed .., .ended => { r with queue := r.queue.finish }
  | _, _ => r

/-- The run is over once its watcher is done and the engine's task is. -/
def conclude (r : UpdateRun ε) : UpdateRun ε :=
  match r.stage, r.task with
  | .closing counters, .finished => { r with stage := .over r.now (.ok counters) }
  | .closing counters, .crashed crash =>
    { r with stage := .over r.now (.ok counters) }.noting [.taskCrashed crash]
  | _, _ => r

/-- After so many full turns of the line, each followed by the engine, let
everything else happen that can happen now. -/
def settleWith (E : Engine ε) (r : UpdateRun ε) : Nat → UpdateRun ε
  | 0 => (r.advanceLine.abandonQueue.advanceTask E).conclude
  | turns + 1 => ((r.onLine (Line.takeMessages r.turn)).advanceTask E).settleWith E turns

@[simp] theorem settleWith_zero (E : Engine ε) (r : UpdateRun ε) :
    r.settleWith E 0 = (r.advanceLine.abandonQueue.advanceTask E).conclude := rfl

/-- Let everything happen that can happen now. -/
def settle (E : Engine ε) (r : UpdateRun ε) : UpdateRun ε :=
  r.settleWith E r.fullTurns

/-- The watcher looks, and stops the line if that was its last look. -/
def look (E : Engine ε) (w : Watch) (r : UpdateRun ε) : UpdateRun ε :=
  let looked := E.look r.task.isOver r.engine
  let r := { r with engine := looked.engine }.noting looked.notes
  if looked.sight.isLast then { r with stage := .closing looked.counters, lineStopping := true }
  else { r with stage := .watching w.looked }

/-- The run is over before anything was set up, and its inbound mailbox has no
taker any more. -/
def abort (r : UpdateRun ε) (stage : RunStage) : UpdateRun ε :=
  { r with stage, broker := r.broker.closeMailbox r.inbound }

/-- Set up queue, task and line, and submit the start event. -/
def setUp (r : UpdateRun ε) (queue : Mailbox Event) : UpdateRun ε :=
  let (_, queue) := Sink.queue.offer queue .start
  { r with queue, task := .created, line := .running }.noting [.engineStarting]

def beginWatch (E : Engine ε) (r : UpdateRun ε) : UpdateRun ε :=
  match Watch.begin r.now r.settings.watchInterval with
  | .ok w => r.look E w
  | .error crash => { r with stage := .crashed r.now crash, lineStopping := true }

/-- Begin the run; its subscribing calls meet these conditions. They take no time
here: a call that finds the client taken gives up only when the caller's patience is
over, but the run is put down as over at the moment at which it began. -/
def begin (E : Engine ε) (conditions : List Condition) (r : UpdateRun ε) : UpdateRun ε :=
  let r := r.noting [.bridgeRunning r.settings.thing r.settings.firmware]
  let subscribed :=
    UpdateTopics.subscribe r.settings.thing r.settings.lockTimeout r.inbound conditions r.broker
  let r := { r with broker := subscribed.broker }.noting subscribed.notes
  match subscribed.result with
  | .error fault => r.abort (.over r.now (.error fault))
  | .ok () =>
    match Mailbox.create r.settings.queueDepth with
    | .error crash => r.abort (.crashed r.now crash)
    | .ok queue => (((r.setUp queue).beginWatch E).advanceTask E).settle E

def due? (r : UpdateRun ε) : Option Nat :=
  match r.stage with
  | .watching w => some w.next
  | _ => none

/-- Let happen what is due at the present moment. -/
def onTime (E : Engine ε) (r : UpdateRun ε) : UpdateRun ε :=
  match r.stage with
  | .watching w => if w.next ≤ r.now then (r.look E w).settle E else r.settle E
  | _ => r.settle E

/-- Go from look to look, at most `fuel` times, and then to the moment. -/
def advanceWith (E : Engine ε) (moment : Nat) (r : UpdateRun ε) : Nat → UpdateRun ε
  | 0 => { r with now := moment }
  | fuel + 1 =>
    match r.due? with
    | some t =>
      if t ≤ moment then ({ r with now := t }.onTime E).advanceWith E moment fuel
      else { r with now := moment }
    | none => { r with now := moment }

/-- Let time pass. Looks are at least a millisecond apart. -/
def advance (E : Engine ε) (milliseconds : Nat) (r : UpdateRun ε) : UpdateRun ε :=
  r.advanceWith E (r.now + milliseconds) milliseconds

/-- Deliver messages one after another, and then let everything happen that
can; answers how many subscriptions took each. -/
def deliverAll (E : Engine ε) (r : UpdateRun ε) (messages : List Message) :
    List Nat × UpdateRun ε :=
  let step (acc : List Nat × UpdateRun ε) (m : Message) : List Nat × UpdateRun ε :=
    let d := acc.2.broker.deliver m
    (acc.1 ++ [d.count],
      { acc.2 with broker := d.broker }.noting (Broker.deliveryNotes m.topic d))
  let (counts, r) := messages.foldl step ([], r)
  (counts, r.settle E)

/-- Post messages into the inbound mailbox directly, and then let everything
happen that can; answers how many were accepted. -/
def postAll (E : Engine ε) (r : UpdateRun ε) (messages : List Message) : Nat × UpdateRun ε :=
  match r.broker.mailbox? r.inbound with
  | none => (0, r)
  | some mailbox =>
    let (count, mailbox) := mailbox.postAll messages
    (count, { r with broker := r.broker.setMailbox r.inbound mailbox }.settle E)

/-- Make a call to the client on behalf of somebody else. -/
def call (E : Engine ε) (r : UpdateRun ε) (call : Call) : Except Fault Unit × UpdateRun ε :=
  let performed := call.attempt r.settings.lockTimeout .clear r.broker
  (performed.result,
    ({ r with broker := performed.broker }.noting performed.notes).settle E)

def subscribe (r : UpdateRun ε) : Except Fault Unit × UpdateRun ε :=
  let performed :=
    UpdateTopics.subscribe r.settings.thing r.settings.lockTimeout r.inbound [] r.broker
  (performed.result, { r with broker := performed.broker }.noting performed.notes)

def unsubscribe (r : UpdateRun ε) : Except Fault Unit × UpdateRun ε :=
  let performed := UpdateTopics.unsubscribe r.settings.thing r.settings.lockTimeout [] r.broker
  (performed.result, { r with broker := performed.broker }.noting performed.notes)

end UpdateRun

end UpdateBridge
