import UpdateBridge.Event
import UpdateBridge.Mailbox
import UpdateBridge.Settings
import UpdateBridge.Text.Duration
import UpdateBridge.Text.Utf8

/-!
# The journal

What the parts of the bridge have to say is data: a `Note` tells what happened,
and `Note.level` and `Note.text` say how urgently and in which words it is
written down. Steps that can say something return their notes in the order in
which they were made; where time passes, each note carries its moment.
-/

namespace UpdateBridge

inductive Level where
  | error
  | warning
  | info
  | debug
  | trace
  deriving DecidableEq, Repr, Inhabited

def Level.text : Level → String
  | .error => "ERROR"
  | .warning => "WARN"
  | .info => "INFO"
  | .debug => "DEBUG"
  | .trace => "TRACE"

/-- Something worth writing down: about the pool and the messages that arrive,
the engine's callbacks, the broker, the shared client, the engine's task and
its watcher, a run of the bridge, readings, and last what the participants of
a rehearsal say. -/
inductive Note where
  | releaseFailed (h : Handle) (fault : Fault)
  | messageIgnored (topic : String)
  | messageUnclassified (fault : Fault)
  | messageDispatched (kind : EventKind) (length : Nat) (h : Handle) (topic : String)
  | messageDropped (kind : EventKind) (topic : String) (fault : Fault)
  | queueFull (kind : EventKind)
  | inboundEnded
  | intakeStopRequested
  | intakeFinished (dispatched ignored dropped : UInt32)
  | activateReceived
  | imageActivated
  | activationFailed (fault : Fault)
  | failReceived
  | startTestReceived
  | imageAccepted
  | acceptanceFailed (fault : Fault)
  | processedBuffer (h : Handle)
  | processedNothing
  | selfTestFailed
  | subscriberMissed (filter topic : String) (fault : PostFault)
  | delivered (topic : String) (count : Nat)
  | brokerSubscription (filter : String)
  | lockTimedOut (timeout : Nat)
  | published (topic : String)
  | publishFailed (topic : String) (cause : LinkFault)
  | subscribed (filter : String)
  | subscribeFailed (filter : String) (cause : LinkFault)
  | unsubscribed (filter : String)
  | unsubscribeFailed (filter : String) (cause : LinkFault)
  | taskStarted
  | taskFinished
  | engineStarting
  | engineStopping
  | engineEndedEarly
  | engineSuspended
  | engineCounters (counters : Counters)
  | engineStopped (counters : Counters)
  | bridgeRunning (thing : String) (firmware : Version)
  | subscriptionLeft (topic : String) (fault : Fault)
  | taskCrashed (crash : Crash)
  | readingDropped (topic : String) (fault : Fault)
  | readingsEnded (count : Nat)
  | jobDocument (octets : List UInt8)
  | fileBlock (number total : UInt32) (length : Nat)
  | bufferUnreadable (h : Handle) (fault : Fault)
  | imageActivating
  | shutdownRequested (unsubscribe : Bool)
  | imageJudged (verdict : ImageVerdict)
  | readingHeard (topic : String) (octets : List UInt8)
  | configuration (buffers size queueDepth : Nat)
  | updateFinished (counters : Counters)
  | cloudFailed (message : String)
  | readingsPublished (count : Nat)
  deriving DecidableEq, Repr

namespace Note

def level : Note → Level
  | releaseFailed .. | messageDropped .. | activationFailed .. | acceptanceFailed ..
  | selfTestFailed | lockTimedOut .. | publishFailed .. | subscribeFailed ..
  | unsubscribeFailed .. | engineEndedEarly | subscriptionLeft .. | taskCrashed ..
  | cloudFailed .. => .error
  | messageUnclassified .. | queueFull .. | subscriberMissed .. | readingDropped ..
  | bufferUnreadable .. => .warning
  | messageDispatched .. | inboundEnded | intakeStopRequested | processedBuffer ..
  | processedNothing | brokerSubscription .. | engineSuspended | readingsEnded .. => .debug
  | messageIgnored .. | delivered .. => .trace
  | _ => .info

def text : Note → String
  | releaseFailed h fault => s!"Failed to release {h.text}: {fault.message}"
  | messageIgnored topic => s!"Ignoring message on '{topic}'"
  | messageUnclassified fault => s!"Cannot classify inbound message: {fault.message}"
  | messageDispatched kind length h topic =>
    s!"Dispatched {kind.text} ({length} bytes, {h.text}) from '{topic}'"
  | messageDropped kind topic fault =>
    s!"Dropping {kind.text} message from '{topic}': {fault.message}"
  | queueFull kind => s!"Engine event queue full, {kind.text} event not submitted"
  | inboundEnded => "Inbound channel closed"
  | intakeStopRequested => "Ingest shutdown requested"
  | intakeFinished dispatched ignored dropped =>
    s!"Ingest finished: {dispatched.toNat} dispatched, {ignored.toNat} ignored, " ++
      s!"{dropped.toNat} dropped"
  | activateReceived => "Received activate callback from the update engine"
  | imageActivated => "New image activated"
  | activationFailed fault => s!"New image activation failed: {fault.message}"
  | failReceived => "Received fail callback from the update engine"
  | startTestReceived => "Received start-test callback from the update engine"
  | imageAccepted => "Successfully updated with the new image"
  | acceptanceFailed fault => s!"Failed to set image state as accepted: {fault.message}"
  | processedBuffer h => s!"Received processed callback for {h.text}"
  | processedNothing => "Received processed callback without a buffer"
  | selfTestFailed => "Self-test of new image failed, shutting down the update engine"
  | subscriberMissed filter topic fault =>
    s!"Subscriber of '{filter}' missed '{topic}': {fault.message}"
  | delivered topic count => s!"Delivered '{topic}' to {count} subscriptions"
  | brokerSubscription filter => s!"Loopback subscription to '{filter}'"
  | lockTimedOut timeout =>
    s!"Could not take the client lock within {Text.duration timeout}"
  | published topic => s!"Published to topic '{topic}'"
  | publishFailed topic cause => s!"Failed to publish to topic '{topic}': {cause.message}"
  | subscribed filter => s!"Subscribed to topic filter '{filter}'"
  | subscribeFailed filter cause =>
    s!"Failed to subscribe to topic filter '{filter}': {cause.message}"
  | unsubscribed filter => s!"Unsubscribed from topic filter '{filter}'"
  | unsubscribeFailed filter cause =>
    s!"Failed to unsubscribe from topic filter '{filter}': {cause.message}"
  | taskStarted => "Update engine task started"
  | taskFinished => "Update engine task finished"
  | engineStarting => "Starting the update engine"
  | engineStopping => "Stopping the update engine"
  | engineEndedEarly => "Update engine task ended without reaching the stopped state"
  | engineSuspended => "Update engine suspended"
  | engineCounters counters => counters.text
  | engineStopped counters => s!"Update engine stopped. {counters.text}"
  | bridgeRunning thing firmware =>
    s!"Update bridge for '{thing}' running firmware {firmware.text}"
  | subscriptionLeft topic fault =>
    s!"Leaving subscription to '{topic}' in place: {fault.message}"
  | taskCrashed crash => s!"Update engine task failed: {crash.message}"
  | readingDropped topic fault => s!"Dropping reading for '{topic}': {fault.message}"
  | readingsEnded count => s!"Readings channel closed after {count} publishes"
  | jobDocument octets => s!"Job document: {Text.ofOctets octets}"
  | fileBlock number total length =>
    s!"File block {number.toNat}/{total.toNat} ({length} bytes)"
  | bufferUnreadable h fault => s!"Could not read {h.text}: {fault.message}"
  | imageActivating => "Activating the downloaded image"
  | shutdownRequested unsubscribe => s!"Engine shutdown requested (unsubscribe: {unsubscribe})"
  | imageJudged verdict => s!"Image state set to {verdict.text}"
  | readingHeard topic octets => s!"Telemetry on '{topic}': {Text.ofOctets octets}"
  | configuration buffers size queueDepth =>
    s!"Configuration: {buffers} buffers of {size} bytes, engine queue depth {queueDepth}"
  | updateFinished counters => s!"Update finished. {counters.text}"
  | cloudFailed message => s!"Cloud side failed: {message}"
  | readingsPublished count => s!"Published {count} telemetry readings"

end Note

/-- What is noted about giving a buffer back: only that it failed. -/
def Note.ofRelease (h : Handle) : Except Fault Unit → List Note
  | .ok () => []
  | .error fault => [.releaseFailed h fault]

/-- Notes with the milliseconds at which they were made. -/
abbrev Journal := List (Nat × Note)

/-- Notes all made at one moment. -/
def Journal.stamped (now : Nat) (notes : List Note) : Journal :=
  notes.map (now, ·)

end UpdateBridge
