import UpdateBridge.Broker
import UpdateBridge.Topic.Naming

/-!
# The cloud of the rehearsal

The cloud listens to everything a thing publishes, offers it a job half a
second later and then streams an image in blocks, one every 700 milliseconds.
It uses a client of its own, so nothing is waited for; the first operation
that fails ends it.
-/

namespace UpdateBridge

inductive CloudStage where
  /-- It publishes its next message at that moment. -/
  | sending (due : Nat)
  | over (moment : Nat) (result : Except Fault Unit)

structure Cloud where
  /-- The mailbox for what the thing publishes, once it is subscribed. -/
  ears : Option MailboxId
  /-- The messages to come, each after a pause. -/
  remaining : List (Nat × Message)
  /-- The messages sent, with the time. -/
  sent : List (Nat × Message)
  stage : CloudStage

namespace Cloud

/-- The octets that the filter for a thing's messages may have. -/
def filterLimit : Nat := 64

/-- Places in the mailbox for what the thing publishes. -/
def earsCapacity : Nat := 8

def blocks : Nat := 4

def blockSize : Nat := 512

def job : String :=
  "\x7b\"execution\":\x7b\"jobId\":\"fw-1.2.0\"\x7d\x7d"

/-- Everything that is sent to the thing, each message after its pause. -/
def programme (thing : String) : List (Nat × Message) :=
  (500, ⟨s!"$aws/things/{thing}/jobs/notify-next", Text.octets job⟩) ::
    (List.range blocks).map fun i =>
      (700, ⟨s!"$aws/things/{thing}/streams/fw-1.2.0/data",
        List.replicate blockSize (UInt8.ofNat i)⟩)

/-- The cloud before its next message, or done if there is none. -/
def next (c : Cloud) (now : Nat) : Cloud :=
  match c.remaining with
  | [] => { c with stage := .over now (.ok ()) }
  | (pause, _) :: _ => { c with stage := .sending (now + pause) }

/-- Subscribe to what the thing publishes and begin. -/
def begin (thing : String) (now : Nat) (b : Broker) : Cloud × Broker × List Note :=
  let failed (fault : Fault) : Cloud := ⟨none, [], [], .over now (.error fault)⟩
  match Topic.commandsOf filterLimit thing with
  | .error fault => (failed fault, b, [])
  | .ok filter =>
    let (ears, b) := b.addMailbox (.empty earsCapacity)
    match b.subscribe filter ears with
    | (.error cause, b, notes) => (failed (.link cause), b, notes)
    | (.ok (), b, notes) =>
      (next ⟨some ears, programme thing, [], .sending now⟩ now, b, notes)

def due? (c : Cloud) : Option Nat :=
  match c.stage with
  | .sending due => some due
  | .over .. => none

/-- Publish the next message if it is time for it. -/
def act (now : Nat) (b : Broker) (c : Cloud) : Cloud × Broker × List Note :=
  match c.stage, c.remaining with
  | .sending due, (_, message) :: remaining =>
    if due ≤ now then
      match b.publish message with
      | (.error cause, b, notes) =>
        ({ c with stage := .over now (.error (.link cause)) }, b, notes)
      | (.ok (), b, notes) =>
        (next { c with remaining, sent := c.sent ++ [(now, message)] } now, b, notes)
    else (c, b, [])
  | _, _ => (c, b, [])

/-- Write down what the thing has published. -/
def listen (b : Broker) (c : Cloud) : Broker × List Note :=
  match c.ears with
  | none => (b, [])
  | some ears =>
    let (messages, b) := b.collect ears
    (b, messages.map fun m => .readingHeard m.topic m.payload)

end Cloud

/-- A cloud with nobody else at its broker, which goes offline at a moment or
not at all. -/
structure LoneCloud where
  cloud : Cloud
  broker : Broker
  offlineAt : Option Nat
  journal : Journal

namespace LoneCloud

/-- The broker as it is at the moment. -/
def brokerAt (moment : Nat) (offlineAt : Option Nat) (b : Broker) : Broker :=
  match offlineAt with
  | none => b
  | some t => if t ≤ moment then { b with online := false } else b

def create (thing : String) (offlineAt : Option Nat) (b : Broker) : LoneCloud :=
  let (cloud, broker, notes) := Cloud.begin thing 0 (brokerAt 0 offlineAt b)
  ⟨cloud, broker, offlineAt, Journal.stamped 0 notes⟩

/-- Go to the moment of the cloud's next message. -/
def step (l : LoneCloud) : LoneCloud :=
  match l.cloud.due? with
  | none => l
  | some moment =>
    let (cloud, broker, notes) := l.cloud.act moment (brokerAt moment l.offlineAt l.broker)
    let (broker, heard) := cloud.listen broker
    { l with cloud, broker, journal := l.journal ++ Journal.stamped moment (notes ++ heard) }

/-- Go on until the cloud has nothing more to send. -/
def finish (l : LoneCloud) : LoneCloud :=
  l.cloud.remaining.length.repeat step l

end LoneCloud

end UpdateBridge
