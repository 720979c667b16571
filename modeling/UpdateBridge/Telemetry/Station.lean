import UpdateBridge.Client.Shared
import UpdateBridge.Pause
import UpdateBridge.Topic.Naming

/-!
# Publishing readings

A publisher takes readings from a mailbox and publishes them through the
shared client, on the topic of its device and each at most once. It begins its
first round one interval after its own beginning and then one after every
interval, which is cut as a pause is. In a round it takes readings until the
mailbox is empty, with a pause after each attempt, successful or not. A round that outlasts the
interval delays the next ones, which then follow without waiting until they
have caught up. The publisher is done when it finds the mailbox empty for
good, and reports how many readings were published.

A station is a publisher with its mailbox and the client, which others may use
as well. `act?` is what the publisher can do at the present moment, and
`advanceTo` lets time pass with everything that is due in it.
-/

namespace UpdateBridge

def Telemetry.topicLimit : Nat := 128

inductive PublisherStage where
  /-- It waits for the next round. -/
  | waiting
  /-- Its call of that number is under way. -/
  | publishing (number : Nat)
  /-- It pauses after an attempt. -/
  | pausing (till : Nat)
  | over (moment : Nat)
  | crashed (crash : Crash)
  deriving DecidableEq, Repr, Inhabited

/-- A publisher of readings. Times are in milliseconds. -/
structure Publisher where
  topic : String
  began : Nat
  interval : Nat
  /-- The pause asked for after each attempt. -/
  spacing : Nat
  /-- Rounds begun. -/
  rounds : Nat
  /-- The numbers of its calls to the client, in order. -/
  attempts : List Nat
  /-- Readings published. -/
  published : Nat
  stage : PublisherStage
  deriving DecidableEq, Repr, Inhabited

namespace Publisher

/-- A publisher for the device that begins at this moment. An interval of zero
cannot be waited for. -/
def create (client : String) (interval spacing now : Nat) : Except Fault Publisher := do
  let topic ← Topic.readingsOf Telemetry.topicLimit client
  return ⟨topic, now, interval, spacing, 0, [], 0,
    if interval = 0 then .crashed .zeroPeriod else .waiting⟩

def nextRound (p : Publisher) : Nat :=
  p.began + p.interval + p.rounds * Pause.length p.interval

def due? (p : Publisher) : Option Nat :=
  match p.stage with
  | .waiting => some p.nextRound
  | .pausing till => some till
  | _ => none

end Publisher

structure Station where
  client : SharedClient
  readings : Mailbox (List UInt8)
  publisher : Publisher

namespace Station

def now (s : Station) : Nat := s.client.now

/-- The station with its publisher in another stage. -/
def enter (s : Station) (stage : PublisherStage) : Station :=
  { s with publisher := { s.publisher with stage } }

/-- Look for a reading. One that waits is handed to the client at once; if
there is none the publisher waits for the next round, or is done. -/
def check (s : Station) : Station :=
  match s.readings.take with
  | (.item reading, readings) =>
    let (number, client) := s.client.issue (.publish ⟨s.publisher.topic, reading⟩ .atMostOnce)
    { s with
      client, readings
      publisher := { s.publisher with attempts := s.publisher.attempts ++ [number] }
      }.enter (.publishing number)
  | (.empty, _) => s.enter .waiting
  | (.ended, _) =>
    { s with
      client := s.client.noting [.readingsEnded s.publisher.published]
      readings := s.readings.close }.enter (.over s.now)

/-- Take note of how the publisher's call ended, and pause. -/
def afterCall (s : Station) (e : Ending) : Station :=
  let s := s.enter (.pausing (s.now + Pause.length s.publisher.spacing))
  match e.result with
  | .ok () => { s with publisher := { s.publisher with published := s.publisher.published + 1 } }
  | .error fault => { s with client := s.client.noting [.readingDropped s.publisher.topic fault] }

/-- What the publisher can do now, if anything. -/
def act? (s : Station) : Option Station :=
  match s.publisher.stage with
  | .waiting =>
    if s.publisher.nextRound ≤ s.now then
      some { s with publisher := { s.publisher with rounds := s.publisher.rounds + 1 } }.check
    else none
  | .pausing till => if till ≤ s.now then some s.check else none
  | .publishing number => (s.client.ending? number).map s.afterCall
  | .over _ | .crashed _ => none

def due? (s : Station) : Option Nat :=
  match s.client.due?, s.publisher.due? with
  | some a, some b => some (min a b)
  | some a, none => some a
  | none, b => b

/-- Let everything that is due up to the moment happen, in at most `fuel`
steps: the publisher acts as long as it can, and then time goes on. -/
def advanceWith (moment : Nat) (s : Station) : Nat → Station
  | 0 => { s with client := s.client.advanceTo moment }
  | fuel + 1 =>
    match s.act? with
    | some s => s.advanceWith moment fuel
    | none =>
      match s.due? with
      | some t =>
        if t ≤ moment then { s with client := s.client.jump t }.advanceWith moment fuel
        else { s with client := s.client.advanceTo moment }
      | none => { s with client := s.client.advanceTo moment }

/-- Steps that are enough up to the moment: each begins a round, or checks
for, hands over or finishes with a reading, or ends a call, or goes on to the
moment of one of these. -/
def steps (s : Station) (moment : Nat) : Nat :=
  2 * (moment / Pause.length s.publisher.interval) + 5 * s.readings.items.length +
    2 * s.client.pending + 8

/-- Let time pass up to the moment. -/
def advanceTo (s : Station) (moment : Nat) : Station :=
  s.advanceWith moment (s.steps moment)

/-- Let the publisher do what it can do now. -/
def settle (s : Station) : Station :=
  s.advanceTo s.now

/-- Offer readings to the publisher; answers how many were accepted. -/
def offer (s : Station) (readings : List (List UInt8)) : Nat × Station :=
  let (count, mailbox) := s.readings.postAll readings
  (count, { s with readings := mailbox }.settle)

/-- No more readings will be offered. -/
def endReadings (s : Station) : Station :=
  { s with readings := s.readings.finish }.settle

/-- Somebody else makes a call to the client. -/
def callByOther (s : Station) (call : Call) : Station :=
  { s with client := (s.client.issue call).2 }.settle

/-- A station that begins now; a publisher that cannot run takes no readings. -/
def create (client : SharedClient) (readings : Mailbox (List UInt8)) (publisher : Publisher) :
    Station :=
  match publisher.stage with
  | .crashed _ => ⟨client, readings.close, publisher⟩
  | _ => ⟨client, readings, publisher⟩

end Station

namespace SharedClient

/-- The messages that reached the broker, with the time. -/
def publishedMessages (c : SharedClient) : List (Nat × Message) :=
  c.endings.filterMap fun e =>
    match e.ticket.call, e.result with
    | .publish message _, .ok () => some (e.ended, message)
    | _, _ => none

end SharedClient

end UpdateBridge
