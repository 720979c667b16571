import UpdateBridge.Rehearsal.Cloud
import UpdateBridge.Engine.Download
import UpdateBridge.Telemetry.Station
import UpdateBridge.UpdateRun

/-!
# The rehearsal

A rehearsal of one update in memory: a bridge with the download engine, a
cloud that offers a job and streams an image, a sensor that takes four
readings and a station that publishes them. All use one broker. The rehearsal
is over when the run of the bridge is, and after it the cloud, the sensor and
the station.

At every moment at which something is due the cloud goes first, then the
sensor, then the station and then the bridge. What the thing has published is
written down last.
-/

namespace UpdateBridge

/-- A sensor that offers readings at fixed times. -/
structure Sensor where
  taken : Nat
  /-- When it goes on; it is done if never. -/
  due : Option Nat
  deriving DecidableEq, Repr, Inhabited

namespace Sensor

/-- Readings that are taken in all. -/
def total : Nat := 4

/-- The pause after a reading, in milliseconds. -/
def pause : Nat := 800

/-- The n-th reading. -/
def reading (n : Nat) : String :=
  "\x7b\"temperature\":" ++ s!"{21 + n / 2}.{n * 3}" ++ "\x7d"

end Sensor

inductive RehearsalStage where
  /-- The bridge runs. -/
  | updating
  /-- The bridge is done and the cloud is waited for. -/
  | awaitingCloud
  /-- The cloud is done, and the sensor and the station are waited for. -/
  | awaitingReadings
  | over (result : Except Fault Unit)

/-- All that takes part in the rehearsal. The broker of the station's client
is the broker of all. -/
structure Rehearsal where
  run : UpdateRun Download
  station : Station
  sensor : Sensor
  cloud : Cloud
  stage : RehearsalStage
  journal : Journal

namespace Rehearsal

def buffers : Nat := 4

def bufferSize : Nat := 1024

def settings : Settings :=
  { Settings.default with thing := "core2" }

def now (r : Rehearsal) : Nat := r.station.now

/-- Collect the journals of the bridge and the station and add notes. -/
def noting (r : Rehearsal) (notes : List Note) : Rehearsal :=
  { r with
    journal :=
      r.journal ++ Journal.stamped r.now notes ++ r.station.client.journal ++ r.run.journal
    run := { r.run with journal := [] }
    station := { r.station with client := { r.station.client with journal := [] } } }

/-- The rehearsal with another state of the broker. -/
def withBroker (r : Rehearsal) (broker : Broker) : Rehearsal :=
  { r with station := { r.station with client := { r.station.client with broker } } }

/-- Let the bridge do something at the present moment with the broker of all. -/
def onRun (r : Rehearsal) (f : UpdateRun Download → UpdateRun Download) : Rehearsal :=
  let run := f { r.run with now := r.now, broker := r.station.client.broker }
  ({ r with run }.withBroker run.broker).noting []

def cloudActs (r : Rehearsal) : Rehearsal :=
  let (cloud, broker, notes) := r.cloud.act r.now r.station.client.broker
  ({ r with cloud }.withBroker broker).noting notes

/-- The sensor goes on: it offers a reading, or no more of them. -/
def sensorActs (r : Rehearsal) : Rehearsal :=
  match r.sensor.due with
  | none => r
  | some due =>
    if due ≤ r.now then
      if r.sensor.taken < Sensor.total then
        let octets := Text.octets (Sensor.reading r.sensor.taken)
        let (_, readings) := r.station.readings.post octets
        { r with
          station := { r.station with readings }
          sensor := ⟨r.sensor.taken + 1, some (r.now + Sensor.pause)⟩ }
      else
        { r with
          station := { r.station with readings := r.station.readings.finish }
          sensor := { r.sensor with due := none } }
    else r

/-- Write down what the thing has published. -/
def listen (r : Rehearsal) : Rehearsal :=
  let (broker, notes) := r.cloud.listen r.station.client.broker
  (r.withBroker broker).noting notes

/-- Note what was waited for and is over now. -/
def conclude (r : Rehearsal) : Rehearsal :=
  let r := match r.stage, r.run.stage with
    | .updating, .over _ (.ok counters) =>
      { r with stage := .awaitingCloud }.noting [.updateFinished counters]
    | .updating, .over _ (.error fault) => { r with stage := .over (.error fault) }
    | _, _ => r
  let r := match r.stage, r.cloud.stage with
    | .awaitingCloud, .over _ (.ok ()) => { r with stage := .awaitingReadings }
    | .awaitingCloud, .over _ (.error fault) =>
      { r with stage := .awaitingReadings }.noting [.cloudFailed fault.message]
    | _, _ => r
  match r.stage, r.sensor.due, r.station.publisher.stage with
  | .awaitingReadings, none, .over _ =>
    { r with stage := .over (.ok ()) }.noting [.readingsPublished r.station.publisher.published]
  | _, _, _ => r

def atMoment (moment : Nat) (r : Rehearsal) : Rehearsal :=
  let r := { r with station := { r.station with client := r.station.client.advanceTo moment } }
  let r := r.cloudActs.sensorActs
  let r := { r with station := r.station.settle }
  ((r.onRun (·.onTime Download.engine)).listen).conclude

def due? (r : Rehearsal) : Option Nat :=
  [r.cloud.due?, r.sensor.due, r.station.due?, r.run.due?].reduceOption.min?

/-- Go from moment to moment, at most `fuel` times, until the rehearsal is
over. -/
def playWith (r : Rehearsal) : Nat → Rehearsal
  | 0 => r
  | fuel + 1 =>
    match r.stage, r.due? with
    | .over _, _ | _, none => r
    | _, some moment => (r.atMoment moment).playWith fuel

def create : Except Fault Rehearsal := do
  let publisher ←
    Publisher.create settings.thing settings.publishInterval settings.publishSpacing 0
  let (inbound, broker) := Broker.fresh.addMailbox (.empty settings.inboundCapacity)
  let (cloud, broker, notes) := Cloud.begin settings.thing 0 broker
  let client := SharedClient.fresh settings.lockTimeout [] broker
  let engine := Download.fresh (UInt32.ofNat Cloud.blocks)
  let r : Rehearsal := {
    run := .idle settings (Pool.create buffers bufferSize) engine broker inbound
    cloud
    station := Station.create client (.empty 8) publisher
    sensor := ⟨0, some 0⟩
    stage := .updating
    journal := [] }
  return r.noting (.configuration buffers bufferSize settings.queueDepth :: notes)

/-- The moments that the rehearsal is given; it is over after fewer. -/
def moments : Nat := 100

/-- The whole rehearsal. -/
def play : Except Fault Rehearsal := do
  let r ← create
  let r := r.onRun (·.begin Download.engine [])
  return (r.atMoment 0).playWith moments

end Rehearsal

end UpdateBridge
