import UpdateBridge.Journal
import UpdateBridge.Route

/-!
# Dispatching one message

A message on a routed topic is copied into a buffer and handed to the engine
as an event that lends the buffer. Whatever the engine's side does not accept
leaves no buffer taken: a payload too large for any buffer takes none, and a
refused event gives its buffer back, since the engine never learnt of it.

The engine's side is a `Sink`: it accepts an event or refuses it with a fault,
and what it notes depends on the event and the answer alone.
-/

namespace UpdateBridge

/-- Where events go, with a state of its own. -/
structure Sink (σ : Type) where
  offer : σ → Event → Except Fault Unit × σ
  notes : Event → Except Fault Unit → List Note

def Sink.queue : Sink (Mailbox Event) where
  offer queue event :=
    match queue.post event with
    | (.ok (), queue) => (.ok (), queue)
    | (.error .full, queue) => (.error .queueFull, queue)
    | (.error .closed, queue) => (.error .queueClosed, queue)
  notes event answer :=
    match answer with
    | .error .queueFull => [.queueFull event.kind]
    | _ => []

/-- A sink that keeps what it accepts and refuses with a fault that is set. -/
structure Recording where
  events : List Event
  refusal : Option Fault
  deriving DecidableEq, Repr, Inhabited

def Sink.recording : Sink Recording where
  offer recording event :=
    match recording.refusal with
    | none => (.ok (), { recording with events := recording.events ++ [event] })
    | some fault => (.error fault, recording)
  notes _ _ := []

inductive Outcome where
  /-- Handed to the engine in this buffer. -/
  | dispatched (kind : EventKind) (h : Handle) (length : Nat)
  /-- Not for the engine. -/
  | ignored
  /-- For the engine, but not handed to it. -/
  | dropped (fault : Fault)
  deriving DecidableEq, Repr, Inhabited

namespace Intake

variable {σ : Type}

structure Dispatched (σ : Type) where
  outcome : Outcome
  pool : Pool
  sink : σ
  notes : List Note

/-- Copy the payload into a buffer and offer the sink an event that lends it. A
buffer that could not be written or that the sink refused is given back. -/
def handOver (sink : Sink σ) (kind : EventKind) (payload : List UInt8) (pool : Pool) (s : σ) :
    Dispatched σ :=
  if payload.length > pool.size then
    ⟨.dropped (.tooLarge pool.size payload.length), pool, s, []⟩
  else match pool.acquire with
    | (.error fault, pool) => ⟨.dropped fault, pool, s, []⟩
    | (.ok h, pool) =>
      match pool.write h payload with
      | (.error fault, pool) => ⟨.dropped fault, (pool.release h).2, s, []⟩
      | (.ok length, pool) =>
        let event := Event.lending kind h length
        match sink.offer s event with
        | (.ok (), s) => ⟨.dispatched kind h length, pool, s, sink.notes event (.ok ())⟩
        | (.error fault, s) =>
          ⟨.dropped fault, (pool.release h).2, s, sink.notes event (.error fault)⟩

/-- What is noted about a routed message once its outcome is known. -/
def outcomeNotes (kind : EventKind) (topic : String) : Outcome → List Note
  | .dispatched kind h length => [.messageDispatched kind length h topic]
  | .ignored => []
  | .dropped fault => [.messageDropped kind topic fault]

def dispatch (sink : Sink σ) (routes : List Route) (topic : String) (payload : List UInt8)
    (pool : Pool) (s : σ) : Dispatched σ :=
  match Route.kindOf topic routes with
  | .error fault => ⟨.dropped fault, pool, s, [.messageUnclassified fault]⟩
  | .ok .ignored => ⟨.ignored, pool, s, [.messageIgnored topic]⟩
  | .ok kind =>
    let handed := handOver sink kind payload pool s
    { handed with notes := handed.notes ++ outcomeNotes kind topic handed.outcome }

end Intake

end UpdateBridge
