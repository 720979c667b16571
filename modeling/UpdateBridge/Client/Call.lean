import UpdateBridge.Broker

/-!
# Calls to the client

A call asks the client for one operation on the broker. `Call.perform` does
it, or fails as the link makes it fail; the notes about it are those of the
broker followed by one of the bridge's own.
-/

namespace UpdateBridge

inductive Call where
  | publish (message : Message) (delivery : Delivery)
  | subscribe (filter : String) (delivery : Delivery) (mailbox : MailboxId)
  | unsubscribe (filter : String)
  deriving DecidableEq, Repr, Inhabited

namespace Call

def onBroker (b : Broker) : Call → Except LinkFault Unit × Broker × List Note
  | publish message _ => b.publish message
  | subscribe filter _ mailbox => b.subscribe filter mailbox
  | unsubscribe filter => let (answer, b) := b.unsubscribe filter; (answer, b, [])

/-- What the link answers to the call: its own failure, or else what the broker
says. -/
def answer (failure : Option LinkFault) (b : Broker) (call : Call) : Except LinkFault Unit :=
  match failure with
  | some cause => .error cause
  | none => (call.onBroker b).1

def doneNote : Call → Note
  | publish message _ => .published message.topic
  | subscribe filter _ _ => .subscribed filter
  | unsubscribe filter => .unsubscribed filter

def failedNote (cause : LinkFault) : Call → Note
  | publish message _ => .publishFailed message.topic cause
  | subscribe filter _ _ => .subscribeFailed filter cause
  | unsubscribe filter => .unsubscribeFailed filter cause

structure Performed where
  result : Except Fault Unit
  broker : Broker
  notes : List Note

/-- Carry out the call, or fail before the broker is reached. -/
def perform (failure : Option LinkFault) (b : Broker) (call : Call) : Performed :=
  match failure with
  | some cause => ⟨.error (.link cause), b, [call.failedNote cause]⟩
  | none =>
    match call.onBroker b with
    | (.ok (), b, notes) => ⟨.ok (), b, notes ++ [call.doneNote]⟩
    | (.error cause, b, notes) => ⟨.error (.link cause), b, notes ++ [call.failedNote cause]⟩

/-- The caller is told what the link answered. -/
theorem result_perform (failure : Option LinkFault) (b : Broker) (call : Call) :
    (call.perform failure b).result = (call.answer failure b).mapError .link := by
  cases failure with
  | some cause => rfl
  | none =>
      simp only [perform, answer]
      split
      · next done => rw [done]; rfl
      · next refused => rw [refused]; rfl

end Call

/-- What one call meets on its way to the broker. -/
inductive Condition where
  /-- The client is free and the link works. -/
  | clear
  /-- The client does not become free in time. -/
  | contended
  /-- The client is free and the link fails. -/
  | failing (cause : LinkFault)
  deriving DecidableEq, Repr, Inhabited

/-- What a call that meets this condition leaves behind. -/
def Call.attempt (lockTimeout : Nat) (condition : Condition) (b : Broker) (call : Call) :
    Call.Performed :=
  match condition with
  | .clear => call.perform none b
  | .contended => ⟨.error (.lockTimeout lockTimeout), b, [.lockTimedOut lockTimeout]⟩
  | .failing cause => call.perform (some cause) b

end UpdateBridge
