/-!
# Settings

How a bridge is set up: the thing it serves, its time limits in milliseconds
and the sizes of its mailboxes. `Settings.default` is used for whatever is not
set.
-/

namespace UpdateBridge

structure Version where
  major : UInt8
  minor : UInt8
  build : UInt16
  deriving DecidableEq, Repr, Ord, Inhabited

def Version.text (v : Version) : String :=
  s!"{v.major.toNat}.{v.minor.toNat}.{v.build.toNat}"

/-- How a bridge is set up. Times are in milliseconds. -/
structure Settings where
  /-- The name the device is registered under. -/
  thing : String
  /-- Between two looks at the engine. -/
  watchInterval : Nat
  /-- The longest wait for the shared client. -/
  lockTimeout : Nat
  /-- Places in the engine's event queue. -/
  queueDepth : Nat
  /-- Places in the mailbox for arriving messages. -/
  inboundCapacity : Nat
  /-- Between two rounds of publishing readings. -/
  publishInterval : Nat
  /-- The pause after each published reading. -/
  publishSpacing : Nat
  /-- Whether the engine is to drop its job subscriptions when it shuts down. -/
  unsubscribeOnShutdown : Bool
  /-- The version of the running firmware. -/
  firmware : Version
  deriving DecidableEq, Repr, Inhabited

def Settings.default : Settings where
  thing := "otabridge"
  watchInterval := 1000
  lockTimeout := 100
  queueDepth := 8
  inboundCapacity := 16
  publishInterval := 3000
  publishSpacing := 50
  unsubscribeOnShutdown := true
  firmware := ⟨1, 1, 1⟩

/-- A time in whole seconds and the nanoseconds left over. -/
structure Span where
  seconds : Nat
  nanoseconds : Nat
  deriving DecidableEq, Repr

def Span.ofMilliseconds (n : Nat) : Span :=
  ⟨n / 1000, n % 1000 * 1000000⟩

end UpdateBridge
