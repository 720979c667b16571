/-!
# Messages

What clients publish, and how surely it is to be delivered.
-/

namespace UpdateBridge

structure Message where
  topic : String
  payload : List UInt8
  deriving DecidableEq, Repr, Inhabited

/-- How surely a message is to be delivered. -/
inductive Delivery where
  | atMostOnce
  | atLeastOnce
  | exactlyOnce
  deriving DecidableEq, Repr, Ord, Inhabited

/-- The level that is used where none is asked for. -/
def Delivery.default : Delivery := .atMostOnce

def Delivery.level : Delivery → Nat
  | .atMostOnce => 0
  | .atLeastOnce => 1
  | .exactlyOnce => 2

end UpdateBridge
