import UpdateBridge.Fault
import UpdateBridge.Text.Bounded

/-!
# The topics that things and devices use

Update topics lie under `$aws/things/<thing>/`, one level for the thing, so a
thing's name must hold no separator and no wildcard. Device topics start with
the client identifier as it is. Each builder has a limit on the octets of its
result and reports the size that would have been needed.

The filters of the update protocol leave the thing open: `+` stands in the
place of its name.
-/

namespace UpdateBridge.Topic

/-- What stands before the name of a thing in its update topics. -/
def thingsRoot : String := "$aws/things/"

/-- What all update topics begin with, whatever the thing. -/
def updateRoot : String := "$aws/things/+/"

/-- Notices of the next job. -/
def notifyFilter : String := "$aws/things/+/jobs/notify-next"

/-- Answers to a request for the next job. -/
def acceptedFilter : String := "$aws/things/+/jobs/$next/get/accepted"

/-- Blocks of the file that is streamed. -/
def streamFilter : String := "$aws/things/+/streams/#"

/-- Everything else about jobs. -/
def jobsFilter : String := "$aws/things/+/jobs/#"

/-- Characters that a thing's name must not hold. -/
def isReserved (c : Char) : Bool :=
  c == '/' || c == '+' || c == '#'

theorem isReserved_eq_false_iff {c : Char} :
    isReserved c = false ↔ c ≠ '/' ∧ c ≠ '+' ∧ c ≠ '#' := by
  simp [isReserved, and_assoc]

/-- The parts joined, if they fit into `limit` octets together. -/
def build (limit : Nat) (parts : List String) : Except Fault String :=
  match Text.appendAll? limit "" parts with
  | some topic => .ok topic
  | none => .error (.tooLarge limit (Text.totalSize parts))

/-- The topic `$aws/things/<thing>/<suffix>` in at most `limit` octets. -/
def ofThing (limit : Nat) (thing suffix : String) : Except Fault String :=
  if thing.isEmpty then .error (.invalidArgument "thing name is empty")
  else if thing.toList.any isReserved then
    .error (.invalidArgument "thing name contains a separator or wildcard")
  else build limit [thingsRoot, thing, "/", suffix]

/-- The client identifier followed by the suffix, in at most `limit` octets. -/
def ofClient (limit : Nat) (client suffix : String) : Except Fault String :=
  if client.isEmpty then .error (.invalidArgument "client identifier is empty")
  else build limit [client, suffix]

/-- The topic a device publishes its readings on: `<client>/`. -/
def readingsOf (limit : Nat) (client : String) : Except Fault String :=
  ofClient limit client "/"

/-- The filter for everything sent to a device: `<client>/#`. -/
def commandsOf (limit : Nat) (client : String) : Except Fault String :=
  ofClient limit client "/#"

end UpdateBridge.Topic
