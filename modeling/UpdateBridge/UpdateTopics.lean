import UpdateBridge.Client.Call
import UpdateBridge.Topic.Naming

/-!
# The update topics of a thing

A bridge listens on three topics of its thing: notices of the next job,
answers to a request for it, and the blocks of the streamed file. It
subscribes to them one after another and gives up at the first that fails,
keeping those it has; it unsubscribes from all of them, whatever fails.

Each call to the client meets a condition of its own. A list of conditions is
used up from the front, and calls beyond its end are `clear`.
-/

namespace UpdateBridge.UpdateTopics

def limit : Nat := 128

/-- What follows the name of the thing in its update topics. -/
def suffixes : List String :=
  ["jobs/notify-next", "jobs/$next/get/accepted", "streams/#"]

/-- The update topics of a thing: all of them or none. -/
def of (thing : String) : Except Fault (List String) :=
  suffixes.mapM (Topic.ofThing limit thing)

/-- Subscribe to the topics in order, up to the first that fails. -/
def subscribeEach (lockTimeout : Nat) (mailbox : MailboxId) (conditions : List Condition)
    (b : Broker) : List String → Call.Performed
  | [] => ⟨.ok (), b, []⟩
  | topic :: topics =>
    let first := (Call.subscribe topic .atLeastOnce mailbox).attempt lockTimeout
      (conditions.headD .clear) b
    match first.result with
    | .error fault => ⟨.error fault, first.broker, first.notes⟩
    | .ok () =>
      let others := subscribeEach lockTimeout mailbox conditions.tail first.broker topics
      { others with notes := first.notes ++ others.notes }

def unsubscribeEach (lockTimeout : Nat) (conditions : List Condition) (b : Broker) :
    List String → Call.Performed
  | [] => ⟨.ok (), b, []⟩
  | topic :: topics =>
    let first := (Call.unsubscribe topic).attempt lockTimeout (conditions.headD .clear) b
    let left := match first.result with
      | .ok () => []
      | .error fault => [Note.subscriptionLeft topic fault]
    let others := unsubscribeEach lockTimeout conditions.tail first.broker topics
    { others with notes := first.notes ++ left ++ others.notes }

/-- Let the thing's update topics deliver to the mailbox. -/
def subscribe (thing : String) (lockTimeout : Nat) (mailbox : MailboxId)
    (conditions : List Condition) (b : Broker) : Call.Performed :=
  match of thing with
  | .error fault => ⟨.error fault, b, []⟩
  | .ok topics => subscribeEach lockTimeout mailbox conditions b topics

/-- Let the thing's update topics deliver to nobody. -/
def unsubscribe (thing : String) (lockTimeout : Nat) (conditions : List Condition)
    (b : Broker) : Call.Performed :=
  match of thing with
  | .error fault => ⟨.error fault, b, []⟩
  | .ok topics => unsubscribeEach lockTimeout conditions b topics

end UpdateBridge.UpdateTopics
