import UpdateBridge.Journal
import UpdateBridge.Message
import UpdateBridge.Topic.Matching

/-!
# The broker in memory

A broker keeps a table of subscriptions, at most one for each filter, and the
mailboxes that they deliver to. Several subscriptions may share a mailbox. A
message goes once to every subscription whose filter matches its topic; a
mailbox that is full or closed misses it.

Clients publish, subscribe and unsubscribe only while the broker is online. A
client may publish neither on the empty topic nor on one that holds a
wildcard, and subscribe to anything but the empty filter. What is handed to
`deliver` directly is not checked at all.
-/

namespace UpdateBridge

/-- What names a mailbox of a broker. -/
abbrev MailboxId := Nat

structure Subscription where
  filter : String
  mailbox : MailboxId
  deriving DecidableEq, Repr, Inhabited

/-- Whether a message on this topic goes to the subscription. -/
def Subscription.takes (s : Subscription) (topic : String) : Bool :=
  match Topic.matchesFilter topic s.filter with
  | .ok answer => answer
  | .error _ => false

/-- A broker and the mailboxes its subscriptions deliver to. -/
structure Broker where
  online : Bool
  table : List Subscription
  mailboxes : List (Mailbox Message)
  deriving DecidableEq, Repr, Inhabited

namespace Broker

/-- An online broker without mailboxes. -/
def fresh : Broker := ⟨true, [], []⟩

def addMailbox (b : Broker) (m : Mailbox Message) : MailboxId × Broker :=
  (b.mailboxes.length, { b with mailboxes := b.mailboxes ++ [m] })

def mailbox? (b : Broker) (id : MailboxId) : Option (Mailbox Message) :=
  b.mailboxes[id]?

def setMailbox (b : Broker) (id : MailboxId) (m : Mailbox Message) : Broker :=
  { b with mailboxes := b.mailboxes.set id m }

/-- The taker of a mailbox goes. -/
def closeMailbox (b : Broker) (id : MailboxId) : Broker :=
  { b with mailboxes := b.mailboxes.modify id Mailbox.close }

def post (b : Broker) (id : MailboxId) (message : Message) : Except PostFault Unit × Broker :=
  match b.mailbox? id with
  | none => (.error .closed, b)
  | some m => let (answer, m) := m.post message; (answer, b.setMailbox id m)

/-- Take everything that waits in a mailbox. -/
def collect (b : Broker) (id : MailboxId) : List Message × Broker :=
  match b.mailbox? id with
  | none => ([], b)
  | some m => (m.items, b.setMailbox id m.drained)

def isSubscribed (b : Broker) (filter : String) : Bool :=
  b.table.any (·.filter == filter)

/-- What delivering leaves behind: the number of subscriptions that took the
message, the broker, and what is noted about those that missed it. -/
structure Delivered where
  count : Nat
  broker : Broker
  missed : List Note

/-- Deliver a message to those of the subscriptions that take it, in the order
of the list. -/
def deliverTo (message : Message) (b : Broker) : List Subscription → Delivered
  | [] => ⟨0, b, []⟩
  | s :: others =>
    if s.takes message.topic then
      match b.post s.mailbox message with
      | (.ok (), b) =>
        let rest := deliverTo message b others
        { rest with count := rest.count + 1 }
      | (.error fault, b) =>
        let rest := deliverTo message b others
        { rest with missed := .subscriberMissed s.filter message.topic fault :: rest.missed }
    else deliverTo message b others

/-- Deliver a message to every subscription whose filter matches its topic. -/
def deliver (b : Broker) (message : Message) : Delivered :=
  deliverTo message b b.table

def deliveryNotes (topic : String) (d : Delivered) : List Note :=
  d.missed ++ [.delivered topic d.count]

/-- A table in which the filter delivers to the mailbox. -/
def subscribedTo (filter : String) (id : MailboxId) : List Subscription → List Subscription
  | [] => [⟨filter, id⟩]
  | s :: others =>
    if s.filter = filter then ⟨filter, id⟩ :: others else s :: subscribedTo filter id others

/-- A table without the filter. -/
def unsubscribedFrom (filter : String) (table : List Subscription) : List Subscription :=
  table.filter (·.filter != filter)

def holdsWildcard (topic : String) : Bool :=
  topic.toList.any fun c => c == '+' || c == '#'

def publish (b : Broker) (message : Message) : Except LinkFault Unit × Broker × List Note :=
  if !b.online then (.error .offline, b, [])
  else if message.topic.isEmpty || holdsWildcard message.topic then (.error .refused, b, [])
  else
    let d := b.deliver message
    (.ok (), d.broker, deliveryNotes message.topic d)

/-- A client subscribes; a filter that is subscribed already delivers to the
new mailbox from then on. -/
def subscribe (b : Broker) (filter : String) (id : MailboxId) :
    Except LinkFault Unit × Broker × List Note :=
  if !b.online then (.error .offline, b, [])
  else if filter.isEmpty then (.error .refused, b, [])
  else (.ok (), { b with table := subscribedTo filter id b.table }, [.brokerSubscription filter])

/-- A client unsubscribes, which is fine for a filter that is not subscribed. -/
def unsubscribe (b : Broker) (filter : String) : Except LinkFault Unit × Broker :=
  if !b.online then (.error .offline, b)
  else (.ok (), { b with table := unsubscribedFrom filter b.table })

@[simp] theorem deliverTo_nil (message : Message) (b : Broker) :
    deliverTo message b [] = ⟨0, b, []⟩ := rfl

end Broker

end UpdateBridge
