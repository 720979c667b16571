import Mathlib.Algebra.BigOperators.Group.List.Basic
import Mathlib.Algebra.GroupWithZero.Nat
import UpdateBridge.Proofs.Broker.Delivery

/-!
# Deliveries in any order

A table has no order of its own: subscriptions that share a mailbox compete for
its places, and which of them finds the mailbox full depends on who comes
first. What a delivery does to the mailboxes does not. Each of them gets as many
copies as it has subscriptions that take the message, as far as it has room, and
the copies in all mailboxes together are those that are counted
(`count_deliverTo`).
-/

namespace UpdateBridge

namespace Broker

variable {b : Broker} {message : Message} {order table : List Subscription}

theorem posts_perm (id : MailboxId) (topic : String) (same : order.Perm table) :
    posts id topic order = posts id topic table :=
  same.countP_eq _

/-- Nothing takes a message without a topic. -/
theorem posts_empty (id : MailboxId) (table : List Subscription) : posts id "" table = 0 := by
  rw [posts, List.countP_eq_zero]
  intro s _
  exact Bool.false_ne_true

/-- The messages that wait in all mailboxes together. -/
def backlog (b : Broker) : Nat :=
  (b.mailboxes.map fun box => box.items.length).sum

/-- Replacing one item by one that weighs one more adds one to the weight of all. -/
theorem sum_map_set {α : Type} (weight : α → Nat) {items : List α} {i : Nat} {old new : α}
    (found : items[i]? = some old) (heavier : weight new = weight old + 1) :
    ((items.set i new).map weight).sum = (items.map weight).sum + 1 := by
  induction items generalizing i with
  | nil => cases found
  | cons item items ih =>
      cases i with
      | zero =>
          obtain rfl := Option.some.inj found
          simp only [List.set_cons_zero, List.map_cons, List.sum_cons, heavier]
          omega
      | succ i =>
          simp only [List.set_cons_succ, List.map_cons, List.sum_cons, ih found]
          omega

/-- A message that is posted waits, and one that is not changes nothing. -/
theorem post_cases (b : Broker) (id : MailboxId) (message : Message) :
    (∃ b', b.post id message = (.ok (), b') ∧ b'.backlog = b.backlog + 1) ∨
      ∃ fault, b.post id message = (.error fault, b) := by
  rw [post]
  split
  · exact .inr ⟨.closed, rfl⟩
  · next box found =>
      obtain ⟨-, posted⟩ | ⟨-, fault, refused⟩ := box.post_cases message
      · have longer : (box.items ++ [message]).length = box.items.length + 1 := List.length_append
        refine .inl ⟨_, by rw [posted], ?_⟩
        exact sum_map_set (fun box : Mailbox Message => box.items.length) found longer
      · exact .inr ⟨fault, by rw [refused]; simp only [setMailbox_self found]⟩

/-- A subscription that takes the message posts it and is counted, or it changes
nothing. -/
theorem count_deliverTo_cons (message : Message) (b : Broker) (s : Subscription)
    (others : List Subscription) :
    ∃ b' counted, b'.backlog = b.backlog + counted ∧
      (deliverTo message b (s :: others)).count = (deliverTo message b' others).count + counted ∧
      (deliverTo message b (s :: others)).broker = (deliverTo message b' others).broker := by
  rw [deliverTo]
  split
  · obtain ⟨b', posted, longer⟩ | ⟨fault, refused⟩ := b.post_cases s.mailbox message
    · exact ⟨b', 1, longer, by rw [posted], by rw [posted]⟩
    · exact ⟨b, 0, rfl, by rw [refused]; rfl, by rw [refused]⟩
  · exact ⟨b, 0, rfl, rfl, rfl⟩

/-- What is counted is what is added to the mailboxes. -/
theorem backlog_deliverTo (message : Message) (b : Broker) (subscriptions : List Subscription) :
    (deliverTo message b subscriptions).broker.backlog =
      b.backlog + (deliverTo message b subscriptions).count := by
  induction subscriptions generalizing b with
  | nil => rfl
  | cons s others ih =>
      obtain ⟨b', counted, longer, count, broker⟩ := count_deliverTo_cons message b s others
      rw [broker, ih, longer, count]
      omega

/-- The mailboxes with their copies of the message. -/
def supplied (copies : MailboxId → Mailbox Message → Nat) (message : Message)
    (boxes : List (Mailbox Message)) : List (Mailbox Message) :=
  boxes.mapIdx fun id box =>
    { box with items := box.items ++ List.replicate (copies id box) message }

/-- How many copies of a message on this topic the mailbox gets. -/
def copies (topic : String) (table : List Subscription) (id : MailboxId) (box : Mailbox Message) :
    Nat :=
  min (posts id topic table) box.room

theorem postAll_replicate (box : Mailbox Message) (count : Nat) (message : Message) :
    (box.postAll (List.replicate count message)).2 =
      { box with items := box.items ++ List.replicate (min count box.room) message } := by
  rw [Mailbox.postAll_eq, List.take_replicate, Nat.min_comm box.room]

theorem mailboxes_deliverTo (message : Message) (b : Broker) (subscriptions : List Subscription) :
    (deliverTo message b subscriptions).broker.mailboxes =
      supplied (copies message.topic subscriptions) message b.mailboxes := by
  apply List.ext_getElem?
  intro id
  have box := mailbox?_deliverTo message b subscriptions id
  simp only [mailbox?, postAll_replicate] at box
  rw [box, supplied, List.getElem?_mapIdx]
  rfl

theorem backlog_supplied (copies : MailboxId → Mailbox Message → Nat) (message : Message)
    (boxes : List (Mailbox Message)) :
    ((supplied copies message boxes).map fun box => box.items.length).sum =
      (boxes.map fun box => box.items.length).sum + (boxes.mapIdx copies).sum := by
  have before : boxes.map (fun box => box.items.length) =
      boxes.zipIdx.map fun entry => entry.1.items.length := by
    conv_lhs => rw [← List.zipIdx_map_fst 0 boxes, List.map_map]
    rfl
  have after : (supplied copies message boxes).map (fun box => box.items.length) =
      boxes.zipIdx.map fun entry => entry.1.items.length + copies entry.2 entry.1 := by
    simp [supplied, List.mapIdx_eq_zipIdx_map]
  rw [after, before, List.sum_map_add, List.mapIdx_eq_zipIdx_map]

/-- What is counted is the number of copies in all mailboxes. -/
theorem count_deliverTo (message : Message) (b : Broker) (subscriptions : List Subscription) :
    (deliverTo message b subscriptions).count =
      (b.mailboxes.mapIdx (copies message.topic subscriptions)).sum := by
  have added := backlog_deliverTo message b subscriptions
  rw [backlog, mailboxes_deliverTo, backlog_supplied] at added
  exact (Nat.add_left_cancel added).symm

theorem online_post (b : Broker) (id : MailboxId) (message : Message) :
    (b.post id message).2.online = b.online := by
  unfold post
  split <;> rfl

theorem online_deliverTo (message : Message) (b : Broker) (subscriptions : List Subscription) :
    (deliverTo message b subscriptions).broker.online = b.online := by
  induction subscriptions generalizing b with
  | nil => rfl
  | cons s others ih =>
      rw [deliverTo_cons, ih]
      split
      · exact online_post b s.mailbox message
      · rfl

/-- A delivery changes the mailboxes only, by the copies that they get. -/
theorem broker_deliverTo (message : Message) (b : Broker) (subscriptions : List Subscription) :
    (deliverTo message b subscriptions).broker =
      { b with
        mailboxes := supplied (copies message.topic subscriptions) message b.mailboxes } := by
  rw [← mailboxes_deliverTo, ← online_deliverTo message b subscriptions]
  conv_rhs => rw [← table_deliverTo message b subscriptions]

theorem copies_perm (topic : String) (same : order.Perm table) :
    copies topic order = copies topic table := by
  funext id box
  rw [copies, copies, posts_perm id topic same]

/-- Whatever the order in which the table is gone through, a delivery leaves the
table as it is and adds to every mailbox as many copies of the message as the
mailbox has subscriptions that take it and has room for, behind what waits there.
The broker is the same for all orders, and so is the count, which is that of all
copies. -/
theorem deliver_in_any_order (b : Broker) (message : Message) (order : List Subscription)
    (same : order.Perm b.table) :
    let delivered := { b with table := order }.deliver message
    let copies (id : MailboxId) (box : Mailbox Message) :=
      min (posts id message.topic b.table) box.room
    delivered.broker = { (b.deliver message).broker with table := order } ∧
      delivered.broker.table = order ∧
      (∀ id, delivered.broker.mailbox? id = (b.mailbox? id).map fun box =>
        { box with items := box.items ++ List.replicate (copies id box) message }) ∧
      delivered.count = (b.mailboxes.mapIdx copies).sum ∧
      (message.topic = "" → delivered.count = 0) := by
  intro delivered shares
  have any : copies message.topic order = shares := copies_perm message.topic same
  have broker : delivered.broker =
      { b with table := order, mailboxes := supplied shares message b.mailboxes } := by
    rw [← any]
    exact broker_deliverTo message { b with table := order } order
  have count : delivered.count = (b.mailboxes.mapIdx shares).sum := by
    rw [← any]
    exact count_deliverTo message { b with table := order } order
  refine ⟨?_, ?_, ?_, count, ?_⟩
  · rw [broker, deliver, broker_deliverTo]
    rfl
  · rw [broker]
  · intro id
    rw [broker, mailbox?, supplied, List.getElem?_mapIdx]
    rfl
  · intro unnamed
    have none : shares = fun _ _ => 0 := by
      funext id box
      show min (posts id message.topic b.table) box.room = 0
      rw [unnamed, posts_empty, Nat.zero_min]
    rw [count, none, List.mapIdx_eq_zipIdx_map]
    simp

/-- Two subscriptions share a mailbox with one place left, one delivers to a
mailbox that is closed, and one does not take the message. -/
theorem deliver_in_reverse_order :
    let m : Message := ⟨"a/b", [7]⟩
    let old : Message := ⟨"a", [1]⟩
    let b : Broker :=
      ⟨true, [⟨"a/#", 0⟩, ⟨"a/+", 0⟩, ⟨"#", 1⟩, ⟨"+/b", 2⟩, ⟨"a", 2⟩],
        [⟨2, [old], false, false⟩, ⟨3, [], true, false⟩, ⟨4, [], false, false⟩]⟩
    let delivered := { b with table := b.table.reverse }.deliver m
    b.table.reverse.Perm b.table ∧ delivered.count = 2 ∧
      delivered.broker.mailbox? 0 = some ⟨2, [old, m], false, false⟩ ∧
      delivered.broker.mailbox? 1 = some ⟨3, [], true, false⟩ ∧
      delivered.broker.mailbox? 2 = some ⟨4, [m], false, false⟩ := by
  intro m old b delivered
  have same : b.table.reverse.Perm b.table := List.reverse_perm _
  obtain ⟨-, -, boxes, count, -⟩ := deliver_in_any_order b m b.table.reverse same
  exact ⟨same, count.trans (by decide +kernel), (boxes 0).trans (by decide +kernel),
    (boxes 1).trans (by decide +kernel), (boxes 2).trans (by decide +kernel)⟩

end Broker

end UpdateBridge
