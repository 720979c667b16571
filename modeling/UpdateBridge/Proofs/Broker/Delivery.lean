import UpdateBridge.Broker

/-!
# What a delivery does to one mailbox

A message reaches a mailbox as often as the table has subscriptions that take
it and deliver there: `mailbox?_deliver` counts them and says nothing about all
other mailboxes. The order of the table is of no account, since the same
message is posted each time. Subscribing a filter to a mailbox adds one such
subscription (`perm_subscribedTo`), whichever mailbox the filter delivered to
before.
-/

namespace UpdateBridge

namespace Mailbox

variable {α : Type} {m : Mailbox α}

theorem postAll_cons (m : Mailbox α) (a : α) (items : List α) :
    (m.postAll (a :: items)).2 = ((m.post a).2.postAll items).2 := by
  rw [postAll]
  split <;> simp_all

theorem room_of_open (opened : m.closed = false) (awaited : m.ended = false) :
    m.room = m.capacity - m.items.length := by
  simp [room, opened, awaited]

theorem room_of_closed (closed : m.closed = true) : m.room = 0 := by
  simp [room, closed]

/-- A mailbox takes an item if and only if it has room for it. -/
theorem post_cases (m : Mailbox α) (a : α) :
    (0 < m.room ∧ m.post a = (.ok (), { m with items := m.items ++ [a] })) ∨
      m.room = 0 ∧ ∃ fault, m.post a = (.error fault, m) := by
  obtain closed | opened := Bool.eq_false_or_eq_true m.closed
  · exact .inr ⟨room_of_closed closed, .closed, post_of_closed closed a⟩
  · obtain ended | awaited := Bool.eq_false_or_eq_true m.ended
    · exact .inr ⟨by simp [room, ended], .closed, post_of_ended ended a⟩
    · rw [room_of_open opened awaited]
      obtain free | full := Nat.lt_or_ge m.items.length m.capacity
      · exact .inl ⟨by omega, post_of_lt opened awaited free a⟩
      · exact .inr ⟨by omega, .full, post_of_le opened awaited full a⟩

theorem room_append (m : Mailbox α) (more : List α) :
    { m with items := m.items ++ more }.room = m.room - more.length := by
  unfold room
  split
  · exact (Nat.zero_sub _).symm
  · simp only [List.length_append]
    omega

/-- A mailbox takes items as long as it has room. -/
theorem postAll_eq (m : Mailbox α) (items : List α) :
    m.postAll items =
      (min items.length m.room, { m with items := m.items ++ items.take m.room }) := by
  induction items generalizing m with
  | nil => simp [postAll]
  | cons a items ih =>
      rw [postAll]
      obtain ⟨room, posted⟩ | ⟨full, fault, refused⟩ := m.post_cases a
      · have less := m.room_append [a]
        obtain ⟨left, room⟩ := Nat.exists_eq_add_one_of_ne_zero (Nat.ne_of_gt room)
        rw [List.length_singleton, room, Nat.add_sub_cancel] at less
        simp [posted, ih, less, room, Nat.add_min_add_right]
      · simp [refused, ih, full]

theorem postAll_of_open (opened : m.closed = false) (awaited : m.ended = false) (items : List α) :
    (m.postAll items).2 =
      { m with items := m.items ++ items.take (m.capacity - m.items.length) } := by
  rw [postAll_eq, room_of_open opened awaited]

theorem postAll_append (m : Mailbox α) (first second : List α) :
    (m.postAll (first ++ second)).2 = ((m.postAll first).2.postAll second).2 := by
  induction first generalizing m with
  | nil => rfl
  | cons a first ih =>
      rw [List.cons_append, postAll_cons, postAll_cons]
      exact ih _

end Mailbox

namespace Broker

variable {b : Broker} {id : MailboxId} {filter : String} {table : List Subscription}

theorem table_post (b : Broker) (id : MailboxId) (message : Message) :
    (b.post id message).2.table = b.table := by
  unfold post
  split <;> rfl

@[simp] theorem table_setMailbox (b : Broker) (id : MailboxId) (box : Mailbox Message) :
    (b.setMailbox id box).table = b.table := rfl

theorem mailbox?_setMailbox (b : Broker) (id other : MailboxId) (box : Mailbox Message) :
    (b.setMailbox id box).mailbox? other =
      if other = id then (b.mailbox? id).map fun _ => box else b.mailbox? other := by
  unfold mailbox? setMailbox
  rw [List.getElem?_set]
  by_cases same : id = other
  · subst same
    by_cases inside : id < b.mailboxes.length
    · simp [inside]
    · simp [inside]
  · simp [same, Ne.symm same]

/-- Putting a mailbox in its own place changes nothing. -/
theorem setMailbox_self {box : Mailbox Message} (found : b.mailbox? id = some box) :
    b.setMailbox id box = b := by
  obtain ⟨inside, rfl⟩ := List.getElem?_eq_some_iff.mp found
  simp [setMailbox]

theorem mailbox?_post (b : Broker) (id other : MailboxId) (message : Message) :
    (b.post id message).2.mailbox? other =
      if other = id then (b.mailbox? id).map fun box => (box.post message).2
      else b.mailbox? other := by
  unfold post
  split
  · next missing =>
      split
      · next same => rw [same, missing, Option.map_none]
      · rfl
  · next box found => rw [mailbox?_setMailbox, found, Option.map_some, Option.map_some]

/-- How often a message on this topic is posted to the mailbox. -/
def posts (id : MailboxId) (topic : String) (table : List Subscription) : Nat :=
  table.countP fun s => s.takes topic && s.mailbox == id

theorem posts_cons (id : MailboxId) (topic : String) (s : Subscription)
    (others : List Subscription) :
    posts id topic (s :: others) =
      posts id topic others + if s.takes topic && s.mailbox == id then 1 else 0 :=
  List.countP_cons

/-- One subscription either posts the message or does nothing. -/
theorem deliverTo_cons (message : Message) (b : Broker) (s : Subscription)
    (others : List Subscription) :
    (deliverTo message b (s :: others)).broker =
      (deliverTo message (if s.takes message.topic then (b.post s.mailbox message).2 else b)
        others).broker := by
  rw [deliverTo]
  split
  · split <;> simp_all
  · rfl

theorem table_deliverTo (message : Message) (b : Broker) (subscriptions : List Subscription) :
    (deliverTo message b subscriptions).broker.table = b.table := by
  induction subscriptions generalizing b with
  | nil => rfl
  | cons s others ih =>
      rw [deliverTo_cons, ih]
      split
      · exact table_post b s.mailbox message
      · rfl

theorem mailbox?_deliverTo (message : Message) (b : Broker) (subscriptions : List Subscription)
    (id : MailboxId) :
    (deliverTo message b subscriptions).broker.mailbox? id =
      (b.mailbox? id).map fun box =>
        (box.postAll (List.replicate (posts id message.topic subscriptions) message)).2 := by
  induction subscriptions generalizing b with
  | nil => simp [posts, Mailbox.postAll]
  | cons s others ih =>
      rw [deliverTo_cons, ih, posts_cons]
      by_cases taken : s.takes message.topic = true
      · rw [if_pos taken, mailbox?_post]
        by_cases same : id = s.mailbox
        · subst same
          have counted : (s.takes message.topic && s.mailbox == s.mailbox) = true := by
            simp [taken]
          rw [if_pos rfl, if_pos counted, List.replicate_succ, Option.map_map]
          congr 1
          funext box
          exact (Mailbox.postAll_cons box message _).symm
        · have uncounted : ¬(s.takes message.topic && s.mailbox == id) = true := by
            simp [Ne.symm same]
          rw [if_neg same, if_neg uncounted, Nat.add_zero]
      · have uncounted : ¬(s.takes message.topic && s.mailbox == id) = true := by
          simp [taken]
        rw [if_neg taken, if_neg uncounted, Nat.add_zero]

@[simp] theorem table_deliver (b : Broker) (message : Message) :
    (b.deliver message).broker.table = b.table :=
  table_deliverTo message b b.table

theorem mailbox?_deliver (b : Broker) (message : Message) (id : MailboxId) :
    (b.deliver message).broker.mailbox? id =
      (b.mailbox? id).map fun box =>
        (box.postAll (List.replicate (posts id message.topic b.table) message)).2 :=
  mailbox?_deliverTo message b b.table id

def deliverAll (b : Broker) (messages : List Message) : Broker :=
  messages.foldl (fun b message => (b.deliver message).broker) b

theorem table_deliverAll (b : Broker) (messages : List Message) :
    (b.deliverAll messages).table = b.table := by
  induction messages generalizing b with
  | nil => rfl
  | cons message messages ih => exact (ih _).trans (table_deliver b message)

/-- What is posted to the mailbox when messages are delivered. -/
def posted (id : MailboxId) (table : List Subscription) (messages : List Message) : List Message :=
  messages.flatMap fun message => List.replicate (posts id message.topic table) message

theorem mailbox?_deliverAll_eq (b : Broker) (messages : List Message) (id : MailboxId) :
    (b.deliverAll messages).mailbox? id =
      (b.mailbox? id).map fun box => (box.postAll (posted id b.table messages)).2 := by
  induction messages generalizing b with
  | nil =>
      show b.mailbox? id = (b.mailbox? id).map fun box => box
      rw [Option.map_id']
  | cons message messages ih =>
      refine (ih _).trans ?_
      rw [table_deliver, mailbox?_deliver, Option.map_map]
      congr 1
      funext box
      exact (Mailbox.postAll_append box _ _).symm

/-- A mailbox that gets each message once or not at all has those posted to it
that it gets. -/
theorem mailbox?_deliverAll {taken : Message → Bool}
    (once : ∀ message : Message, posts id message.topic b.table = if taken message then 1 else 0)
    (messages : List Message) :
    (b.deliverAll messages).mailbox? id =
      (b.mailbox? id).map fun box => (box.postAll (messages.filter taken)).2 := by
  have same : posted id b.table messages = messages.filter taken := by
    induction messages with
    | nil => rfl
    | cons message messages ih =>
        rw [posted, List.flatMap_cons, List.filter_cons, once, ← ih]
        split <;> rfl
  rw [mailbox?_deliverAll_eq, same]

/-- Of what is posted to a mailbox it takes the first items. -/
theorem exists_arrived {b b' : Broker} {items : List Message}
    (posted : b'.mailbox? id = (b.mailbox? id).map fun box => (box.postAll items).2) :
    ∃ more, more.length ≤ items.length ∧
      b'.mailbox? id = (b.mailbox? id).map fun box => { box with items := box.items ++ more } := by
  rcases found : b.mailbox? id with _ | box
  · exact ⟨[], Nat.zero_le _, by rw [posted, found]; rfl⟩
  · refine ⟨items.take box.room, List.length_take_le' _ _, ?_⟩
    rw [posted, found, Option.map_some, Option.map_some, Mailbox.postAll_eq]

/-- Subscribing changes the table for one filter, or fails and changes nothing. -/
theorem subscribe_cases (b : Broker) (filter : String) (id : MailboxId) :
    (∃ cause, b.subscribe filter id = (.error cause, b, [])) ∨
      b.subscribe filter id =
        (.ok (), { b with table := subscribedTo filter id b.table },
          [.brokerSubscription filter]) := by
  unfold subscribe
  split
  · exact .inl ⟨_, rfl⟩
  · split
    · exact .inl ⟨_, rfl⟩
    · exact .inr rfl

theorem subscribe_of_online (online : b.online = true) (some : filter ≠ "") (id : MailboxId) :
    b.subscribe filter id =
      (.ok (), { b with table := subscribedTo filter id b.table },
        [.brokerSubscription filter]) := by
  simp [subscribe, online, some]

def deliveringTo (id : MailboxId) (table : List Subscription) : List Subscription :=
  table.filter fun s => s.mailbox == id

theorem posts_eq (id : MailboxId) (topic : String) (table : List Subscription) :
    posts id topic table = (deliveringTo id table).countP fun s => s.takes topic :=
  List.countP_filter.symm

/-- Subscribing a filter that does not deliver to the mailbox yet adds it to
those that do. -/
theorem perm_subscribedTo (fresh : ⟨filter, id⟩ ∉ table) :
    (deliveringTo id (subscribedTo filter id table)).Perm
      (⟨filter, id⟩ :: deliveringTo id table) := by
  induction table with
  | nil => simp [subscribedTo, deliveringTo]
  | cons s others ih =>
      rw [List.mem_cons, not_or] at fresh
      rw [subscribedTo]
      by_cases same : s.filter = filter
      · have elsewhere : (s.mailbox == id) = false := by
          refine beq_false_of_ne fun here => fresh.1 ?_
          rw [← same, ← here]
        simp [same, deliveringTo, elsewhere]
      · rw [if_neg same]
        have later := ih fresh.2
        by_cases here : s.mailbox = id
        · simpa [deliveringTo, here] using
            (later.cons s).trans (List.Perm.swap _ _ _)
        · simpa [deliveringTo, here] using later

end Broker

end UpdateBridge
