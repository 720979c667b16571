import Mathlib.Data.Finset.Card
import UpdateBridge.Client.Call
import UpdateBridge.Proofs.Broker.Enumeration
import UpdateBridge.Proofs.Broker.Subscriptions

/-!
# The table as the outcome of a history

Of all that is done to a broker only some calls change its table: to subscribe
and to unsubscribe, while the broker is online. `effective` picks these calls out
of a history without looking at the broker, and `table_run` says that the table
comes from them alone. What a filter delivers to is then decided by the last of
them that is about this filter (`mailboxOf_foldl_revised`).

A table that began empty has no filter twice, so it has as many entries as there
are filters whose last call is to subscribe.
-/

namespace UpdateBridge

def Call.filter? : Call → Option String
  | .publish .. => none
  | .subscribe filter .. => some filter
  | .unsubscribe filter => some filter

def Call.mailbox? : Call → Option MailboxId
  | .subscribe _ _ id => some id
  | _ => none

/-- Whether a broker that is online changes its table for the call. -/
def Call.changesTable : Call → Bool
  | .publish .. => false
  | .subscribe filter .. => filter ≠ ""
  | .unsubscribe _ => true

/-- The table that the call makes of a table. -/
def Call.revised (table : List Subscription) : Call → List Subscription
  | .publish .. => table
  | .subscribe filter _ id => Broker.subscribedTo filter id table
  | .unsubscribe filter => Broker.unsubscribedFrom filter table

inductive Broker.Operation where
  | call (call : Call)
  | setOnline (online : Bool)
  | deliver (message : Message)
  | collect (id : MailboxId)
  | closeMailbox (id : MailboxId)
  deriving DecidableEq, Repr, Inhabited

namespace Broker

variable {b : Broker} {call : Call} {calls : List Call} {filter topic : String} {id : MailboxId}
variable {table : List Subscription} {online : Bool} {operations : List Operation}

def apply (b : Broker) : Operation → Broker
  | .call call => (call.onBroker b).2.1
  | .setOnline online => { b with online }
  | .deliver message => (b.deliver message).broker
  | .collect id => (b.collect id).2
  | .closeMailbox id => b.closeMailbox id

def run (b : Broker) (operations : List Operation) : Broker :=
  operations.foldl apply b

/-- The calls to subscribe, except to the empty filter, and to unsubscribe that
are made while the broker is online. -/
def effective : Bool → List Operation → List Call
  | _, [] => []
  | online, .call call :: later =>
    if online && call.changesTable then call :: effective online later else effective online later
  | _, .setOnline online :: later => effective online later
  | online, .deliver _ :: later => effective online later
  | online, .collect _ :: later => effective online later
  | online, .closeMailbox _ :: later => effective online later

/-- The last of the calls that is about the filter. -/
def lastOn (filter : String) (calls : List Call) : Option Call :=
  (calls.filter fun call => call.filter? == some filter).getLast?

/-! ## What one call does -/

/-- A call fails and changes nothing, or it delivers a message, or it changes the
table. -/
theorem onBroker_cases (call : Call) (b : Broker) :
    (∃ cause, (b.online && call.changesTable) = false ∧
        call.onBroker b = (.error cause, b, [])) ∨
      (∃ message delivery notes, call = .publish message delivery ∧
        call.onBroker b = (.ok (), (b.deliver message).broker, notes)) ∨
      ∃ notes, (b.online && call.changesTable) = true ∧
        call.onBroker b = (.ok (), { b with table := call.revised b.table }, notes) := by
  by_cases online : b.online = true
  · cases call with
    | publish message delivery =>
        by_cases refused : (message.topic.isEmpty || holdsWildcard message.topic) = true
        · refine .inl ⟨.refused, Bool.and_false _, ?_⟩
          simp [Call.onBroker, publish, online, refused]
        · refine .inr (.inl ⟨message, delivery, deliveryNotes message.topic (b.deliver message),
            rfl, ?_⟩)
          simp [Call.onBroker, publish, online, refused]
    | subscribe filter delivery id =>
        by_cases unnamed : filter = ""
        · refine .inl ⟨.refused, by simp [Call.changesTable, unnamed], ?_⟩
          simp [Call.onBroker, subscribe, online, unnamed]
        · refine .inr (.inr ⟨[.brokerSubscription filter], ?_, ?_⟩)
          · simp [Call.changesTable, online, unnamed]
          · exact subscribe_of_online online unnamed id
    | unsubscribe filter =>
        refine .inr (.inr ⟨[], by simp [Call.changesTable, online], ?_⟩)
        simp [Call.onBroker, unsubscribe, online, Call.revised]
  · refine .inl ⟨.offline, by simp [online], ?_⟩
    cases call <;> simp [Call.onBroker, publish, subscribe, unsubscribe, online]

/-- A call that fails leaves the broker as it was. -/
theorem eq_of_onBroker_error {cause : LinkFault} (failed : (call.onBroker b).1 = .error cause) :
    (call.onBroker b).2.1 = b := by
  obtain ⟨_, -, refused⟩ | ⟨_, _, _, -, delivered⟩ | ⟨_, -, changed⟩ := onBroker_cases call b
  · rw [refused]
  · rw [delivered] at failed
    cases failed
  · rw [changed] at failed
    cases failed

theorem holdsWildcard_eq_false_iff :
    holdsWildcard topic = false ↔ ∀ c ∈ topic.toList, c ≠ '+' ∧ c ≠ '#' := by
  simp [holdsWildcard]

/-- A client's message is delivered if the broker is online and the topic can be
published on, and otherwise nothing happens. -/
theorem onBroker_publish (message : Message) (delivery : Delivery) (b : Broker) :
    let published := (Call.publish message delivery).onBroker b
    let sendable := b.online = true ∧ message.topic ≠ "" ∧
      ∀ c ∈ message.topic.toList, c ≠ '+' ∧ c ≠ '#'
    (published.1 = .ok () ↔ sendable) ∧
      (sendable → published.2.1 = (b.deliver message).broker) ∧
        (¬sendable → published.2.1 = b) := by
  intro published sendable
  have published_eq : published = b.publish message := rfl
  have sendable_iff : sendable ↔ b.online = true ∧ message.topic ≠ "" ∧
      holdsWildcard message.topic = false := by
    rw [holdsWildcard_eq_false_iff]
  rw [published_eq, sendable_iff]
  by_cases online : b.online = true
  · by_cases unnamed : message.topic = ""
    · simp [publish, online, unnamed]
    · cases wild : holdsWildcard message.topic with
      | false => simp [publish, online, unnamed, wild]
      | true => simp [publish, online, unnamed, wild]
  · simp [publish, online]

/-! ## What a history does to the table -/

theorem online_apply_call (b : Broker) (call : Call) :
    (b.apply (.call call)).online = b.online := by
  obtain ⟨_, -, refused⟩ | ⟨message, _, _, -, delivered⟩ | ⟨_, -, changed⟩ := onBroker_cases call b
  · rw [apply, refused]
  · rw [apply, delivered]
    exact online_deliverTo message b b.table
  · rw [apply, changed]

theorem table_apply_call (b : Broker) (call : Call) :
    (b.apply (.call call)).table =
      if b.online && call.changesTable then call.revised b.table else b.table := by
  obtain ⟨_, idle, refused⟩ | ⟨message, delivery, _, rfl, delivered⟩ | ⟨_, active, changed⟩ :=
    onBroker_cases call b
  · rw [apply, refused, idle, if_neg Bool.false_ne_true]
  · rw [apply, delivered, table_deliver, Call.changesTable, Bool.and_false,
      if_neg Bool.false_ne_true]
  · rw [apply, changed, active, if_pos rfl]

/-- Whatever the broker's mailboxes hold, taking what waits there changes neither
the table nor whether the broker is online. -/
theorem collect_frame (b : Broker) (id : MailboxId) :
    (b.collect id).2.online = b.online ∧ (b.collect id).2.table = b.table := by
  unfold collect
  split <;> exact ⟨rfl, rfl⟩

/-- The effective calls make the table, and nothing else does. -/
theorem table_run (b : Broker) (operations : List Operation) :
    (b.run operations).table = (effective b.online operations).foldl Call.revised b.table := by
  induction operations generalizing b with
  | nil => rfl
  | cons operation later ih =>
      refine (ih (b.apply operation)).trans ?_
      cases operation with
      | call call =>
          rw [online_apply_call, table_apply_call, effective]
          split <;> rfl
      | setOnline online => rfl
      | deliver message =>
          have online : (b.apply (.deliver message)).online = b.online :=
            online_deliverTo message b b.table
          have table : (b.apply (.deliver message)).table = b.table := table_deliver b message
          rw [online, table, effective]
      | collect id =>
          obtain ⟨online, table⟩ := b.collect_frame id
          rw [apply, online, table, effective]
      | closeMailbox id => rfl

theorem changesTable_of_mem_effective (member : call ∈ effective online operations) :
    call.changesTable = true := by
  induction operations generalizing online with
  | nil => cases member
  | cons operation later ih =>
      cases operation with
      | call other =>
          rw [effective] at member
          split at member
          · next active =>
              obtain rfl | member := List.mem_cons.mp member
              · exact (Bool.and_eq_true_iff.mp active).2
              · exact ih member
          · exact ih member
      | setOnline online => exact ih member
      | deliver message => exact ih member
      | collect id => exact ih member
      | closeMailbox id => exact ih member

/-! ## What the last call on a filter decides -/

theorem lastOn_concat (filter : String) (calls : List Call) (call : Call) :
    lastOn filter (calls ++ [call]) =
      if call.filter? = some filter then some call else lastOn filter calls := by
  by_cases here : call.filter? = some filter
  · simp [lastOn, here]
  · simp [lastOn, here]

theorem mem_of_lastOn (last : lastOn filter calls = some call) :
    call ∈ calls ∧ call.filter? = some filter := by
  obtain ⟨member, here⟩ := List.mem_filter.mp (List.mem_of_getLast? last)
  exact ⟨member, beq_iff_eq.mp here⟩

theorem mailboxOf_revised (filter : String) (table : List Subscription) (call : Call) :
    mailboxOf filter (call.revised table) =
      if call.filter? = some filter then call.mailbox? else mailboxOf filter table := by
  cases call with
  | publish message delivery => rfl
  | subscribe topic delivery id =>
      simp [Call.revised, Call.filter?, Call.mailbox?, mailboxOf_subscribedTo, @eq_comm _ topic]
  | unsubscribe topic =>
      simp [Call.revised, Call.filter?, Call.mailbox?, mailboxOf_unsubscribedFrom,
        @eq_comm _ topic]

/-- A filter delivers to what the last call on it says, and to what it delivered
to before if there is none. -/
theorem mailboxOf_foldl_revised (filter : String) (calls : List Call)
    (table : List Subscription) :
    mailboxOf filter (calls.foldl Call.revised table) =
      match lastOn filter calls with
      | some call => call.mailbox?
      | none => mailboxOf filter table := by
  induction calls using List.reverseRecOn with
  | nil => rfl
  | append_singleton calls call ih =>
      rw [List.foldl_concat, mailboxOf_revised, lastOn_concat, ih]
      split <;> rfl

/-- The call that subscribes a filter names it. -/
theorem lastOn_mailbox?_eq_some_iff :
    (lastOn filter calls).bind Call.mailbox? = some id ↔
      ∃ delivery, lastOn filter calls = some (.subscribe filter delivery id) := by
  constructor
  · intro found
    obtain ⟨call, last, mailbox⟩ := Option.bind_eq_some_iff.mp found
    obtain ⟨-, here⟩ := mem_of_lastOn last
    cases call with
    | publish message delivery => cases mailbox
    | subscribe topic delivery other =>
        obtain rfl := Option.some.inj mailbox
        obtain rfl := Option.some.inj here
        exact ⟨delivery, last⟩
    | unsubscribe topic => cases mailbox
  · rintro ⟨delivery, last⟩
    rw [last]
    rfl

/-! ## Tables without repetition -/

def filters (table : List Subscription) : List String :=
  table.map Subscription.filter

theorem filters_cons (s : Subscription) (others : List Subscription) :
    filters (s :: others) = s.filter :: filters others := rfl

theorem filters_subscribedTo (filter : String) (id : MailboxId) (table : List Subscription) :
    filters (subscribedTo filter id table) =
      if filter ∈ filters table then filters table else filters table ++ [filter] := by
  induction table with
  | nil => simp [subscribedTo, filters]
  | cons s others ih =>
      by_cases here : s.filter = filter
      · simp [subscribedTo, filters, here]
      · simp only [subscribedTo, if_neg here, filters_cons, ih, List.mem_cons, Ne.symm here,
          false_or]
        split <;> rfl

theorem nodup_revised (distinct : (filters table).Nodup) (call : Call) :
    (filters (call.revised table)).Nodup := by
  cases call with
  | publish message delivery => exact distinct
  | subscribe filter delivery id =>
      rw [Call.revised, filters_subscribedTo]
      split
      · exact distinct
      · next new =>
          rw [← List.concat_eq_append]
          exact distinct.concat new
  | unsubscribe filter => exact distinct.sublist (List.filter_sublist.map _)

theorem nodup_foldl_revised (distinct : (filters table).Nodup) (calls : List Call) :
    (filters (calls.foldl Call.revised table)).Nodup := by
  induction calls generalizing table with
  | nil => exact distinct
  | cons call calls ih => exact ih (nodup_revised distinct call)

/-- In a table without repetition a lookup finds every entry. -/
theorem mem_iff_mailboxOf (distinct : (filters table).Nodup) :
    ⟨filter, id⟩ ∈ table ↔ mailboxOf filter table = some id := by
  induction table with
  | nil => simp [mailboxOf]
  | cons s others ih =>
      obtain ⟨new, distinct⟩ := List.nodup_cons.mp distinct
      rw [List.mem_cons, ih distinct, mailboxOf_cons]
      by_cases here : s.filter = filter
      · have absent : mailboxOf filter others ≠ some id := by
          intro later
          exact new (here ▸ List.mem_map_of_mem ((ih distinct).mpr later))
        rw [or_iff_left absent, if_pos here, Option.some_inj]
        subst here
        exact ⟨fun same => same ▸ rfl, fun same => same ▸ rfl⟩
      · have other : ⟨filter, id⟩ ≠ s := fun same => here (same ▸ rfl)
        rw [or_iff_right other, if_neg here]

/-- Every effective call names a filter that can be subscribed. -/
theorem filter_ne_empty_of_lastOn {delivery : Delivery}
    (last : lastOn filter (effective online operations) = some (.subscribe filter delivery id)) :
    filter ≠ "" := by
  have active := changesTable_of_mem_effective (mem_of_lastOn last).1
  simpa [Call.changesTable] using active

/-! ## The table of a broker that began without subscriptions -/

theorem mailboxOf_run (filter : String) (online : Bool) (mailboxes : List (Mailbox Message))
    (operations : List Operation) :
    mailboxOf filter (run ⟨online, [], mailboxes⟩ operations).table =
      (lastOn filter (effective online operations)).bind Call.mailbox? := by
  rw [table_run, mailboxOf_foldl_revised]
  cases lastOn filter (effective online operations) <;> rfl

theorem nodup_filters_run (online : Bool) (mailboxes : List (Mailbox Message))
    (operations : List Operation) :
    (filters (run ⟨online, [], mailboxes⟩ operations).table).Nodup := by
  have empty : (filters []).Nodup := List.nodup_nil
  rw [table_run]
  exact nodup_foldl_revised empty _

/-- Whatever was done to a broker that began without subscriptions, its table
gives a filter to a mailbox if and only if that is what the last effective call on
the filter asked for. It has one entry for each such filter, and none of them is
empty. A call that fails leaves the broker as it is, and publishing is delivering
where it does not fail. -/
theorem table_follows_last_call (online : Bool) (mailboxes : List (Mailbox Message))
    (operations : List Operation) :
    let after := run ⟨online, [], mailboxes⟩ operations
    let last (filter : String) := lastOn filter (effective online operations)
    (∀ filter id, ⟨filter, id⟩ ∈ after.table ↔
        ∃ delivery, last filter = some (.subscribe filter delivery id)) ∧
      (∀ filter, after.isSubscribed filter = true ↔
        ∃ id delivery, last filter = some (.subscribe filter delivery id)) ∧
      (∀ s ∈ after.table, s.filter ≠ "") ∧
      (∃ subscribed : Finset String,
        (∀ filter, filter ∈ subscribed ↔
          ∃ id delivery, last filter = some (.subscribe filter delivery id)) ∧
        after.table.length = subscribed.card) ∧
      (∀ call cause, (Call.onBroker after call).1 = .error cause →
        (Call.onBroker after call).2.1 = after) ∧
      ∀ message delivery,
        let published := (Call.publish message delivery).onBroker after
        let sendable := after.online = true ∧ message.topic ≠ "" ∧
          ∀ c ∈ message.topic.toList, c ≠ '+' ∧ c ≠ '#'
        (published.1 = .ok () ↔ sendable) ∧
          (sendable → published.2.1 = (after.deliver message).broker) ∧
          (¬sendable → published.2.1 = after) := by
  intro after last
  have distinct : (filters after.table).Nodup := nodup_filters_run online mailboxes operations
  have found : ∀ filter id, mailboxOf filter after.table = some id ↔
      ∃ delivery, last filter = some (.subscribe filter delivery id) := by
    intro filter id
    rw [mailboxOf_run]
    exact lastOn_mailbox?_eq_some_iff
  have listed : ∀ filter id, ⟨filter, id⟩ ∈ after.table ↔
      ∃ delivery, last filter = some (.subscribe filter delivery id) :=
    fun filter id => (mem_iff_mailboxOf distinct).trans (found filter id)
  refine ⟨listed, ?_, ?_, ?_, fun call cause => eq_of_onBroker_error, fun message delivery =>
    onBroker_publish message delivery after⟩
  · intro filter
    exact isSubscribed_iff.trans (exists_congr (found filter))
  · intro s member
    obtain ⟨delivery, lastly⟩ := (listed s.filter s.mailbox).mp member
    exact filter_ne_empty_of_lastOn lastly
  · refine ⟨(filters after.table).toFinset, ?_, ?_⟩
    · intro filter
      rw [List.mem_toFinset]
      constructor
      · intro member
        obtain ⟨s, there, rfl⟩ := List.mem_map.mp member
        exact ⟨s.mailbox, (listed s.filter s.mailbox).mp there⟩
      · rintro ⟨id, subscribed⟩
        exact List.mem_map_of_mem ((listed filter id).mpr subscribed)
    · rw [List.toFinset_card_of_nodup distinct, filters, List.length_map]

/-- A filter is lost neither to a call made while the broker is offline nor to one
on another filter. -/
example :
    let history : List Operation :=
      [.call (.subscribe "a/#" .atMostOnce 0), .setOnline false, .call (.unsubscribe "a/#"),
        .call (.subscribe "a/#" .atLeastOnce 1), .setOnline true,
        .call (.subscribe "a/+" .atMostOnce 1), .call (.subscribe "" .atMostOnce 1)]
    lastOn "a/#" (effective true history) = some (.subscribe "a/#" .atMostOnce 0) ∧
      (run fresh history).table = [⟨"a/#", 0⟩, ⟨"a/+", 1⟩] := by
  decide +kernel

end Broker

end UpdateBridge
