import UpdateBridge.Proofs.UpdateTopics.Granted

/-!
# Taking subscriptions back

A bridge unsubscribes from each of its topics, whatever came of the topics before,
and takes out the entries of those whose own call gets through
(`unsubscribeEach_eq`). So after subscribing it removes what it has set, and what
is left is what the table held for other filters.

A selection of entries that has none of the topics is the same before and after
both (`filter_subscribedToAll`, `Broker.filter_entriesExcept`), and the topics of two
things have none in common (`disjoint_topics`).
-/

namespace UpdateBridge

namespace UpdateTopics

open Broker (mailboxOf entriesOf entriesExcept unsubscribedFrom)
open Topic (NamesThing underThing)

variable {thing other : String} {topics : List String} {b : Broker} {id : MailboxId}
variable {conditions : List Condition} {lockTimeout : Nat}

/-! ## Going through all topics -/

/-- Each topic with what the call about it meets. -/
def attempts : List Condition → List String → List (String × Condition)
  | _, [] => []
  | conditions, topic :: topics =>
    (topic, conditions.headD .clear) :: attempts conditions.tail topics

/-- The topics whose calls get through, whatever comes of the others. -/
def reached (online : Bool) (conditions : List Condition) (topics : List String) : List String :=
  ((attempts conditions topics).filter fun attempt => online && attempt.2 == .clear).map Prod.fst

/-- What is noted about one topic when a bridge unsubscribes: that the call got
through, or why it did not and that the subscription stays. -/
def partingNotes (lockTimeout : Nat) (online : Bool) : String × Condition → List Note
  | (topic, .clear) =>
    if online then [.unsubscribed topic]
    else [.unsubscribeFailed topic .offline, .subscriptionLeft topic (.link .offline)]
  | (topic, .contended) =>
    [.lockTimedOut lockTimeout, .subscriptionLeft topic (.lockTimeout lockTimeout)]
  | (topic, .failing cause) =>
    [.unsubscribeFailed topic cause, .subscriptionLeft topic (.link cause)]

theorem map_fst_attempts (conditions : List Condition) (topics : List String) :
    (attempts conditions topics).map Prod.fst = topics := by
  induction topics generalizing conditions with
  | nil => rfl
  | cons topic topics ih => rw [attempts, List.map_cons, ih]

theorem reached_cons (online : Bool) (conditions : List Condition) (topic : String)
    (topics : List String) :
    reached online conditions (topic :: topics) =
      if online && conditions.headD .clear == .clear then
        topic :: reached online conditions.tail topics
      else reached online conditions.tail topics := by
  rw [reached, attempts, List.filter_cons]
  split <;> rfl

theorem reached_subset (online : Bool) (conditions : List Condition) (topics : List String) :
    reached online conditions topics ⊆ topics := by
  intro topic member
  rw [← map_fst_attempts conditions topics]
  exact List.map_subset _ (List.filter_subset_self _) member

/-- Where nothing hinders the calls all of them get through. -/
theorem reached_clear (topics : List String) : reached true [] topics = topics := by
  induction topics with
  | nil => rfl
  | cons topic topics ih =>
      rw [reached_cons, List.tail_nil, ih]
      rfl

/-- One call to unsubscribe takes the topic's entry out, or it changes nothing and
the bridge notes that the subscription stays. -/
theorem attempt_unsubscribe (lockTimeout : Nat) (topic : String) (condition : Condition)
    (b : Broker) :
    let called := (Call.unsubscribe topic).attempt lockTimeout condition b
    (b.online && condition == .clear) = true ∧
        called = ⟨.ok (), { b with table := unsubscribedFrom topic b.table },
          [.unsubscribed topic]⟩ ∧
        partingNotes lockTimeout b.online (topic, condition) = [.unsubscribed topic] ∨
      ∃ fault note, ¬(b.online && condition == .clear) = true ∧ called = ⟨.error fault, b, [note]⟩ ∧
        partingNotes lockTimeout b.online (topic, condition) =
          [note, .subscriptionLeft topic fault] := by
  intro called
  cases condition with
  | clear =>
      by_cases online : b.online = true
      · left
        simp [called, Call.attempt, Call.perform, Call.onBroker, Broker.unsubscribe, online,
          partingNotes, Call.doneNote]
      · right
        refine ⟨.link .offline, .unsubscribeFailed topic .offline, by simp [online], ?_, ?_⟩
        · simp [called, Call.attempt, Call.perform, Call.onBroker, Broker.unsubscribe, online,
            Call.failedNote]
        · simp [partingNotes, online]
  | contended => exact .inr ⟨_, _, by simp, rfl, rfl⟩
  | failing cause => exact .inr ⟨_, _, by simp, rfl, rfl⟩

/-- Unsubscribing calls for every topic, takes out those whose calls get through
and never fails. -/
theorem unsubscribeEach_eq (lockTimeout : Nat) (conditions : List Condition) (b : Broker)
    (topics : List String) :
    unsubscribeEach lockTimeout conditions b topics =
      ⟨.ok (), { b with table := entriesExcept (reached b.online conditions topics) b.table },
        (attempts conditions topics).flatMap (partingNotes lockTimeout b.online)⟩ := by
  induction topics generalizing conditions b with
  | nil => simp [unsubscribeEach, reached, attempts, Broker.entriesExcept_nil]
  | cons topic topics ih =>
      rw [reached_cons, attempts, List.flatMap_cons]
      obtain ⟨through, called, notes⟩ | ⟨fault, note, hindered, called, notes⟩ :=
        attempt_unsubscribe lockTimeout topic (conditions.headD .clear) b
      · simp only [unsubscribeEach, called, ih, notes, if_pos through, List.append_nil,
          Broker.entriesExcept_unsubscribedFrom]
      · simp only [unsubscribeEach, called, ih, notes, if_neg hindered, List.singleton_append]

/-- Unsubscribing from topics that nothing keeps from it leaves none of them. -/
theorem unsubscribeEach_of_online (online : b.online = true) (topics : List String) :
    (unsubscribeEach lockTimeout [] b topics).result = .ok () ∧
      ∀ filter, mailboxOf filter (unsubscribeEach lockTimeout [] b topics).broker.table =
        if filter ∈ topics then none else mailboxOf filter b.table := by
  rw [unsubscribeEach_eq, online, reached_clear]
  exact ⟨rfl, fun filter => Broker.mailboxOf_entriesExcept filter topics b.table⟩

theorem unsubscribe_eq (known : of thing = .ok topics) (lockTimeout : Nat)
    (conditions : List Condition) (b : Broker) :
    unsubscribe thing lockTimeout conditions b =
      ⟨.ok (), { b with table := entriesExcept (reached b.online conditions topics) b.table },
        (attempts conditions topics).flatMap (partingNotes lockTimeout b.online)⟩ := by
  rw [unsubscribe, known]
  exact unsubscribeEach_eq lockTimeout conditions b topics

/-! ## What subscribing and unsubscribing leave alone -/

theorem granted_subset (online : Bool) (conditions : List Condition) (topics : List String) :
    granted online conditions topics ⊆ topics := by
  induction topics generalizing conditions with
  | nil => exact List.Subset.refl _
  | cons topic topics ih =>
      rw [granted]
      split
      · exact List.cons_subset_cons topic (ih conditions.tail)
      · exact List.nil_subset _

theorem obtained_subset (known : of thing = .ok topics) (online : Bool)
    (conditions : List Condition) : obtained thing online conditions ⊆ topics := by
  rw [obtained, known]
  exact granted_subset online conditions topics

/-- Subscribing to topics leaves a selection of entries of other filters as it is. -/
theorem filter_subscribedToAll {p : Subscription → Bool}
    (blind : ∀ s, p s = true → s.filter ∉ topics) (id : MailboxId) (table : List Subscription) :
    (subscribedToAll topics id table).filter p = table.filter p := by
  induction topics generalizing table with
  | nil => rfl
  | cons topic topics ih =>
      have later : ∀ s, p s = true → s.filter ∉ topics :=
        fun s seen listed => blind s seen (List.mem_cons_of_mem topic listed)
      have first : ∀ s, p s = true → s.filter ≠ topic :=
        fun s seen same => blind s seen (same ▸ List.mem_cons_self)
      exact (ih later _).trans (Broker.filter_subscribedTo first id table)

/-- Two things have no update topic in common. -/
theorem disjoint_topics (names : NamesThing thing) (names' : NamesThing other)
    (apart : thing ≠ other) :
    List.Disjoint (suffixes.map (underThing thing)) (suffixes.map (underThing other)) := by
  intro topic listed listed'
  obtain ⟨suffix, -, rfl⟩ := List.mem_map.mp listed
  obtain ⟨suffix', -, same⟩ := List.mem_map.mp listed'
  rw [Topic.underThing_inj names'.separator_notMem names.separator_notMem] at same
  exact apart same.1.symm

/-- What is not an entry of the thing's topics stays when they are subscribed. -/
theorem filter_subscribe {p : Subscription → Bool} (known : of thing = .ok topics)
    (blind : ∀ s, p s = true → s.filter ∉ topics) (lockTimeout : Nat) (id : MailboxId)
    (conditions : List Condition) (b : Broker) :
    (subscribe thing lockTimeout id conditions b).broker.table.filter p = b.table.filter p := by
  rw [broker_subscribe_obtained]
  refine filter_subscribedToAll (fun s seen own => ?_) id b.table
  exact blind s seen (obtained_subset known b.online conditions own)

/-- What is not an entry of the thing's topics stays when they are unsubscribed. -/
theorem filter_unsubscribe {p : Subscription → Bool} (known : of thing = .ok topics)
    (blind : ∀ s, p s = true → s.filter ∉ topics) (lockTimeout : Nat)
    (conditions : List Condition) (b : Broker) :
    (unsubscribe thing lockTimeout conditions b).broker.table.filter p = b.table.filter p := by
  rw [unsubscribe_eq known]
  refine Broker.filter_entriesExcept (fun s seen own => ?_) b.table
  exact blind s seen (reached_subset b.online conditions topics own)

/-- Topics that are subscribed are not changed by subscribing to them. -/
theorem broker_subscribe_again (known : of thing = .ok topics)
    (set : ∀ topic ∈ topics, mailboxOf topic b.table = some id) (lockTimeout : Nat)
    (conditions : List Condition) : (subscribe thing lockTimeout id conditions b).broker = b := by
  rw [broker_subscribe_obtained, subscribedToAll_eq_self_iff.mpr]
  intro topic member
  exact set topic (obtained_subset known _ conditions member)

/-- Where nothing hinders it unsubscribing takes out all entries of the topics. -/
theorem unsubscribe_of_online (known : of thing = .ok topics) (online : b.online = true)
    (lockTimeout : Nat) :
    (unsubscribe thing lockTimeout [] b).result = .ok () ∧
      (unsubscribe thing lockTimeout [] b).broker =
        { b with table := entriesExcept topics b.table } := by
  rw [unsubscribe_eq known, online, reached_clear]
  exact ⟨rfl, rfl⟩

/-- A thing that has update topics has the three of them. Subscribing to them sets
their entries and no others, and doing it again makes no difference. Unsubscribing
calls for all three whatever comes of each call, never fails, and takes out those
whose calls get through: all three if nothing hinders them, so that the table is left
as it was if it had none of them before. Neither, however it ends, touches an entry
for a topic of another thing. -/
theorem subscribe_unsubscribe_undoes (known : of thing = .ok topics) (names : NamesThing other)
    (apart : thing ≠ other) (b : Broker) (id : MailboxId) (lockTimeout : Nat)
    (conditions : List Condition) :
    let subscribed := subscribe thing lockTimeout id conditions b
    let withdrawn := unsubscribe thing lockTimeout conditions b
    let others := suffixes.map (underThing other)
    topics = suffixes.map (underThing thing) ∧
      (subscribed.result = .ok () →
        subscribed.broker = { b with table := subscribed.broker.table } ∧
        (∀ topic ∈ topics, mailboxOf topic subscribed.broker.table = some id) ∧
        entriesExcept topics subscribed.broker.table = entriesExcept topics b.table ∧
        (∀ again, (subscribe thing lockTimeout id again subscribed.broker).broker =
          subscribed.broker) ∧
        ∀ later : Broker, later.online = true → later.table = subscribed.broker.table →
          let undone := unsubscribe thing lockTimeout [] later
          undone.result = .ok () ∧
          undone.broker = { later with table := entriesExcept topics b.table } ∧
          ((∀ topic ∈ topics, mailboxOf topic b.table = none) →
            undone.broker = { later with table := b.table })) ∧
      (withdrawn.result = .ok () ∧ (attempts conditions topics).map Prod.fst = topics ∧
        withdrawn.notes = (attempts conditions topics).flatMap (partingNotes lockTimeout b.online) ∧
        withdrawn.broker =
          { b with table := entriesExcept (reached b.online conditions topics) b.table }) ∧
      entriesOf others subscribed.broker.table = entriesOf others b.table ∧
      entriesOf others withdrawn.broker.table = entriesOf others b.table := by
  intro subscribed withdrawn others
  obtain ⟨names', -, listed⟩ := of_eq_ok_iff.mp known
  have foreign : ∀ s : Subscription, decide (s.filter ∈ others) = true → s.filter ∉ topics := by
    intro s member own
    rw [listed] at own
    exact disjoint_topics names' names apart own (of_decide_eq_true member)
  refine ⟨listed, ?_, ?_, filter_subscribe known foreign lockTimeout id conditions b,
    filter_unsubscribe known foreign lockTimeout conditions b⟩
  · intro done
    have broker : subscribed.broker = { b with table := subscribedToAll topics id b.table } :=
      broker_subscribe known done
    have set : ∀ topic ∈ topics, mailboxOf topic subscribed.broker.table = some id := by
      intro topic member
      rw [broker, mailboxOf_subscribedToAll, if_pos member]
    have rest : entriesExcept topics subscribed.broker.table = entriesExcept topics b.table :=
      filter_subscribe known (fun s seen => of_decide_eq_true seen) lockTimeout id conditions b
    refine ⟨?_, set, rest, broker_subscribe_again known set lockTimeout, ?_⟩
    · rw [broker]
    · intro later online same undone
      obtain ⟨finished, gone⟩ := unsubscribe_of_online known online lockTimeout
      rw [same, rest] at gone
      refine ⟨finished, gone, ?_⟩
      intro absent
      rw [gone, Broker.entriesExcept_eq_self absent]
  · have withdrawn_eq : withdrawn = _ := unsubscribe_eq known lockTimeout conditions b
    rw [withdrawn_eq]
    exact ⟨rfl, map_fst_attempts conditions topics, rfl, rfl⟩

/-- Two of three calls fail, and the third goes its way. With none failing the table
is as it was, the other thing's entry in it. -/
theorem subscribe_unsubscribe_undoes_partly :
    let notice := "$aws/things/core2/jobs/notify-next"
    let answer := "$aws/things/core2/jobs/$next/get/accepted"
    let blocks := "$aws/things/core2/streams/#"
    let b : Broker := ⟨true, [⟨"$aws/things/core3/streams/#", 1⟩, ⟨"core2/", 1⟩],
      [Mailbox.empty 4, Mailbox.empty 4]⟩
    let subscribed := subscribe "core2" 100 0 [] b
    let withdrawn := unsubscribe "core2" 100 [.contended, .clear, .failing .io] subscribed.broker
    of "core2" = .ok [notice, answer, blocks] ∧ NamesThing "core3" ∧ "core2" ≠ "core3" ∧
      subscribed.result = .ok () ∧ mailboxOf blocks subscribed.broker.table = some 0 ∧
      (unsubscribe "core2" 100 [] subscribed.broker).broker = b ∧
      withdrawn.result = .ok () ∧
      withdrawn.notes = [.lockTimedOut 100, .subscriptionLeft notice (.lockTimeout 100),
        .unsubscribed answer, .unsubscribeFailed blocks .io, .subscriptionLeft blocks (.link .io)] ∧
      withdrawn.broker.table =
        [⟨"$aws/things/core3/streams/#", 1⟩, ⟨"core2/", 1⟩, ⟨notice, 0⟩, ⟨blocks, 0⟩] := by
  intro notice answer blocks b subscribed withdrawn
  have known : of "core2" = .ok [notice, answer, blocks] := by decide +kernel
  have other : of "core3" = .ok (suffixes.map (underThing "core3")) := by decide +kernel
  have names : NamesThing "core3" := (of_eq_ok_iff.mp other).1
  have apart : "core2" ≠ "core3" := by decide
  have done : subscribed.result = .ok () := by rfl
  obtain ⟨-, undoes, -, -, -⟩ := subscribe_unsubscribe_undoes known names apart b 0 100 []
  obtain ⟨broker, set, -, -, restores⟩ := undoes done
  obtain ⟨-, -, ⟨finished, -, notes, left⟩, -, -⟩ :=
    subscribe_unsubscribe_undoes known names apart subscribed.broker 0 100
      [.contended, .clear, .failing .io]
  obtain ⟨-, -, restored⟩ := restores subscribed.broker rfl rfl
  refine ⟨known, names, apart, done, set blocks (by decide), ?_, finished, notes, ?_⟩
  · exact restored (by decide +kernel)
  · rw [left]
    decide +kernel

end UpdateTopics

end UpdateBridge
