import UpdateBridge.Proofs.Broker.Subscriptions
import UpdateBridge.Proofs.UpdateTopics.Agreement

/-!
# The topics that a bridge gets

A bridge subscribes to its topics one after another and gives up at the first
call that fails. The topics before that one are subscribed (`obtained`), and
giving up does not unsubscribe them. So after a failure the table is as before
only if all of them delivered to the bridge's mailbox already.
-/

namespace UpdateBridge

namespace UpdateTopics

open Broker (mailboxOf subscribedTo mailboxOf_subscribedTo)

variable {thing topic : String} {topics : List String} {b : Broker} {id : MailboxId}
variable {conditions : List Condition} {lockTimeout : Nat} {table : List Subscription}

/-- The fault that a call to subscribe ends with, if it does not get through. -/
def refusal (lockTimeout : Nat) (online : Bool) : Condition → Option Fault
  | .clear => if online then none else some (.link .offline)
  | .contended => some (.lockTimeout lockTimeout)
  | .failing cause => some (.link cause)

/-- The topics before the first whose call does not get through. -/
def granted (online : Bool) : List Condition → List String → List String
  | _, [] => []
  | conditions, topic :: topics =>
    if online = true ∧ conditions.headD .clear = .clear then
      topic :: granted online conditions.tail topics
    else []

/-- The update topics of the thing that are subscribed before a call fails. -/
def obtained (thing : String) (online : Bool) (conditions : List Condition) : List String :=
  match of thing with
  | .error _ => []
  | .ok topics => granted online conditions topics

/-! ## The table after subscribing to several topics -/

theorem mailboxOf_subscribedToAll (filter : String) (topics : List String) (id : MailboxId)
    (table : List Subscription) :
    mailboxOf filter (subscribedToAll topics id table) =
      if filter ∈ topics then some id else mailboxOf filter table := by
  induction topics generalizing table with
  | nil => simp [subscribedToAll]
  | cons topic topics ih =>
      refine (ih (subscribedTo topic id table)).trans ?_
      by_cases later : filter ∈ topics
      · simp [later]
      · simp [later, mailboxOf_subscribedTo]

/-- Subscribing changes the table unless every topic delivers to the mailbox
already. -/
theorem subscribedToAll_eq_self_iff :
    subscribedToAll topics id table = table ↔
      ∀ topic ∈ topics, mailboxOf topic table = some id := by
  constructor
  · intro same topic listed
    rw [← same, mailboxOf_subscribedToAll, if_pos listed]
  · intro there
    induction topics with
    | nil => rfl
    | cons topic topics ih =>
        have first := Broker.subscribedTo_of_mailboxOf (there topic List.mem_cons_self)
        change subscribedToAll topics id (subscribedTo topic id table) = table
        rw [first]
        exact ih fun other listed => there other (List.mem_cons_of_mem topic listed)

/-! ## Going through the topics -/

theorem granted_cons_of_refusal_eq_none
    (through : refusal lockTimeout b.online (conditions.headD .clear) = none) :
    granted b.online conditions (topic :: topics) =
      topic :: granted b.online conditions.tail topics := by
  unfold refusal at through
  split at through
  · next clear =>
      split at through
      · next online => rw [granted, if_pos ⟨online, clear⟩]
      · cases through
  · cases through
  · cases through

theorem granted_cons_of_refusal {fault : Fault}
    (refused : refusal lockTimeout b.online (conditions.headD .clear) = some fault) :
    granted b.online conditions (topic :: topics) = [] := by
  rw [granted, if_neg]
  rintro ⟨online, clear⟩
  rw [online, clear] at refused
  cases refused

/-- A call that does not get through leaves the broker as it was. -/
theorem attempt_subscribe (named : topic ≠ "") (lockTimeout : Nat) (id : MailboxId)
    (condition : Condition) (b : Broker) :
    ((Call.subscribe topic .atLeastOnce id).attempt lockTimeout condition b).result =
        (match refusal lockTimeout b.online condition with
        | none => .ok ()
        | some fault => .error fault) ∧
      ((Call.subscribe topic .atLeastOnce id).attempt lockTimeout condition b).broker =
        match refusal lockTimeout b.online condition with
        | none => { b with table := subscribedTo topic id b.table }
        | some _ => b := by
  cases condition with
  | clear =>
      cases online : b.online with
      | true =>
          simp [Call.attempt, Call.perform, Call.onBroker, refusal, online,
            Broker.subscribe_of_online online named id]
      | false => simp [Call.attempt, Call.perform, Call.onBroker, refusal, online, Broker.subscribe]
  | contended => exact ⟨rfl, rfl⟩
  | failing cause => exact ⟨rfl, rfl⟩

/-- What a bridge is subscribed to when it has gone through its topics or given
up, and what made it give up. -/
theorem subscribeEach_granted (named : ∀ topic ∈ topics, topic ≠ "") (lockTimeout : Nat)
    (id : MailboxId) (conditions : List Condition) (b : Broker) :
    (subscribeEach lockTimeout id conditions b topics).broker =
        { b with table := subscribedToAll (granted b.online conditions topics) id b.table } ∧
      ((subscribeEach lockTimeout id conditions b topics).result = .ok () ∧
          granted b.online conditions topics = topics ∨
        ∃ topic rest fault, topics = granted b.online conditions topics ++ topic :: rest ∧
          refusal lockTimeout b.online
            (conditions.getD (granted b.online conditions topics).length .clear) = some fault ∧
          (subscribeEach lockTimeout id conditions b topics).result = .error fault) := by
  induction topics generalizing conditions b with
  | nil => exact ⟨rfl, .inl ⟨rfl, rfl⟩⟩
  | cons topic topics ih =>
      have headD_eq : conditions.getD 0 .clear = conditions.headD .clear := by
        cases conditions <;> rfl
      obtain ⟨result, broker⟩ := attempt_subscribe (named topic List.mem_cons_self) lockTimeout id
        (conditions.headD .clear) b
      cases refused : refusal lockTimeout b.online (conditions.headD .clear) with
      | none =>
          simp only [refused] at result broker
          obtain ⟨after, ends⟩ :=
            ih (fun other listed => named other (List.mem_cons_of_mem topic listed))
              conditions.tail { b with table := subscribedTo topic id b.table }
          simp only [subscribeEach, result, broker, granted_cons_of_refusal_eq_none refused]
          refine ⟨after, ?_⟩
          obtain ⟨finished, all⟩ | ⟨next, rest, fault, cut, cause, failed⟩ := ends
          · exact .inl ⟨finished, congrArg (topic :: ·) all⟩
          · refine .inr ⟨next, rest, fault, congrArg (topic :: ·) cut, ?_, failed⟩
            cases conditions with
            | nil => exact cause
            | cons condition conditions => exact cause
      | some fault =>
          simp only [refused] at result broker
          simp only [subscribeEach, result, broker, granted_cons_of_refusal refused]
          refine ⟨rfl, .inr ⟨topic, topics, fault, rfl, ?_, rfl⟩⟩
          exact (congrArg _ headD_eq).trans refused

/-- Whatever the calls meet, the topics before the first failure are subscribed
afterwards, and nothing else has changed. -/
theorem broker_subscribe_obtained (thing : String) (lockTimeout : Nat) (id : MailboxId)
    (conditions : List Condition) (b : Broker) :
    (subscribe thing lockTimeout id conditions b).broker =
      { b with table := subscribedToAll (obtained thing b.online conditions) id b.table } := by
  rw [subscribe, obtained]
  cases known : of thing with
  | error fault => rfl
  | ok topics =>
      exact (subscribeEach_granted (nonempty_of_known known) lockTimeout id conditions b).1

/-- A bridge that gives up lacks at least the topic whose call has failed. -/
theorem obtained_of_failed {fault : Fault} (known : of thing = .ok topics)
    (failed : (subscribe thing lockTimeout id conditions b).result = .error fault) :
    ∃ topic rest, topics = obtained thing b.online conditions ++ topic :: rest ∧
      refusal lockTimeout b.online
        (conditions.getD (obtained thing b.online conditions).length .clear) = some fault := by
  simp only [subscribe, obtained, known] at failed ⊢
  obtain ⟨finished, -⟩ | ⟨topic, rest, fault', cut, cause, failed'⟩ :=
    (subscribeEach_granted (nonempty_of_known known) lockTimeout id conditions b).2
  · cases finished.symm.trans failed
  · obtain rfl := Except.error.inj (failed'.symm.trans failed)
    exact ⟨topic, rest, cut, cause⟩

end UpdateTopics

end UpdateBridge
