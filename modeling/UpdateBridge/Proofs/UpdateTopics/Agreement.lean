import Mathlib.Data.List.Forall2
import Mathlib.Data.List.Nodup
import UpdateBridge.Proofs.Broker.Delivery
import UpdateBridge.Proofs.Intake.Dispatch
import UpdateBridge.Proofs.Route.Exclusive
import UpdateBridge.UpdateTopics

/-!
# The update topics of a thing and the update routes

A bridge subscribes to topics that name its thing, and the messages that arrive
are sorted by routes that leave the thing open. The two tables are written
apart and agree: the update topics of a thing cover what the routes cover and
what has this thing as its third level (`covers_underThing`), topic by topic.
Hence what the routes do not overlap the topics do not overlap either, and a
broker posts a message to a bridge's mailbox at most once
(`mailbox?_deliver_subscribed`).
-/

namespace UpdateBridge

namespace UpdateTopics

open Topic (NamesThing underThing covers matchesFilter)

variable {thing name suffix : String} {topics : List String} {b : Broker} {id : MailboxId}

/-- What the messages on the update topics are, topic by topic. -/
def kinds : List EventKind := [.jobDocument, .jobDocument, .fileBlock]

theorem mapM_eq_ok_iff {α β : Type} {f : α → Except Fault β} {items : List α} {results : List β} :
    items.mapM f = .ok results ↔ List.Forall₂ (fun a b => f a = .ok b) items results := by
  induction items generalizing results with
  | nil => simp [pure, Except.pure, eq_comm]
  | cons a items ih =>
      rw [List.mapM_cons, List.forall₂_cons_left_iff]
      cases first : f a with
      | error fault => simp [bind, Except.bind]
      | ok b =>
          simp only [← ih, Except.ok.injEq]
          cases items.mapM f with
          | error fault => simp [bind, Except.bind]
          | ok rest => simp [bind, Except.bind, pure, Except.pure, @eq_comm _ results]

/-- A thing has its update topics if its name leaves room for the longest of
them, and then it has all three. -/
theorem of_eq_ok_iff :
    of thing = .ok topics ↔
      NamesThing thing ∧ thing.utf8ByteSize ≤ 92 ∧ topics = suffixes.map (underThing thing) := by
  have sizes : "jobs/notify-next".utf8ByteSize = 16 ∧
      "jobs/$next/get/accepted".utf8ByteSize = 23 ∧ "streams/#".utf8ByteSize = 9 := by decide
  rw [of, mapM_eq_ok_iff, suffixes]
  simp only [Topic.ofThing_eq_ok_iff, Topic.utf8ByteSize_underThing, sizes, limit,
    List.forall₂_cons_left_iff, List.forall₂_nil_left_iff, List.map_cons, List.map_nil]
  constructor
  · rintro ⟨_, _, ⟨-, -, rfl⟩, ⟨_, _, ⟨names, fits, rfl⟩, ⟨_, _, ⟨-, -, rfl⟩, rfl, rfl⟩, rfl⟩, rfl⟩
    exact ⟨names, by omega, rfl⟩
  · rintro ⟨names, fits, rfl⟩
    exact ⟨_, _, ⟨names, by omega, rfl⟩, ⟨_, _, ⟨names, by omega, rfl⟩,
      ⟨_, _, ⟨names, by omega, rfl⟩, rfl, rfl⟩, rfl⟩, rfl⟩

/-- The routes are the update topics with `+` in the place of the thing. -/
theorem updates_eq :
    Route.updates =
      (suffixes.zip kinds).map fun entry => ⟨underThing "+" entry.1, entry.2⟩ := by
  decide

theorem filters_updates : Route.updates.map Route.filter = suffixes.map (underThing "+") := by
  decide

/-- A filter under a thing covers the names that the same filter under any
thing covers and whose third level is this thing. -/
theorem covers_underThing (names : NamesThing thing) (suffix : String) :
    covers (underThing thing suffix) name = true ↔
      covers (underThing "+" suffix) name = true ∧
        (Topic.levels name.toList)[2]? = some thing.toList := by
  rw [Topic.covers_iff, Topic.covers_iff, Topic.matchesFilter_underThing names]

/-- The update topics of a thing do not overlap. -/
theorem pairwise_topics (names : NamesThing thing) (name : String) :
    (suffixes.map (underThing thing)).Pairwise fun t u =>
      ¬(covers t name = true ∧ covers u name = true) := by
  have routes := Route.updates_exclusive name
  rw [Route.Exclusive, ← List.pairwise_map (f := Route.filter)
    (R := fun t u => ¬(covers t name = true ∧ covers u name = true)), filters_updates,
    List.pairwise_map] at routes
  rw [List.pairwise_map]
  refine routes.imp ?_
  rintro s t apart ⟨first, second⟩
  exact apart ⟨((covers_underThing names s).mp first).1, ((covers_underThing names t).mp second).1⟩

theorem kindOf_of_covers {kind : EventKind} (named : name ≠ "")
    (entry : (suffix, kind) ∈ suffixes.zip kinds)
    (covered : covers (underThing "+" suffix) name = true) :
    Route.kindOf name Route.updates = .ok kind := by
  have member : ⟨underThing "+" suffix, kind⟩ ∈ Route.updates := by
    rw [updates_eq]
    exact List.mem_map_of_mem entry
  exact Route.kindOf_of_mem_updates named member covered

/-- Some update topic of a thing covers a name if a route does and the name's
third level is the thing. -/
theorem exists_covers_iff (names : NamesThing thing) (named : name ≠ "") :
    (∃ topic ∈ suffixes.map (underThing thing), covers topic name = true) ↔
      (∃ kind, Route.kindOf name Route.updates = .ok kind ∧ kind ≠ .ignored) ∧
        (Topic.levels name.toList)[2]? = some thing.toList := by
  have routes : (∃ route ∈ Route.updates, covers route.filter name = true) ↔
      ∃ suffix ∈ suffixes, covers (underThing "+" suffix) name = true := by
    have filters : (∃ filter ∈ Route.updates.map Route.filter, covers filter name = true) ↔
        ∃ filter ∈ suffixes.map (underThing "+"), covers filter name = true := by
      rw [filters_updates]
    simpa only [List.mem_map, exists_exists_and_eq_and] using filters
  rw [Route.kindOf_updates_iff named, routes]
  constructor
  · rintro ⟨topic, member, covered⟩
    obtain ⟨suffix, listed, rfl⟩ := List.mem_map.mp member
    obtain ⟨covered, third⟩ := (covers_underThing names suffix).mp covered
    exact ⟨⟨suffix, listed, covered⟩, third⟩
  · rintro ⟨⟨suffix, listed, covered⟩, third⟩
    exact ⟨_, List.mem_map_of_mem listed, (covers_underThing names suffix).mpr ⟨covered, third⟩⟩

/-- What follows for one name from the topics of a thing. -/
structure Agreement (thing : String) (topics : List String) (name : String) : Prop where
  /-- No two of the topics take the name. -/
  at_most_one : topics.Pairwise fun t u =>
    ¬(matchesFilter name t = .ok true ∧ matchesFilter name u = .ok true)
  taken_iff : (∃ topic ∈ topics, matchesFilter name topic = .ok true) ↔
    (∃ kind, Route.kindOf name Route.updates = .ok kind ∧ kind ≠ .ignored) ∧
      (Topic.levels name.toList)[2]? = some thing.toList
  kind_eq : ∀ entry ∈ topics.zip kinds, matchesFilter name entry.1 = .ok true →
    Route.kindOf name Route.updates = .ok entry.2

theorem agreement (names : NamesThing thing) (named : name ≠ "") :
    Agreement thing (suffixes.map (underThing thing)) name where
  at_most_one := by
    simpa only [Topic.covers_iff] using pairwise_topics names name
  taken_iff := by
    simpa only [Topic.covers_iff] using exists_covers_iff names named
  kind_eq := by
    rw [List.zip_map_left]
    rintro entry member taken
    obtain ⟨⟨suffix, kind⟩, listed, rfl⟩ := List.mem_map.mp member
    exact kindOf_of_covers named listed
      ((covers_underThing names suffix).mp (Topic.covers_iff.mpr taken)).1

/-- A topic that the update topics of two things cover has the names of both as
its third level. -/
theorem eq_of_covers {other : String} (names : NamesThing thing) (names' : NamesThing other)
    (first : ∃ topic ∈ suffixes.map (underThing thing), covers topic name = true)
    (second : ∃ topic ∈ suffixes.map (underThing other), covers topic name = true) :
    thing = other := by
  simp only [List.mem_map, exists_exists_and_eq_and] at first second
  obtain ⟨s, -, covered⟩ := first
  obtain ⟨t, -, covered'⟩ := second
  have third := ((covers_underThing names s).mp covered).2
  rw [((covers_underThing names' t).mp covered').2, Option.some_inj] at third
  exact (String.toList_inj.mp third).symm

/-! ## Subscribing -/

/-- The table after the topics were subscribed to a mailbox in order. -/
def subscribedToAll (topics : List String) (id : MailboxId) (table : List Subscription) :
    List Subscription :=
  topics.foldl (fun table topic => Broker.subscribedTo topic id table) table

theorem broker_of_subscribed {lockTimeout : Nat} {condition : Condition} {topic : String}
    (done : ((Call.subscribe topic .atLeastOnce id).attempt lockTimeout condition b).result
      = .ok ()) :
    ((Call.subscribe topic .atLeastOnce id).attempt lockTimeout condition b).broker =
      { b with table := Broker.subscribedTo topic id b.table } := by
  cases condition with
  | clear =>
      rw [Call.attempt, Call.perform, Call.onBroker] at done ⊢
      obtain ⟨cause, refused⟩ | accepted := b.subscribe_cases topic id
      · rw [refused] at done
        cases done
      · rw [accepted]
  | contended => cases done
  | failing cause => cases done

theorem broker_subscribeEach {lockTimeout : Nat} {conditions : List Condition}
    (done : (subscribeEach lockTimeout id conditions b topics).result = .ok ()) :
    (subscribeEach lockTimeout id conditions b topics).broker =
      { b with table := subscribedToAll topics id b.table } := by
  induction topics generalizing conditions b with
  | nil => rfl
  | cons topic topics ih =>
      rw [subscribeEach] at done ⊢
      cases first : ((Call.subscribe topic .atLeastOnce id).attempt lockTimeout
          (conditions.headD .clear) b).result with
      | error fault =>
          simp only [first] at done
          cases done
      | ok =>
          simp only [first] at done ⊢
          rw [ih done, broker_of_subscribed first]
          rfl

/-- Nothing keeps a bridge from subscribing while the broker is online. -/
theorem subscribeEach_of_online {lockTimeout : Nat} (online : b.online = true)
    (named : ∀ topic ∈ topics, topic ≠ "") :
    (subscribeEach lockTimeout id [] b topics).result = .ok () := by
  induction topics generalizing b with
  | nil => rfl
  | cons topic topics ih =>
      have accepted := Broker.subscribe_of_online online (named topic List.mem_cons_self) id
      have later := ih (b := { b with table := Broker.subscribedTo topic id b.table }) online
        fun other member => named other (List.mem_cons_of_mem topic member)
      rw [subscribeEach]
      simp only [List.headD_nil, Call.attempt, Call.perform, Call.onBroker, accepted, later,
        List.tail_nil]

theorem nonempty_of_known (known : of thing = .ok topics) : ∀ topic ∈ topics, topic ≠ "" := by
  obtain ⟨-, -, rfl⟩ := of_eq_ok_iff.mp known
  intro topic member
  obtain ⟨suffix, -, rfl⟩ := List.mem_map.mp member
  exact Topic.underThing_nonempty thing suffix

theorem subscribe_of_online {lockTimeout : Nat} (known : of thing = .ok topics)
    (online : b.online = true) : (subscribe thing lockTimeout id [] b).result = .ok () := by
  rw [subscribe, known]
  exact subscribeEach_of_online online (nonempty_of_known known)

/-- After its topics were subscribed, the bridge has them in the table and
nothing else has changed. -/
theorem broker_subscribe {lockTimeout : Nat} {conditions : List Condition}
    (known : of thing = .ok topics)
    (done : (subscribe thing lockTimeout id conditions b).result = .ok ()) :
    (subscribe thing lockTimeout id conditions b).broker =
      { b with table := subscribedToAll topics id b.table } := by
  rw [subscribe, known] at done ⊢
  exact broker_subscribeEach done

/-- Subscribing delivers nothing. -/
theorem mailbox?_subscribe {lockTimeout : Nat} {conditions : List Condition}
    (done : (subscribe thing lockTimeout id conditions b).result = .ok ()) (other : MailboxId) :
    (subscribe thing lockTimeout id conditions b).broker.mailbox? other = b.mailbox? other := by
  cases known : of thing with
  | error fault =>
      rw [subscribe, known] at done
      cases done
  | ok topics =>
      rw [broker_subscribe known done]
      rfl

/-- A mailbox that nothing was delivered to has the subscriptions to the topics
and no others. -/
theorem perm_subscribedToAll {table : List Subscription} (distinct : topics.Nodup)
    (fresh : ∀ topic ∈ topics, ⟨topic, id⟩ ∉ table) :
    (Broker.deliveringTo id (subscribedToAll topics id table)).Perm
      (topics.map (⟨·, id⟩) ++ Broker.deliveringTo id table) := by
  induction topics generalizing table with
  | nil => exact List.Perm.refl _
  | cons topic topics ih =>
      obtain ⟨new, distinct⟩ := List.nodup_cons.mp distinct
      have first := Broker.perm_subscribedTo (fresh topic List.mem_cons_self)
      have later : ∀ other ∈ topics, ⟨other, id⟩ ∉ Broker.subscribedTo topic id table := by
        intro other listed member
        have delivering := first.mem_iff.mp (List.mem_filter.mpr ⟨member, beq_self_eq_true id⟩)
        obtain same | older := List.mem_cons.mp delivering
        · exact new ((Subscription.mk.inj same).1 ▸ listed)
        · exact fresh other (List.mem_cons_of_mem _ listed) (List.mem_filter.mp older).1
      exact (ih distinct later).trans
        ((first.append_left _).trans List.perm_middle)

theorem underThing_injective (thing : String) : Function.Injective (underThing thing) := by
  intro s t same
  have texts := congrArg String.toList same
  simp only [underThing, String.toList_append, List.append_cancel_left_eq] at texts
  exact String.toList_inj.mp texts

theorem countP_of_pairwise {α : Type} {p : α → Bool} {items : List α}
    (apart : items.Pairwise fun a b => ¬(p a = true ∧ p b = true)) :
    items.countP p = if items.any p then 1 else 0 := by
  induction items with
  | nil => rfl
  | cons a items ih =>
      obtain ⟨first, apart⟩ := List.pairwise_cons.mp apart
      rw [List.countP_cons, ih apart, List.any_cons]
      by_cases here : p a = true
      · have none : items.any p = false := by
          rw [List.any_eq_false]
          intro b member also
          exact first b member ⟨here, also⟩
        simp [here, none]
      · simp [here]

/-- A mailbox that only the topics of a thing deliver to gets a message once if
one of the topics covers it, and not at all otherwise. -/
theorem posts_subscribedToAll {table : List Subscription} (known : of thing = .ok topics)
    (alone : ∀ s ∈ table, s.mailbox ≠ id) (name : String) :
    Broker.posts id name (subscribedToAll topics id table) =
      if topics.any (covers · name) then 1 else 0 := by
  obtain ⟨names, -, rfl⟩ := of_eq_ok_iff.mp known
  have distinct : (suffixes.map (underThing thing)).Nodup :=
    List.Nodup.map (underThing_injective thing) (by decide)
  have delivering := perm_subscribedToAll distinct fun topic _ member =>
    alone ⟨topic, id⟩ member rfl
  have none : Broker.deliveringTo id table = [] := by
    rw [Broker.deliveringTo, List.filter_eq_nil_iff]
    intro s member here
    exact alone s member (beq_iff_eq.mp here)
  rw [none, List.append_nil] at delivering
  rw [← countP_of_pairwise (pairwise_topics names name), Broker.posts_eq, delivering.countP_eq,
    List.countP_map]
  rfl

/-- A bridge that alone uses its mailbox gets a message once if one of its
topics covers it, and not at all otherwise. -/
theorem mailbox?_deliver_subscribed {lockTimeout : Nat} {conditions : List Condition}
    (known : of thing = .ok topics) (alone : ∀ s ∈ b.table, s.mailbox ≠ id)
    (done : (subscribe thing lockTimeout id conditions b).result = .ok ()) (message : Message) :
    ((subscribe thing lockTimeout id conditions b).broker.deliver message).broker.mailbox? id =
      (b.mailbox? id).map fun box =>
        if topics.any (covers · message.topic) then (box.post message).2 else box := by
  rw [broker_subscribe known done, Broker.mailbox?_deliver, posts_subscribedToAll known alone]
  congr 1
  funext box
  split
  · exact Mailbox.postAll_cons box message []
  · rfl

/-- The topics of a bridge and the routes agree, for every thing and every
topic. So a message that the topics bring in is posted once, for one kind of
event, is not ignored, and comes to no other thing's bridge. -/
theorem topics_agree_with_routes (thing : String) :
    ((∃ topics, of thing = .ok topics) ↔
      thing ≠ "" ∧ (∀ c ∈ thing.toList, c ≠ '/' ∧ c ≠ '+' ∧ c ≠ '#') ∧
        thing.utf8ByteSize ≤ 92) ∧
      ∀ topics, of thing = .ok topics →
        topics = suffixes.map (fun suffix => "$aws/things/" ++ thing ++ "/" ++ suffix) ∧
        (∀ name, name ≠ "" → Agreement thing topics name) ∧
        (∀ message, (∃ topic ∈ topics, matchesFilter message.topic topic = .ok true) →
          (∀ b id lockTimeout conditions, (∀ s ∈ b.table, s.mailbox ≠ id) →
            (subscribe thing lockTimeout id conditions b).result = .ok () →
            ((subscribe thing lockTimeout id conditions b).broker.deliver message).broker.mailbox?
              id = (b.mailbox? id).map fun box => (box.post message).2) ∧
          ∀ (σ : Type) (sink : Sink σ) (pool : Pool) (s : σ),
            (Intake.dispatch sink Route.updates message.topic message.payload pool s).outcome ≠
              .ignored) ∧
        ∀ other others, of other = .ok others → other ≠ thing → ∀ name,
          (∃ topic ∈ topics, matchesFilter name topic = .ok true) →
          ¬∃ topic ∈ others, matchesFilter name topic = .ok true := by
  refine ⟨?_, ?_⟩
  · constructor
    · rintro ⟨topics, known⟩
      obtain ⟨⟨nonempty, unreserved⟩, fits, -⟩ := of_eq_ok_iff.mp known
      exact ⟨nonempty, fun c member => Topic.isReserved_eq_false_iff.mp (unreserved c member), fits⟩
    · rintro ⟨nonempty, unreserved, fits⟩
      have names : NamesThing thing :=
        ⟨nonempty, fun c member => Topic.isReserved_eq_false_iff.mpr (unreserved c member)⟩
      exact ⟨_, of_eq_ok_iff.mpr ⟨names, fits, rfl⟩⟩
  · intro topics known
    obtain ⟨names, -, rfl⟩ := of_eq_ok_iff.mp known
    refine ⟨rfl, fun name named => agreement names named, ?_, ?_⟩
    · intro message taken
      simp only [← Topic.covers_iff] at taken
      refine ⟨?_, ?_⟩
      · intro b id lockTimeout conditions alone done
        simp only [mailbox?_deliver_subscribed known alone done, List.any_eq_true.mpr taken,
          if_true]
      · intro σ sink pool s
        have named : message.topic ≠ "" := by
          rintro unnamed
          obtain ⟨topic, -, covered⟩ := taken
          rw [unnamed, Topic.covers_empty] at covered
          cases covered
        obtain ⟨⟨kind, found, routed⟩, -⟩ := (exists_covers_iff names named).mp taken
        rw [Intake.dispatch_of_routed found routed]
        exact Intake.outcome_handOver sink kind message.payload pool s
    · intro other others known' apart name taken taken'
      obtain ⟨names', -, rfl⟩ := of_eq_ok_iff.mp known'
      simp only [← Topic.covers_iff] at taken taken'
      exact apart (eq_of_covers names' names taken' taken)

/-- A block for one thing comes to its bridge once and not to another's, whose
topics differ in the third level. -/
theorem topics_agree_with_routes_block :
    let block : Message := ⟨"$aws/things/core2/streams/fw/data", [1, 2]⟩
    let topics := ["$aws/things/core2/jobs/notify-next",
      "$aws/things/core2/jobs/$next/get/accepted", "$aws/things/core2/streams/#"]
    let b : Broker := (Broker.fresh.addMailbox (Mailbox.empty 4)).2
    of "core2" = .ok topics ∧ (subscribe "core2" 100 0 [] b).result = .ok () ∧
      Agreement "core2" topics block.topic ∧
      ((subscribe "core2" 100 0 [] b).broker.deliver block).broker.mailbox? 0 =
        some { (Mailbox.empty 4 : Mailbox Message) with items := [block] } ∧
      ∀ others, of "core3" = .ok others →
        ¬∃ topic ∈ others, matchesFilter block.topic topic = .ok true := by
  intro block topics b
  have known : of "core2" = .ok topics := by decide +kernel
  have done : (subscribe "core2" 100 0 [] b).result = .ok () := by rfl
  have taken : ∃ topic ∈ topics, matchesFilter block.topic topic = .ok true :=
    ⟨"$aws/things/core2/streams/#", by decide, by decide +kernel⟩
  obtain ⟨-, agree, once, apart⟩ := (topics_agree_with_routes "core2").2 topics known
  refine ⟨known, done, agree block.topic (by decide), ?_, ?_⟩
  · rw [(once block taken).1 b 0 100 [] (by decide) done]
    rfl
  · intro others known'
    exact apart "core3" others known' (by decide) block.topic taken

end UpdateTopics

end UpdateBridge
