import UpdateBridge.Proofs.Telemetry.Schedule
import UpdateBridge.Proofs.Topic.Naming

/-!
# Readings are attempted within a bounded time

A publisher that has called for a reading looks for the next one when its caller's
patience, one longest pause and its own spacing are over, at the latest; a
publisher that waits or pauses looks for one at a moment that is known
(`LooksBy`). Each time it looks while a reading is left it calls for one. So the
readings that were accepted are all attempted up to a moment that can be told in
advance, whatever happens in the meantime, and if no more can come the publisher
is done by then.
-/

namespace UpdateBridge

/-- A publisher that is created publishes on the topic of its device. -/
theorem Publisher.create_eq_ok {device : String} {interval spacing now : Nat} {p : Publisher}
    (created : create device interval spacing now = .ok p) :
    p = ⟨device ++ "/", now, interval, spacing, 0, [], 0,
      if interval = 0 then .crashed .zeroPeriod else .waiting⟩ := by
  cases named : Topic.readingsOf Telemetry.topicLimit device with
  | error fault =>
      rw [create, named] at created
      cases created
  | ok topic =>
      rw [create, named] at created
      obtain rfl := Except.ok.inj created
      rw [Topic.readingsOf, Topic.ofClient, Topic.build_eq] at named
      split at named
      · cases named
      · split at named
        · obtain rfl := Except.ok.inj named
          rw [String.join_cons, String.join_cons, String.join_nil, String.append_empty]
        · cases named

namespace Station

open SharedClient

variable {s s' r start : Station} {patience moment soon latest n : Nat} {plan : List Conduct}
  {topic : String} {supply accepted : List (List UInt8)} {others called : List Call}
  {tickets : List Ticket} {closed : Prop}

/-- How long a call and the pause after it can take. -/
def delay (s : Station) (patience : Nat) : Nat :=
  patience + Pause.longest + Pause.length s.publisher.spacing

/-- The publisher looks for a reading at this moment, or earlier. -/
inductive LooksBy (s : Station) (patience soon : Nat) : Prop where
  | round : s.publisher.stage = .waiting → s.now ≤ soon → s.publisher.nextRound ≤ soon →
      LooksBy s patience soon
  | again {till : Nat} : s.publisher.stage = .pausing till → s.now ≤ soon → till ≤ soon →
      LooksBy s patience soon
  | told {t : Ticket} : s.publisher.stage = .publishing t.number → t ∈ s.client.known →
      t.issued + s.delay patience ≤ soon → LooksBy s patience soon

/-- So many readings have been attempted, and the publisher is done if it is to be. -/
def Through (s : Station) (n : Nat) (closed : Prop) : Prop :=
  n ≤ s.publisher.attempts.length ∧ (closed → ∃ moment, s.publisher.stage = .over moment)

/-- So many readings will have been attempted by then. -/
def Owes (s : Station) (patience n latest : Nat) : Prop :=
  ∃ soon, s.LooksBy patience soon ∧
    soon + (n - s.publisher.attempts.length) * s.delay patience ≤ latest

/-- What the publisher is bound to do it is still bound to do after something else
has happened. -/
theorem Owes.later (owes : s.Owes patience n latest) (same : s'.publisher = s.publisher)
    (present : ∀ t soon, s.publisher.due? = some t → t ≤ soon → s.now ≤ soon → s'.now ≤ soon)
    (known : ∀ t ∈ s.client.known, t ∈ s'.client.known) : s'.Owes patience n latest := by
  obtain ⟨soon, looks, budget⟩ := owes
  rw [Owes, delay, same]
  refine ⟨soon, ?_, budget⟩
  cases looks with
  | round waiting before due =>
      have next : s.publisher.due? = some s.publisher.nextRound := by rw [Publisher.due?, waiting]
      exact .round (same ▸ waiting) (present _ soon next due before) (same ▸ due)
  | @again till pausing before due =>
      have next : s.publisher.due? = some till := by rw [Publisher.due?, pausing]
      exact .again (same ▸ pausing) (present _ soon next due before) due
  | told publishing member due =>
      refine .told (same ▸ publishing) (known _ member) ?_
      rwa [delay, same]

namespace Lawful

/-- What was accepted has been attempted or is left. -/
theorem length_supply (hs : s.Lawful patience plan topic supply others tickets) :
    s.publisher.attempts.length + s.readings.items.length = supply.length := by
  have supplied := congrArg List.length hs.supplied
  have numbers := congrArg List.length hs.numbers
  simp only [List.length_append, List.length_map] at supplied numbers
  omega

theorem now_le (hs : s.Lawful patience plan topic supply others tickets)
    (looks : s.LooksBy patience soon) : s.now ≤ soon := by
  cases looks with
  | round _ present _ => exact present
  | again _ present _ => exact present
  | told publishing member due =>
      obtain ⟨-, u, issued, same, before⟩ := hs.calling _ publishing
      obtain rfl := hs.steady.eq_of_number (hs.steady.mem_known.mp member) issued same
      rw [delay] at due
      exact Nat.le_trans before (by omega)

/-- A publisher that is not done looks for a reading some time. -/
theorem over_or_looksBy (hs : s.Lawful patience plan topic supply others tickets) :
    (∃ moment, s.publisher.stage = .over moment) ∨ ∃ soon, s.LooksBy patience soon := by
  match stage : s.publisher.stage with
  | .waiting => exact .inr ⟨_, .round stage (Nat.le_max_left _ _) (Nat.le_max_right _ _)⟩
  | .pausing till => exact .inr ⟨_, .again stage (Nat.le_max_left _ _) (Nat.le_max_right _ _)⟩
  | .publishing number =>
      obtain ⟨-, t, member, rfl, -⟩ := hs.calling number stage
      exact .inr ⟨_, .told stage (hs.steady.mem_known.mpr member) (Nat.le_refl _)⟩
  | .over moment => exact .inl ⟨moment, rfl⟩
  | .crashed crash => exact absurd stage (hs.running crash)

/-- With each look one reading less is owed, until none is left. -/
theorem check_owes (hs : s.Lawful patience plan topic supply others tickets)
    (free : s.publisher.finished = s.publisher.attempts) (enough : n ≤ supply.length)
    (last : closed → s.readings.ended = true ∧ supply.length = n) (present : s.now ≤ soon)
    (budget : soon + (n - s.publisher.attempts.length) * s.delay patience ≤ latest) :
    s.check.Through n closed ∨ s.check.Owes patience n latest := by
  have supplied := hs.length_supply
  cases next : s.readings.items with
  | cons reading left =>
      rw [check_cons next]
      rw [next, List.length_cons] at supplied
      have made : (s.attempt reading left).publisher.attempts.length =
          s.publisher.attempts.length + 1 := List.length_append
      obtain less | enough := Nat.lt_or_ge s.publisher.attempts.length n
      · right
        have lawful := hs.attempt free next
        refine ⟨s.now + s.delay patience,
          .told (t := s.client.nextTicket (Publisher.call topic reading)) rfl
            (lawful.steady.mem_known.mpr ?_) (Nat.le_refl _), ?_⟩
        · exact List.mem_append_right _ List.mem_cons_self
        · rw [made]
          show s.now + s.delay patience + _ * s.delay patience ≤ latest
          have one : n - s.publisher.attempts.length =
              n - (s.publisher.attempts.length + 1) + 1 := by
            omega
          rw [one, Nat.succ_mul] at budget
          omega
      · left
        refine ⟨by rw [made]; omega, fun now => ?_⟩
        obtain ⟨-, same⟩ := last now
        omega
  | nil =>
      rw [next, List.length_nil] at supplied
      left
      cases ended : s.readings.ended with
      | true =>
          rw [check_of_ended next ended]
          exact ⟨by show n ≤ s.publisher.attempts.length; omega, fun _ => ⟨s.now, rfl⟩⟩
      | false =>
          rw [check_of_empty next ended]
          refine ⟨by show n ≤ s.publisher.attempts.length; omega, fun now => ?_⟩
          rw [(last now).1] at ended
          cases ended

/-- The publisher gets on with what it owes. -/
theorem acts_owes (hs : s.Lawful patience plan topic supply others tickets)
    (acted : s.act? = some s') (enough : n ≤ supply.length)
    (last : closed → s.readings.ended = true ∧ supply.length = n)
    (owes : s.Owes patience n latest) : s'.Through n closed ∨ s'.Owes patience n latest := by
  obtain ⟨soon, by_then, budget⟩ := owes
  have present := hs.now_le by_then
  obtain ⟨r, looks, rfl⟩ | ⟨number, e, publishing, ending, rfl⟩ := act_cases acted
  · obtain ⟨lawful, free⟩ := hs.looks looks
    have same : r.readings = s.readings ∧ r.now = s.now ∧
        r.publisher.attempts = s.publisher.attempts ∧ r.delay patience = s.delay patience := by
      cases looks <;> exact ⟨rfl, rfl, rfl, rfl⟩
    obtain ⟨readings, now, attempts, delay⟩ := same
    refine lawful.check_owes free enough (fun all => readings ▸ last all) (now ▸ present) ?_
    rwa [attempts, delay]
  · right
    obtain ⟨-, t, member, rfl, before⟩ := hs.calling number publishing
    have after : (s.afterCall e).publisher.stage =
        .pausing (s.now + Pause.length s.publisher.spacing) ∧
        (s.afterCall e).now = s.now ∧
        (s.afterCall e).publisher.attempts = s.publisher.attempts ∧
        (s.afterCall e).delay patience = s.delay patience := by
      rw [Station.afterCall]
      cases e.result <;> exact ⟨rfl, rfl, rfl, rfl⟩
    obtain ⟨pausing, now, attempts, delay⟩ := after
    refine ⟨soon, .again pausing (now ▸ present) ?_, ?_⟩
    · cases by_then with
      | round waiting _ _ =>
          rw [publishing] at waiting
          cases waiting
      | again pausing _ _ =>
          rw [publishing] at pausing
          cases pausing
      | @told u publishing' member' due =>
          rw [publishing] at publishing'
          have same : u = t := hs.steady.eq_of_number member (hs.steady.mem_known.mp member')
            (PublisherStage.publishing.inj publishing').symm
          rw [same, Station.delay] at due
          show s.client.now + Pause.length s.publisher.spacing ≤ soon
          omega
    · rwa [attempts, delay]

end Lawful

/-- The publisher neither withdraws an attempt nor ends its mailbox. -/
theorem check_keeps (s : Station) :
    s.check.readings.ended = s.readings.ended ∧
      s.publisher.attempts.length ≤ s.check.publisher.attempts.length := by
  cases next : s.readings.items with
  | cons reading left =>
      rw [check_cons next]
      exact ⟨rfl, (List.prefix_append _ _).length_le⟩
  | nil =>
      cases ended : s.readings.ended with
      | true =>
          rw [check_of_ended next ended]
          exact ⟨ended, Nat.le_refl _⟩
      | false =>
          rw [check_of_empty next ended]
          exact ⟨ended, Nat.le_refl _⟩

theorem acts_keeps (acted : s.act? = some s') :
    s'.readings.ended = s.readings.ended ∧
      s.publisher.attempts.length ≤ s'.publisher.attempts.length := by
  obtain ⟨r, looks, rfl⟩ | ⟨number, e, -, -, rfl⟩ := act_cases acted
  · have same : r.readings = s.readings ∧ r.publisher.attempts = s.publisher.attempts := by
      cases looks <;> exact ⟨rfl, rfl⟩
    rw [← same.1, ← same.2]
    exact r.check_keeps
  · rw [afterCall]
    cases e.result <;> exact ⟨rfl, Nat.le_refl _⟩

/-- Readings that have ended stay as they are. -/
theorem Course.ended (course : Course start accepted called s)
    (ended : start.readings.ended = true) : s.readings.ended = true ∧ accepted = [] := by
  induction course with
  | begin => exact ⟨ended, rfl⟩
  | acts _ acted ih => exact ⟨(acts_keeps acted).1.trans ih.1, ih.2⟩
  | passes _ _ _ _ _ ih => exact ih
  | accepts reading _ taken ih =>
      have goes := (Mailbox.post_eq_ok taken).1
      rw [ih.1] at goes
      cases goes
  | ends _ ih => exact ⟨rfl, ih.2⟩
  | calls _ _ ih => exact ih
  | switches _ _ ih => exact ih

/-- What is owed at the beginning of a course is paid in its time. -/
theorem Course.pays (course : Course start accepted called s)
    (begun : start.Lawful patience plan topic supply others tickets)
    (state : start.Through supply.length (start.readings.ended = true) ∨
      start.Owes patience supply.length latest) :
    s.Through supply.length (start.readings.ended = true) ∨
      s.Owes patience supply.length latest := by
  induction course with
  | begin => exact state
  | @acts accepted called s s' course acted ih =>
      obtain ⟨made, hs⟩ := course.lawful begun
      obtain ⟨enough, done⟩ | owes := ih
      · refine .inl ⟨Nat.le_trans enough (acts_keeps acted).2, fun all => ?_⟩
        obtain ⟨moment, stage⟩ := done all
        rw [act?, stage] at acted
        cases acted
      · refine hs.acts_owes acted ?_ (fun all => ?_) owes
        · rw [List.length_append]
          exact Nat.le_add_right _ _
        · obtain ⟨ended, none⟩ := course.ended all
          rw [none, List.append_nil]
          exact ⟨ended, rfl⟩
  | passes moment course idle later early ih =>
      obtain ⟨made, hs⟩ := course.lawful begun
      obtain ⟨made', hs'⟩ := (course.passes moment idle later early).lawful begun
      refine ih.imp id fun owes => owes.later rfl (fun t soon next due _ => ?_) fun t member => ?_
      · obtain ⟨d, first, le⟩ := due_le_publisher next
        show (SharedClient.jump _ moment).now ≤ soon
        rw [(hs.steady.jump_of_le later).accounts.now_eq]
        exact Nat.le_trans (Nat.le_trans (early d first) le) due
      · exact (hs.steady.jump_of_le later).mem_known.mpr (hs.steady.mem_known.mp member)
  | accepts reading _ taken ih =>
      exact ih.imp id fun owes => owes.later rfl (fun _ _ _ _ present => present) fun _ => id
  | ends _ ih =>
      exact ih.imp id fun owes => owes.later rfl (fun _ _ _ _ present => present) fun _ => id
  | calls call course ih =>
      obtain ⟨made, hs⟩ := course.lawful begun
      have steady := hs.steady.issue call
      refine ih.imp id fun owes => owes.later rfl (fun t soon _ _ present => ?_) fun t member => ?_
      · show (SharedClient.issue _ call).2.now ≤ soon
        rwa [steady.accounts.now_eq]
      · exact steady.mem_known.mpr (List.mem_append_left _ (hs.steady.mem_known.mp member))
  | switches online _ ih =>
      exact ih.imp id fun owes => owes.later rfl (fun _ _ _ _ present => present) fun _ => id

/-- From every lawful station on, there is a moment after which the readings that
were accepted have been attempted. -/
theorem Lawful.through_after (hs : s.Lawful patience plan topic supply others tickets) :
    ∃ latest, ∀ more called s', s.Course more called s' → latest < s'.now →
      s'.Through supply.length (s.readings.ended = true) := by
  obtain ⟨latest, state⟩ : ∃ latest, s.Through supply.length (s.readings.ended = true) ∨
      s.Owes patience supply.length latest := by
    obtain ⟨moment, stage⟩ | ⟨soon, looks⟩ := hs.over_or_looksBy
    · have supplied := hs.length_supply
      rw [(hs.done moment stage).2] at supplied
      exact ⟨0, .inl ⟨Nat.le_of_eq supplied.symm, fun _ => ⟨moment, stage⟩⟩⟩
    · exact ⟨_, .inr ⟨soon, looks, Nat.le_refl _⟩⟩
  refine ⟨latest, fun more called s' course past => ?_⟩
  obtain through | ⟨soon, looks, budget⟩ := course.pays hs state
  · exact through
  · obtain ⟨made, lawful⟩ := course.lawful hs
    have present := lawful.now_le looks
    omega

/-! ## The publisher's calls among all calls -/

namespace Lawful

/-- The publisher's calls are those for the first readings. -/
theorem call?_own (hs : s.Lawful patience plan topic supply others tickets) :
    s.publisher.attempts.map s.client.call? =
      (supply.take s.publisher.attempts.length).map fun reading =>
        some (Publisher.call topic reading) := by
  have length : s.publisher.attempts.length = ((s.own tickets).map Ticket.call).length := by
    rw [hs.numbers, List.length_map, List.length_map]
  calc s.publisher.attempts.map s.client.call?
      = (s.own tickets).map fun t => s.client.call? t.number := by
        rw [hs.numbers, List.map_map]
        rfl
    _ = ((s.own tickets).map Ticket.call).map some := by
        rw [List.map_map]
        exact List.map_congr_left fun t member => hs.steady.call?_eq (List.mem_filter.mp member).1
    _ = ((supply.map (Publisher.call topic)).take s.publisher.attempts.length).map some := by
        rw [← hs.supplied, length, List.take_left]
    _ = _ := by
        rw [← List.map_take, List.map_map]
        rfl

/-- All other calls are those of the others. -/
theorem call?_foreign (hs : s.Lawful patience plan topic supply others tickets) :
    ((List.range s.client.issued).filter fun n => !s.publisher.attempts.contains n).map
      s.client.call? = others.map some := by
  rw [← hs.steady.accounts.numbers, List.filter_map, List.map_map, ← hs.others_eq, List.map_map]
  exact List.map_congr_left fun t member => hs.steady.call?_eq (List.mem_filter.mp member).1

theorem attempts_lt (hs : s.Lawful patience plan topic supply others tickets) :
    s.publisher.attempts.Pairwise (· < ·) := by
  have ordered : (tickets.map Ticket.number).Pairwise (· < ·) := by
    rw [hs.steady.accounts.numbers]
    exact List.pairwise_lt_range
  rw [hs.numbers]
  exact ordered.sublist (List.filter_sublist.map Ticket.number)

end Lawful

/-- A station that begins with a client that others have used. -/
theorem lawful_create {c : SharedClient} {now interval spacing : Nat} {device : String}
    {publisher : Publisher} (readings : Mailbox (List UInt8))
    (hc : c.Steady patience plan now tickets) (timely : c.Timely patience) (positive : 0 < interval)
    (created : Publisher.create device interval spacing c.now = .ok publisher) :
    (create c readings publisher).Lawful patience plan (device ++ "/") readings.items
      (tickets.map Ticket.call) tickets := by
  have named := Publisher.create_eq_ok created
  rw [if_neg (Nat.ne_of_gt positive)] at named
  obtain rfl := named
  have nobody : tickets.filter (fun _ => false) = [] := List.filter_false tickets
  exact {
    steady := hc.present
    timely
    topic_eq := rfl
    positive
    numbers := by rw [own]; exact (congrArg (List.map Ticket.number) nobody).symm
    supplied := by rw [own]; exact congrArg (List.map Ticket.call · ++ _) nobody
    others_eq := congrArg (List.map Ticket.call) (List.filter_true tickets)
    told := ⟨fun n member => absurd member List.not_mem_nil, rfl⟩
    calling := fun n publishing => by cases publishing
    done := fun moment stage => by cases stage
    running := fun crash crashed => by cases crashed }

/-- The publisher calls the client once for each reading that its mailbox accepts,
in the order of the mailbox, on the topic of its device and to be delivered at most
once; all other calls are those of the others. When it is done the readings have
ended, every one of them was attempted and every attempt is over, and it reports
how many were successful. From every point on there is a moment after which the
readings accepted by then have been attempted, and after which it is done if they
have ended; and time can always pass. The patience of callers, the link, the
interval and the pauses of the publisher, the calls of others and the moments at
which readings come are arbitrary. -/
theorem readings_attempted_once (patience : Nat) (plan : List Conduct) (broker : Broker)
    (earlier : List Action) (box : Mailbox (List UInt8)) (device : String)
    (interval spacing : Nat) (publisher : Publisher) (accepted : List (List UInt8))
    (called : List Call) (s : Station) (positive : 0 < interval)
    (created : Publisher.create device interval spacing
      ((fresh patience plan broker).run earlier).now = .ok publisher)
    (course : Course (create ((fresh patience plan broker).run earlier) box publisher)
      accepted called s) :
    let supply := box.items ++ accepted
    let attempts := s.publisher.attempts
    attempts.Pairwise (· < ·) ∧
    attempts.map s.client.call? = (supply.take attempts.length).map (fun reading =>
      some (.publish ⟨device ++ "/", reading⟩ .atMostOnce)) ∧
    ((List.range s.client.issued).filter fun n => !attempts.contains n).map s.client.call? =
      (earlier.flatMap Action.calls ++ called).map some ∧
    (∀ moment, s.publisher.stage = .over moment →
      s.readings.ended = true ∧ attempts.length = supply.length ∧
        (∀ n ∈ attempts, (s.client.ending? n).isSome) ∧
        s.publisher.published = attempts.countP s.client.succeeded) ∧
    (∃ latest, ∀ more called' s', s.Course more called' s' → latest < s'.now →
      supply.length ≤ s'.publisher.attempts.length ∧
        (s.readings.ended = true → ∃ moment, s'.publisher.stage = .over moment)) ∧
    ∀ moment, s.now ≤ moment →
      s.Course [] [] (s.advanceTo moment) ∧ (s.advanceTo moment).now = moment := by
  intro supply attempts
  have fresh := Steady.fresh patience plan broker
  obtain ⟨now, before, calls, ran⟩ := fresh.run earlier
  have timely := fresh.timely_run (.of_free rfl) earlier
  have begun := lawful_create box ran timely positive created
  obtain ⟨made, hs⟩ := course.lawful begun
  refine ⟨hs.attempts_lt, hs.call?_own, ?_, fun moment stage => ?_, hs.through_after,
    fun moment le => Course.begin.advanceTo hs moment le⟩
  · rw [← calls]
    exact hs.call?_foreign
  · obtain ⟨ended, nothing⟩ := hs.done moment stage
    have finished : s.publisher.finished = attempts := by rw [Publisher.finished, stage]
    have told := hs.told
    have length := hs.length_supply
    rw [finished] at told
    rw [nothing] at length
    exact ⟨ended, length, told.ended, told.count_eq⟩

/-- Two readings come while somebody else is about to take the client: the first
attempt finds it taken for too long, the second one is successful. -/
theorem readings_attempted_once_contended :
    let c := fresh 20 [⟨48, none⟩] Broker.fresh
    let publisher : Publisher := ⟨"core2/", 0, 100, 5, 0, [], 0, .waiting⟩
    let start := create c (Mailbox.empty 2) publisher
    let call : Call := .subscribe "core2/#" .atMostOnce 0
    let s :=
      ((((start.offer [[1], [2]]).2.advanceTo 95).callByOther call).endReadings).advanceTo 300
    0 < 100 ∧ Publisher.create "core2" 100 5 (c.run []).now = .ok publisher ∧
      start.Course [[1], [2]] [call] s ∧ s.publisher.stage = .over 148 ∧
      s.publisher.attempts = [1, 2] ∧ s.publisher.published = 1 ∧
      s.publisher.attempts.map s.client.call? =
        [some (.publish ⟨"core2/", [1]⟩ .atMostOnce), some (.publish ⟨"core2/", [2]⟩ .atMostOnce)] ∧
      s.publisher.published = s.publisher.attempts.countP s.client.succeeded := by
  intro c publisher start call s
  have created : Publisher.create "core2" 100 5 (c.run []).now = .ok publisher := by
    decide +kernel
  have begun := lawful_create (Mailbox.empty 2) (Steady.fresh 20 [⟨48, none⟩] Broker.fresh)
    (.of_free rfl) (by decide) created
  obtain ⟨taken, among, count, offered⟩ := Course.offer begun .begin [[1], [2]]
  obtain rfl : taken = [[1], [2]] := among.eq_of_length (count.trans (by decide +kernel))
  have waited := (offered.advanceTo begun 95 (by decide +kernel)).1
  have course := (((waited.callByOther begun call).endReadings begun).advanceTo begun 300
    (by decide +kernel)).1
  have stage : s.publisher.stage = .over 148 := by decide +kernel
  have attempts : s.publisher.attempts = [1, 2] := by decide +kernel
  obtain ⟨-, calls, -, done, -⟩ := readings_attempted_once 20 [⟨48, none⟩] Broker.fresh []
    (Mailbox.empty 2) "core2" 100 5 publisher [[1], [2]] [call] s (by decide) created course
  obtain ⟨-, -, -, published⟩ := done 148 stage
  refine ⟨by decide, created, course, stage, attempts, by decide +kernel, ?_, published⟩
  rw [calls, attempts]
  rfl

end Station

end UpdateBridge
