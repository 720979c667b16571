import UpdateBridge.Proofs.Engine.Attendance
import UpdateBridge.Proofs.Exchange.Ownership

/-!
# What a scripted engine makes of a stream

However a stream of events is submitted and whoever else uses the pool meanwhile,
the engine takes the events up to the first that makes it stop, or all of them;
what it has kept, counted and asked for comes from these events alone
(`shortest_stopping_part`).

It gives back the buffer of each event that it takes. So the handles of these
events are not live afterwards, unless one that was stale before is handed out
anew; and a handle that is in none of them, and that nobody else uses, reaches
what it reached.

An event that says it is longer than memory goes ends the task while the engine
makes room to read it (`Attendance.Running.turn_of_overlong`).
-/

namespace UpdateBridge

open Pool (WithinGenerations)
open Exchange (buffers)

namespace Glance

theorem releases_eq (seen : List Glance) :
    releases seen = (buffers (events seen)).map .release := by
  rw [releases, buffers, List.map_filterMap]

end Glance

namespace Attendance

variable {unsubscribe : Bool} {script : Script} {capacity size depth : Nat} {a : Attendance}
variable {happening : Happening} {course : List Happening} {h : Handle} {payload : List UInt8}

/-- The handles that the pool has handed out. -/
def handedOut (capacity size : Nat) (a : Attendance) : List Handle :=
  Pool.issued ((Pool.create capacity size).run a.history).1

/-- The handles that came back to the pool. -/
def back (capacity size : Nat) (a : Attendance) : List Handle :=
  Pool.returned a.history ((Pool.create capacity size).run a.history).1

/-- Whether every event names a handle that was handed out before the event was
submitted, or none. -/
def Named (capacity size : Nat) (unsubscribe : Bool) (a : Attendance) : List Happening → Prop
  | [] => True
  | happening :: course =>
    (∀ h ∈ buffers happening.submits, h ∈ a.handedOut capacity size) ∧
      Named capacity size unsubscribe (a.meet unsubscribe happening) course

instance decidableNamed (capacity size : Nat) (unsubscribe : Bool) (a : Attendance) :
    (course : List Happening) → Decidable (Named capacity size unsubscribe a course)
  | [] => .isTrue trivial
  | happening :: course =>
    have := decidableNamed capacity size unsubscribe (a.meet unsubscribe happening) course
    inferInstanceAs (Decidable ((∀ h ∈ buffers happening.submits, h ∈ a.handedOut capacity size) ∧
      Named capacity size unsubscribe (a.meet unsubscribe happening) course))

theorem handedOut_meet (capacity size : Nat) (unsubscribe : Bool) (a : Attendance)
    (happening : Happening) :
    a.handedOut capacity size ⊆ (a.meet unsubscribe happening).handedOut capacity size := by
  rw [handedOut, handedOut, history_meet, Pool.issued_append]
  exact List.subset_append_left _ _

/-- What came back before came back afterwards as well. -/
theorem back_meetAll (capacity size : Nat) (unsubscribe : Bool) (a : Attendance)
    (course : List Happening) :
    a.back capacity size <+: (a.meetAll unsubscribe course).back capacity size := by
  induction course generalizing a with
  | nil => exact List.prefix_rfl
  | cons happening course ih =>
      have one : a.back capacity size <+: (a.meet unsubscribe happening).back capacity size := by
        rw [back, back, history_meet, Pool.returned_append]
        exact List.prefix_append _ _
      exact one.trans (ih (a.meet unsubscribe happening))

theorem withinGenerations_of_meetAll (course : List Happening)
    (bounded : WithinGenerations ((a.meetAll unsubscribe course).back capacity size)) :
    WithinGenerations (a.back capacity size) := by
  obtain ⟨more, later⟩ := a.back_meetAll capacity size unsubscribe course
  rw [← later] at bounded
  exact Pool.withinGenerations_of_append bounded

/-- Every event names a handle that was handed out by now, or none. -/
def Known (capacity size : Nat) (a : Attendance) : Prop :=
  ∀ h ∈ buffers a.given, h ∈ a.handedOut capacity size

theorem Known.meet (known : a.Known capacity size) (unsubscribe : Bool)
    (named : ∀ h ∈ buffers happening.submits, h ∈ a.handedOut capacity size) :
    (a.meet unsubscribe happening).Known capacity size := by
  intro h member
  apply handedOut_meet capacity size unsubscribe a happening
  obtain same | more := a.given_meet unsubscribe happening
  · rw [same] at member
    exact known h member
  · rw [more, Exchange.buffers_append] at member
    obtain before | now := List.mem_append.mp member
    · exact known h before
    · exact named h now

/-- The handles of the events that were taken are not live. -/
def Dead (a : Attendance) : Prop :=
  ∀ h ∈ buffers (Glance.events a.seen), a.task.pool.contents h = none

/-- The handle that is handed out next is not that of an event. -/
structure Apart (a : Attendance) (capacity size : Nat) : Prop where
  known : a.Known capacity size
  bounded : WithinGenerations (a.back capacity size)

namespace Lawful

/-- The events that were taken are among those given. -/
theorem seen_subset (lawful : a.Lawful script unsubscribe capacity size) :
    Glance.events a.seen <+: a.given := by
  obtain running | halted := lawful.standing
  · rw [← running.account]
    exact List.prefix_append _ _
  · exact halted.account

theorem dead_use (lawful : a.Lawful script unsubscribe capacity size) (dead : a.Dead)
    {operation : Pool.Operation} (apart : operation ≠ .acquire ∨ a.Apart capacity size) :
    (a.meet unsubscribe (.use operation)).Dead := by
  intro h member
  have before := dead h member
  change (a.task.pool.apply operation).2.contents h = none
  by_cases acquires : operation = .acquire
  · obtain ⟨known, bounded⟩ := apart.resolve_left (not_not.mpr acquires)
    have given : h ∈ a.handedOut capacity size :=
      known h ((lawful.seen_subset.sublist.filterMap Event.buffer).subset member)
    rw [acquires]
    rw [lawful.pool_eq] at before ⊢
    exact Pool.dead_acquire_of_issued bounded given before
  · exact (lawful.consistent.change operation).dead_of_kept before acquires

theorem dead_meet (lawful : a.Lawful script unsubscribe capacity size) (calm : script ≠ .crash)
    (manageable : Event.Manageable a.given) (dead : a.Dead)
    (apart : happening ≠ .use .acquire ∨ a.Apart capacity size) :
    (a.meet unsubscribe happening).Dead := by
  cases happening with
  | use operation =>
      apply lawful.dead_use dead
      exact apart.imp_left fun other same => other (congrArg Happening.use same)
  | submit event =>
      intro h member
      rw [seen_submit] at member
      rw [lawful.pool_meet calm manageable (.submit event)]
      exact dead h member
  | turn limit =>
      intro h member
      rw [lawful.pool_meet calm manageable (.turn limit), operations, Glance.releases_eq]
      change h ∈ buffers (Glance.events (a.seen ++ a.glances unsubscribe limit)) at member
      rw [Glance.events_append, Exchange.buffers_append] at member
      obtain before | now := List.mem_append.mp member
      · exact Pool.dead_run lawful.consistent (dead h before) (by simp)
      · exact Pool.dead_run_releases lawful.consistent now

/-- What was taken stays given back, if the pool hands nothing out meanwhile or tells
its handles apart. -/
theorem dead_meetAll (lawful : a.Lawful script unsubscribe capacity size)
    (calm : script ≠ .crash) (manageable : Event.Manageable (a.meetAll unsubscribe course).given)
    (dead : a.Dead)
    (apart : .use .acquire ∉ course ∨
      a.Known capacity size ∧ Named capacity size unsubscribe a course ∧
        WithinGenerations ((a.meetAll unsubscribe course).back capacity size)) :
    (a.meetAll unsubscribe course).Dead := by
  induction course generalizing a with
  | nil => exact dead
  | cons happening course ih =>
      have now := manageable.of_prefix (a.grows unsubscribe (happening :: course)).1
      have next := lawful.meet calm now happening
      obtain quiet | ⟨known, ⟨named, later⟩, bounded⟩ := apart
      · obtain ⟨other, others⟩ := not_or.mp (mt List.mem_cons.mpr quiet)
        exact ih next manageable (lawful.dead_meet calm now dead (.inl (Ne.symm other)))
          (.inl others)
      · have apart : a.Apart capacity size :=
          ⟨known, withinGenerations_of_meetAll (happening :: course) bounded⟩
        exact ih next manageable (lawful.dead_meet calm now dead (.inr apart))
          (.inr ⟨known.meet unsubscribe named, later, bounded⟩)

/-- What happens does nothing to a handle that it does not name. -/
theorem operations_untouched (unreleased : happening ≠ .use (.release h))
    (unwritten : ∀ octets, happening ≠ .use (.write h octets))
    (untaken : h ∉ buffers (Glance.events (a.meet unsubscribe happening).seen)) :
    ∀ operation ∈ a.operations unsubscribe happening,
      operation ≠ .release h ∧ ∀ octets, operation ≠ .write h octets := by
  intro operation member
  cases happening with
  | use used =>
      rw [List.mem_singleton.mp member]
      constructor
      · intro same
        exact unreleased (congrArg Happening.use same)
      · intro octets same
        exact unwritten octets (congrArg Happening.use same)
  | submit event => cases member
  | turn limit =>
      rw [operations, Glance.releases_eq] at member
      obtain ⟨g, taken, rfl⟩ := List.mem_map.mp member
      constructor
      · intro same
        cases same
        apply untaken
        change h ∈ buffers (Glance.events (a.seen ++ a.glances unsubscribe limit))
        rw [Glance.events_append, Exchange.buffers_append]
        exact List.mem_append_right _ taken
      · intro octets same
        cases same

/-- What nobody writes or gives back, and no event that is taken names, stays. -/
theorem contents_meetAll (lawful : a.Lawful script unsubscribe capacity size)
    (calm : script ≠ .crash) (manageable : Event.Manageable (a.meetAll unsubscribe course).given)
    (live : a.task.pool.contents h = some payload) (unreleased : .use (.release h) ∉ course)
    (unwritten : ∀ octets, .use (.write h octets) ∉ course)
    (untaken : h ∉ buffers (Glance.events (a.meetAll unsubscribe course).seen)) :
    (a.meetAll unsubscribe course).task.pool.contents h = some payload := by
  induction course generalizing a with
  | nil => exact live
  | cons happening course ih =>
      have sofar := manageable.of_prefix (a.grows unsubscribe (happening :: course)).1
      obtain ⟨-, seen⟩ := (a.meet unsubscribe happening).grows unsubscribe course
      have now : h ∉ buffers (Glance.events (a.meet unsubscribe happening).seen) := by
        intro member
        exact untaken (((seen.map Glance.event).sublist.filterMap Event.buffer).subset member)
      apply ih (lawful.meet calm sofar happening) manageable
      · rw [lawful.pool_meet calm sofar happening]
        apply Pool.contents_run lawful.consistent live
        apply operations_untouched _ _ now
        · rintro rfl
          exact unreleased List.mem_cons_self
        · rintro octets rfl
          exact unwritten octets List.mem_cons_self
      · exact fun later => unreleased (List.mem_cons_of_mem happening later)
      · exact fun octets later => unwritten octets (List.mem_cons_of_mem happening later)
      · exact untaken

/-- What was live at some time is so at the end, under the same conditions on what
happens from then on. -/
theorem contents_between {earlier later : List Happening}
    (lawful : a.Lawful script unsubscribe capacity size) (calm : script ≠ .crash)
    (manageable : Event.Manageable (a.meetAll unsubscribe (earlier ++ later)).given)
    (live : (a.meetAll unsubscribe earlier).task.pool.contents h = some payload)
    (unreleased : .use (.release h) ∉ later) (unwritten : ∀ octets, .use (.write h octets) ∉ later)
    (untaken : h ∉ buffers (Glance.events (a.meetAll unsubscribe (earlier ++ later)).seen)) :
    (a.meetAll unsubscribe (earlier ++ later)).task.pool.contents h = some payload := by
  rw [meetAll_append] at manageable untaken ⊢
  have first := ((a.meetAll unsubscribe earlier).grows unsubscribe later).1
  have middle := lawful.meetAll calm (manageable.of_prefix first)
  exact middle.contents_meetAll calm manageable live unreleased unwritten untaken

/-- As few events as were given are counted as many as they are. -/
theorem counted (lawful : a.Lawful script unsubscribe capacity size)
    (few : a.given.length < 2 ^ 32) :
    a.task.engine.counters.received.toNat = (Glance.events a.seen).countP Event.lends ∧
      a.task.engine.counters.processed.toNat = a.seen.countP Glance.read ∧
      a.task.engine.counters.received.toNat =
        a.task.engine.counters.processed.toNat + a.task.engine.counters.dropped.toNat := by
  apply lawful.records.counted
  have part := lawful.seen_subset.length_le
  rw [Glance.events, List.length_map] at part
  omega

end Lawful

/-- After a turn that gets to the end of the queue the engine waits for nothing that
was given, or it is over. -/
theorem Lawful.standing_turn (lawful : a.Lawful script unsubscribe capacity size)
    (calm : script ≠ .crash) (manageable : Event.Manageable a.given) {limit : Nat}
    (enough : a.task.queue.items.length < limit) :
    let now := a.meet unsubscribe (.turn limit)
    now.Running script ∧ now.task.state = .waiting ∧ now.task.queue.items = [] ∨
      now.Over script := by
  intro now
  obtain running | halted := lawful.standing
  · obtain ⟨-, -, ⟨running, waiting, items⟩ | halted⟩ :=
      running.turn lawful.records calm manageable limit
    · rw [List.drop_of_length_le (by omega)] at items
      exact .inl ⟨running, waiting, items⟩
    · exact .inr halted
  · right
    rw [show now = a from halted.turn unsubscribe limit]
    exact halted

/-- An engine that waits for nothing that was given has taken all of it, and one that
is over the part that made it stop. -/
theorem shortest_of_standing
    (standing : a.Running script ∧ a.task.state = .waiting ∧ a.task.queue.items = [] ∨
      a.Over script) :
    Glance.events a.seen <+: a.given ∧
      (script.Stops (Glance.events a.seen) ∨ Glance.events a.seen = a.given) ∧
      script.Runs (Glance.events a.seen) := by
  obtain ⟨running, -, none⟩ | halted := standing
  · have all := running.account
    rw [none, List.append_nil] at all
    rw [all]
    refine ⟨List.prefix_rfl, .inr rfl, ?_⟩
    rw [← all]
    exact running.awake.runs
  · exact ⟨halted.account, .inl halted.stops, halted.runs⟩

theorem dead_start (script : Script) (capacity size depth : Nat) (before : List Pool.Operation) :
    (start script capacity size depth before).Dead := by
  intro h member
  cases member

theorem known_start (script : Script) (capacity size depth : Nat)
    (before : List Pool.Operation) :
    (start script capacity size depth before).Known capacity size := by
  intro h member
  cases member

/-- However a stream of events is submitted, the task is given its turns and others
use the pool, if no event says that it is longer than memory goes: once the task has
had a turn to the end of its queue, its engine has taken the shortest part of the
stream that makes it stop, or the whole if nothing does. Its kinds, payloads, requests
and counters are those of these events, of which it could read those whose handle
reached, at their moment, a payload no longer than they said.

The handles of these events are not live any more, if nothing was handed out
meanwhile or if every event named a handle that was handed out before and no slot
came back 2^32 times. Whatever else was live at some time stays as it was unless
somebody else gives it back or writes to it. -/
theorem shortest_stopping_part (calm : script ≠ .crash) (before : List Pool.Operation)
    (few : ((start script capacity size depth before).meetAll unsubscribe course).given.length <
      2 ^ 32)
    (short : ∀ event ∈ ((start script capacity size depth before).meetAll unsubscribe
      course).given, event.length ≤ Scripted.addressLimit) {limit : Nat}
    (enough : ((start script capacity size depth before).meetAll unsubscribe
      course).task.queue.items.length < limit) :
    let begun := start script capacity size depth before
    let now := begun.meetAll unsubscribe (course ++ [.turn limit])
    let taken := Glance.events now.seen
    let e := now.task.engine
    (taken <+: now.given ∧ (script.Stops taken ∨ taken = now.given) ∧ script.Runs taken) ∧
      (e.kinds = taken.map Event.kind ∧ e.payloads = now.seen.filterMap Glance.payload? ∧
        e.requests = if script.Completed taken then [.activate, .shutdown unsubscribe] else []) ∧
      (e.counters.received.toNat = taken.countP Event.lends ∧
        e.counters.processed.toNat = now.seen.countP Glance.read ∧
        e.counters.received.toNat = e.counters.processed.toNat + e.counters.dropped.toNat) ∧
      ((.use .acquire ∉ course ∨ Named capacity size unsubscribe begun course ∧
          WithinGenerations (now.back capacity size)) →
        ∀ h ∈ buffers taken, now.task.pool.contents h = none) ∧
      (∀ first second h payload, course = first ++ second →
        (begun.meetAll unsubscribe first).task.pool.contents h = some payload →
        .use (.release h) ∉ second → (∀ octets, .use (.write h octets) ∉ second) →
        h ∉ buffers taken → now.task.pool.contents h = some payload) ∧
      (script.Stops taken → now.task.state = .finished ∧ now.task.queue.closed = true ∧
        e.phase = .stopped) ∧
      (¬script.Stops taken → now.task.state = .waiting ∧ now.task.queue.items = []) := by
  intro begun now taken e
  have first : begun.Lawful script unsubscribe capacity size :=
    .start script unsubscribe capacity size depth before
  have manageable : Event.Manageable (begun.meetAll unsubscribe course).given := ⟨few, short⟩
  have middle := first.meetAll calm manageable
  have last : now = (begun.meetAll unsubscribe course).meet unsubscribe (.turn limit) :=
    meetAll_append unsubscribe begun course [.turn limit]
  have manageableNow : Event.Manageable now.given := by
    rw [last]
    exact manageable
  have lawful : now.Lawful script unsubscribe capacity size := first.meetAll calm manageableNow
  have standing := middle.standing_turn calm manageable enough
  rw [← last] at standing
  refine ⟨shortest_of_standing standing,
    ⟨lawful.records.kinds_eq, lawful.records.payloads_eq, lawful.records.requests_eq⟩,
    lawful.counted manageableNow.few, ?_, ?_, ?_, ?_⟩
  · intro apart
    have dead : (begun.meetAll unsubscribe course).Dead := by
      apply first.dead_meetAll calm manageable (dead_start script capacity size depth before)
      refine apart.imp_right fun ⟨named, bounded⟩ =>
        ⟨known_start script capacity size depth before, named, ?_⟩
      rw [last] at bounded
      exact withinGenerations_of_meetAll [.turn limit] bounded
    have turned : now.Dead := by
      rw [last]
      apply middle.dead_meet calm manageable dead
      left
      intro same
      cases same
    exact turned
  · intro earlier later h payload parts live unreleased unwritten untaken
    have split : now = begun.meetAll unsubscribe (earlier ++ (later ++ [.turn limit])) := by
      rw [← List.append_assoc, ← parts]
    simp only [taken] at untaken
    rw [split] at manageableNow untaken ⊢
    apply first.contents_between calm manageableNow live _ _ untaken
    · simpa using unreleased
    · simpa using unwritten
  · intro stops
    obtain ⟨running, -⟩ | halted := standing
    · exact absurd stops running.awake.going
    · exact ⟨halted.state_eq, halted.closed, halted.phase_eq⟩
  · intro going
    obtain ⟨-, waiting, none⟩ | halted := standing
    · exact ⟨waiting, none⟩
    · exact absurd halted.stops going

/-- The second block that completes the download names the buffer of the first, so it
is dropped. The two events behind it are not taken, and their buffer stays lent. -/
theorem shortest_stopping_part_repeated :
    let before : List Pool.Operation :=
      [.acquire, .write ⟨0, 0⟩ [1], .acquire, .write ⟨1, 0⟩ [2, 2]]
    let course : List Happening :=
      [.submit .start, .submit (.lending .fileBlock ⟨0, 0⟩ 4), .turn 2,
        .submit (.lending .fileBlock ⟨0, 0⟩ 4), .submit (.lending .jobDocument ⟨1, 0⟩ 1),
        .submit (.lending .fileBlock ⟨1, 0⟩ 4)]
    let now := (start (.activate 2) 2 4 8 before).meetAll true (course ++ [.turn 8])
    now.task.state = .finished ∧ now.task.engine.requests = [.activate, .shutdown true] ∧
      now.task.engine.counters.received.toNat = 2 ∧
      now.task.engine.counters.processed.toNat = 1 ∧
      now.task.pool.contents ⟨0, 0⟩ = none ∧ now.task.pool.contents ⟨1, 0⟩ = some [2, 2] := by
  intro before course now
  have taken : Glance.events now.seen =
      [.start, .lending .fileBlock ⟨0, 0⟩ 4, .lending .fileBlock ⟨0, 0⟩ 4] := by
    decide +kernel
  have live : (start (.activate 2) 2 4 8 before).task.pool.contents ⟨1, 0⟩ = some [2, 2] := by
    decide +kernel
  have stops : (Script.activate 2).Stops (Glance.events now.seen) := by
    rw [taken]
    exact ⟨[.start, .lending .fileBlock ⟨0, 0⟩ 4], _, rfl, .inr ⟨rfl, 2, rfl, rfl⟩⟩
  have completed : (Script.activate 2).Completed (Glance.events now.seen) := by
    rw [taken]
    decide
  have lent : (Glance.events now.seen).countP Event.lends = 2 := by
    rw [taken]
    decide
  have found : now.seen.countP Glance.read = 1 := by decide +kernel
  have named : ⟨0, 0⟩ ∈ buffers (Glance.events now.seen) := by
    rw [taken]
    decide
  have other : ⟨1, 0⟩ ∉ buffers (Glance.events now.seen) := by
    rw [taken]
    decide
  obtain ⟨-, ⟨-, -, requests⟩, ⟨received, processed, -⟩, dead, kept, halted, -⟩ :=
    @shortest_stopping_part true (.activate 2) 2 4 8 course nofun before (by decide +kernel)
      (by decide +kernel) 8 (by decide +kernel)
  refine ⟨(halted stops).1, ?_, ?_, ?_, ?_, ?_⟩
  · rw [requests]
    exact if_pos completed
  · rw [received]
    exact lent
  · rw [processed]
    exact found
  · exact dead (.inl (by simp [course])) _ named
  · exact kept [] course _ _ rfl live (by simp [course]) (by simp [course]) other

/-! ## Events that say too much -/

/-- If the next event says that it is longer than memory goes, the engine takes it down
and counts it as received, and then the task has crashed. The buffer is neither read
nor given back, and what waits behind the event is lost. -/
theorem Running.turn_of_overlong (running : a.Running script)
    (calm : a.task.engine.script ≠ .crash) {event : Event} {later : List Event}
    (next : a.task.queue.items = event :: later) (lends : event.lends = true)
    (long : Scripted.readingLimit a.task.pool < event.length) {limit : Nat} (positive : 0 < limit) :
    (a.meet unsubscribe (.turn limit)).task =
      ⟨.crashed .unaddressable, a.task.pool, a.task.queue.close,
        Scripted.receiving event.kind a.task.engine⟩ := by
  obtain ⟨rest, rfl⟩ := Nat.exists_eq_add_one_of_ne_zero (Nat.ne_of_gt positive)
  have portion : a.task.queue.items.take (rest + 1) = event :: later.take rest := by
    rw [next, List.take_succ_cons]
  have served : Scripted.engine.serveAll unsubscribe a.task.pool a.task.engine
      (a.task.queue.items.take (rest + 1)) = ⟨.crashed .unaddressable, a.task.pool,
        Scripted.receiving event.kind a.task.engine, later.take rest, []⟩ := by
    rw [portion, Engine.serveAll]
    simp only [Scripted.serve_of_overlong calm lends long unsubscribe]
  exact Engine.Task.turn_of_left running.alive served rfl TaskState.noConfusion

/-- The accounts do not close for every length that a word can say: where the octets cannot be
laid out, the packet is counted as received and the engine crashes. -/
theorem not_shortest_stopping_part_of_overlong :
    ¬∀ length < 2 ^ 64,
      let begun := start .nothing 1 16 4 [.acquire, .write ⟨0, 0⟩ [120]]
      let now := begun.meetAll true [.submit (.lending .fileBlock ⟨0, 0⟩ length), .turn 8]
      let counters := now.task.engine.counters
      counters.received.toNat = counters.processed.toNat + counters.dropped.toNat ∧
        ∀ h ∈ buffers (Glance.events now.seen), now.task.pool.contents h = none := by
  intro all
  let before : List Pool.Operation := [.acquire, .write ⟨0, 0⟩ [120]]
  let event : Event := .lending .fileBlock ⟨0, 0⟩ (2 ^ 64 - 1)
  let given := (start .nothing 1 16 4 before).meet true (.submit event)
  have lawful := (Lawful.start .nothing true 1 16 4 before).submit event
  have running : given.Running .nothing :=
    lawful.standing.resolve_right fun halted => TaskState.noConfusion halted.state_eq
  have crashed : (given.meet true (.turn 8)).task = ⟨.crashed .unaddressable, given.task.pool,
      given.task.queue.close, Scripted.receiving event.kind given.task.engine⟩ :=
    running.turn_of_overlong Script.noConfusion rfl rfl (by decide +kernel) (by decide)
  have counts := (all (2 ^ 64 - 1) (by decide)).1
  change ((given.meet true (.turn 8)).task.engine.counters.received).toNat = _ at counts
  rw [crashed] at counts
  revert counts
  decide +kernel

end Attendance

end UpdateBridge
