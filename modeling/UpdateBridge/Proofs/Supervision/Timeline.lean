import UpdateBridge.Supervision.Basic

/-!
# What a watcher makes of a timeline

A `Timeline` says what can be seen of an engine at every moment: its phase, its
counters, and whether its task is over. A watcher that begins at moment zero is
played against it, one millisecond after the other, with an engine that shows what
the timeline says and counts how often its counters were read.

The watcher looks at the multiples of its interval, cut as a pause is, and at no
other moment. As long as no look was the last one it is watching and has read the
counters at every look at which the engine was not suspended (`Watched.watching`);
the first look that shows a stopped engine or a task that is over ends it, and
nothing is changed afterwards (`Watched.ended`).
-/

namespace UpdateBridge

/-! ## What a look shows -/

namespace Sight

variable {phase : Phase} {gone : Bool}

/-- A look is the last one if the engine has stopped or its task is over. -/
theorem isLast_of : (Sight.of phase gone).isLast = true ↔ phase = .stopped ∨ gone = true := by
  cases phase <;> cases gone <;> decide

/-- The last look reads the counters, whatever the phase. -/
theorem reads_of_isLast {sight : Sight} (last : sight.isLast = true) : sight.reads = true := by
  cases sight with
  | suspended => cases last
  | _ => rfl

theorem reads_of_not_isLast (more : (Sight.of phase gone).isLast = false) :
    (Sight.of phase gone).reads = decide (phase ≠ .suspended) := by
  cases phase <;> cases gone <;> first | rfl | cases more

/-- That the engine ended early is noted at the last look, if it has not stopped. -/
theorem endedEarly_mem_notes (counters : Counters) :
    .engineEndedEarly ∈ (Sight.of phase gone).notes counters ↔ gone = true ∧ phase ≠ .stopped := by
  cases phase <;> cases gone <;> simp [Sight.of, notes]

end Sight

/-! ## A single watcher over a task at rest -/

namespace Supervision

variable {ε : Type} {E : Engine ε} {s : Supervision ε} {w : Watch}

/-- Nobody is ready, and the task has nothing to do. -/
structure Resting (s : Supervision ε) : Prop where
  idle : s.ready = []
  state : s.task.state = .waiting ∨ s.task.state = .finished
  empty : s.task.queue.items = []
  awaited : s.task.queue.ended = false

theorem noting_nil (s : Supervision ε) : s.noting [] = s := by
  simp [noting, Journal.stamped]

theorem Resting.advanceTask (rest : s.Resting) : s.advanceTask E = s := by
  obtain ⟨unsubscribe, now, ⟨state, pool, ⟨capacity, items, closed, ended⟩, engine⟩, watchers,
    ready, journal⟩ := s
  obtain ⟨-, standing, empty, awaited⟩ := rest
  obtain rfl : items = [] := empty
  obtain rfl : ended = false := awaited
  change state = .waiting ∨ state = .finished at standing
  obtain rfl | rfl := standing
  · exact noting_nil _
  · exact noting_nil _

theorem Resting.settle (rest : s.Resting) : s.settle E = s := by
  have none : { s with ready := [] } = s := by
    rw [← rest.idle]
  rw [Supervision.settle, rest.idle, none]
  exact rest.advanceTask

theorem due_of_watching (watching : s.watchers = [.watching w]) : s.due? = some w.next := by
  rw [due?, watching]
  rfl

/-- Time passes until the watcher's next look. -/
theorem Resting.advance_of_early (rest : s.Resting) (watching : s.watchers = [.watching w])
    (early : s.now + 1 < w.next) : s.advance E 1 = { s with now := s.now + 1 } := by
  rw [advance, rest.settle, advanceWith, due_of_watching watching]
  exact if_neg (Nat.not_le.mpr early)

/-- Time passes for a watcher that has ended. -/
theorem Resting.advance_of_ended {moment : Nat} {counters : Counters} (rest : s.Resting)
    (ended : s.watchers = [.ended moment counters]) :
    s.advance E 1 = { s with now := s.now + 1 } := by
  have nothing : s.due? = none := by
    rw [due?, ended]
    rfl
  rw [advance, rest.settle, advanceWith, nothing]

/-- A task at rest has not crashed. -/
theorem Resting.sound (rest : s.Resting) : s.task.state.isPoisoned = false := by
  obtain state | state := rest.state <;> rw [state] <;> rfl

/-- Somebody who can look at the engine sees what it shows. -/
theorem look_of_sound (sound : s.task.state.isPoisoned = false) (number : Nat) (w : Watch) :
    let looked := E.look s.task.state.isOver s.task.engine
    s.look E number w =
      { s with
        watchers := s.watchers.set number
          (if looked.sight.isLast then .ended s.now looked.counters else .watching w.looked)
        task := { s.task with engine := looked.engine }
        journal := s.journal ++ Journal.stamped s.now looked.notes } := by
  rw [look, sound]
  rfl

theorem Resting.look (rest : s.Resting) (number : Nat) (w : Watch) :
    (s.look E number w).Resting := by
  rw [look_of_sound rest.sound]
  exact ⟨rest.idle, rest.state, rest.empty, rest.awaited⟩

theorem Resting.now_look (rest : s.Resting) (number : Nat) (w : Watch) :
    (s.look E number w).now = s.now := by
  rw [look_of_sound rest.sound]

theorem wakeDue_of_due (rest : s.Resting) (watching : s.watchers = [.watching w])
    (due : w.next = s.now) : s.wakeDue = { s with ready := [.watcher 0] } := by
  have one : s.dueWatchers = [0] := by
    rw [dueWatchers, watching]
    simp [WatcherState.due?, due, List.range_succ]
  rw [wakeDue, one]
  show s.wake (.watcher 0) = _
  rw [wake, rest.idle]
  rfl

/-- When its next look is due the watcher looks. -/
theorem Resting.advance_of_due (rest : s.Resting) (watching : s.watchers = [.watching w])
    (due : w.next = s.now + 1) : s.advance E 1 = { s with now := s.now + 1 }.look E 0 w := by
  have later : { s with now := s.now + 1 }.Resting :=
    ⟨rest.idle, rest.state, rest.empty, rest.awaited⟩
  have looked : { s with now := s.now + 1 }.wakeDue.settle E =
      { s with now := s.now + 1 }.look E 0 w := by
    rw [wakeDue_of_due later watching due, Supervision.settle]
    have none : { s with now := s.now + 1, ready := [] } = { s with now := s.now + 1 } := by
      rw [← rest.idle]
    show (turn E { s with now := s.now + 1, ready := [] } (.watcher 0)).advanceTask E = _
    have found : s.watchers[0]? = some (.watching w) := by
      rw [watching]
      rfl
    rw [none, turn]
    simp only [found]
    exact (later.look 0 w).advanceTask
  rw [advance, rest.settle, advanceWith, due_of_watching watching, due]
  simp only [Nat.le_refl, if_true, looked, advanceWith]
  rw [look_of_sound later.sound]

end Supervision

/-! ## Timelines -/

/-- An engine that shows what it is made to show. -/
structure Shown where
  phase : Phase
  counters : Counters
  /-- How often the counters were read. -/
  reads : Nat

/-- Nothing is asked of such an engine, and no event changes it. -/
def Shown.engine : Engine Shown where
  ask _ e := (.ok (), e)
  notes _ := []
  phase := Shown.phase
  setPhase phase e := { e with phase }
  counters := Shown.counters
  countersRead e := { e with reads := e.reads + 1 }
  crash? _ _ _ := none
  accept _ _ e := ⟨e, [], []⟩
  leaves _ _ := false

/-- What can be seen of an engine at every moment. -/
structure Timeline where
  phase : Nat → Phase
  counters : Nat → Counters
  /-- When its task is over, if it ever is. -/
  finished : Option Nat

namespace Timeline

variable (tl : Timeline) (unsubscribe : Bool) (pool : Pool) (depth interval : Nat)
variable {s : Supervision Shown} {n t : Nat}

def gone (moment : Nat) : Bool :=
  tl.finished.any (· ≤ moment)

/-- Make the engine show what it shows at that moment. -/
def exhibit (moment : Nat) (s : Supervision Shown) : Supervision Shown :=
  { s with
    task := { s.task with
      state := if tl.gone moment then .finished else .waiting
      engine := ⟨tl.phase moment, tl.counters moment, s.task.engine.reads⟩ } }

/-- Play the timeline up to that moment for a watcher that begins at moment zero. -/
def play : Nat → Supervision Shown
  | 0 =>
    let s := Supervision.fresh unsubscribe pool (.empty depth) ⟨.init, .zero, 0⟩
    (tl.exhibit 0 (s.watch interval)).settle Shown.engine
  | t + 1 => (tl.exhibit (t + 1) (play t)).advance Shown.engine 1

/-- The moment of the look of that number, from zero. -/
def moment (n : Nat) : Nat :=
  n * Pause.length interval

/-- There is nothing to look for after the look of that number. -/
def Last (n : Nat) : Prop :=
  tl.phase (moment interval n) = .stopped ∨ tl.gone (moment interval n) = true

/-- How many of the first looks read the counters, if none of them is the last. -/
def readings (n : Nat) : Nat :=
  (List.range n).countP fun j => tl.phase (moment interval j) ≠ .suspended

/-- The engine shows what it shows at that moment. -/
structure Shows (moment : Nat) (s : Supervision Shown) : Prop where
  phase : s.task.engine.phase = tl.phase moment
  counters : s.task.engine.counters = tl.counters moment
  gone : s.task.state.isOver = tl.gone moment

/-- So many looks are over, none of which was the last. -/
structure Unseen (n : Nat) (s : Supervision Shown) : Prop where
  more : ∀ j < n, ¬tl.Last interval j
  reads : s.task.engine.reads = tl.readings interval n
  unlogged : ∀ moment, (moment, .engineEndedEarly) ∉ s.journal

/-- What the watcher has made of the timeline up to moment `t`. -/
inductive Watched (t : Nat) (s : Supervision Shown) : Prop
  | watching (n : Nat) (unseen : tl.Unseen interval n s)
      (watchers : s.watchers = [.watching ⟨0, interval, n⟩]) (early : t < moment interval n)
  | ended (m : Nat) (more : ∀ j < m, ¬tl.Last interval j) (last : tl.Last interval m)
      (past : moment interval m ≤ t)
      (watchers : s.watchers = [.ended (moment interval m) (tl.counters (moment interval m))])
      (reads : s.task.engine.reads = 1 + tl.readings interval m)
      (logged : ∀ noted, (noted, .engineEndedEarly) ∈ s.journal ↔
        noted = moment interval m ∧ tl.phase (moment interval m) ≠ .stopped)

variable {tl interval}

theorem readings_succ (tl : Timeline) (interval n : Nat) :
    tl.readings interval (n + 1) = tl.readings interval n +
      if tl.phase (moment interval n) ≠ .suspended then 1 else 0 := by
  simp [readings, List.range_succ]

theorem moment_lt (positive : 0 < interval) {m : Nat} (before : n < m) :
    moment interval n < moment interval m := by
  refine Nat.mul_lt_mul_of_pos_right before (Nat.pos_of_ne_zero ?_)
  rw [ne_eq, Pause.length_eq_zero]
  omega

def sight (tl : Timeline) (moment : Nat) : Sight :=
  .of (tl.phase moment) (tl.gone moment)

/-- A look in terms of the timeline. -/
theorem Shows.look {watcher : WatcherState} (shows : tl.Shows t s)
    (sound : s.task.state.isPoisoned = false) (watchers : s.watchers = [watcher]) (w : Watch) :
    s.look Shown.engine 0 w =
      { s with
        watchers :=
          [if (tl.sight t).isLast then .ended s.now (tl.counters t) else .watching w.looked]
        task := { s.task with
          engine := if (tl.sight t).reads then Shown.engine.countersRead s.task.engine
            else s.task.engine }
        journal := s.journal ++ Journal.stamped s.now ((tl.sight t).notes (tl.counters t)) } := by
  rw [Supervision.look_of_sound sound, watchers]
  simp only [Engine.look, Shown.engine, shows.phase, shows.counters, shows.gone]
  rfl

theorem mem_stamped {noted now : Nat} {note : Note} {notes : List Note} :
    (noted, note) ∈ Journal.stamped now notes ↔ noted = now ∧ note ∈ notes := by
  simp [Journal.stamped, eq_comm, and_comm, and_assoc]

/-- The watcher looks, and goes on if it was not the last look. -/
theorem Unseen.look {watcher : WatcherState} (unseen : tl.Unseen interval n s)
    (due : t = moment interval n) (shows : tl.Shows t s) (rest : s.Resting) (now : s.now = t)
    (watchers : s.watchers = [watcher]) (positive : 0 < interval) :
    tl.Watched interval t (s.look Shown.engine 0 ⟨0, interval, n⟩) := by
  subst due
  rw [shows.look rest.sound watchers]
  have logged : ∀ noted, (noted, .engineEndedEarly) ∈ s.journal ++
        Journal.stamped s.now
          ((tl.sight (moment interval n)).notes (tl.counters (moment interval n))) ↔
      noted = moment interval n ∧ tl.gone (moment interval n) = true ∧
        tl.phase (moment interval n) ≠ .stopped := by
    intro noted
    rw [List.mem_append, or_iff_right (unseen.unlogged noted), mem_stamped, now, sight,
      Sight.endedEarly_mem_notes]
  cases last : (tl.sight (moment interval n)).isLast with
  | true =>
      have ends : tl.Last interval n := Sight.isLast_of.mp last
      refine .ended n unseen.more ends (Nat.le_refl _) ?_ ?_ fun noted => (logged noted).trans ?_
      · rw [if_pos rfl, now]
      · rw [if_pos (Sight.reads_of_isLast last), ← unseen.reads, Nat.add_comm]
        rfl
      · refine and_congr_right fun _ => and_iff_right_of_imp fun unstopped => ?_
        exact ends.resolve_left unstopped
  | false =>
      have goes : ¬tl.Last interval n := fun ends =>
        Bool.false_ne_true (last.symm.trans (Sight.isLast_of.mpr ends))
      refine .watching (n + 1) ⟨?_, ?_, ?_⟩ rfl ?_
      · intro j below
        obtain before | rfl := Nat.lt_succ_iff_lt_or_eq.mp below
        · exact unseen.more j before
        · exact goes
      · have reads := Sight.reads_of_not_isLast last
        change (tl.sight (moment interval n)).reads = _ at reads
        rw [readings_succ, ← unseen.reads]
        by_cases suspended : tl.phase (moment interval n) = .suspended
        · have unread : ¬tl.phase (moment interval n) ≠ .suspended := fun apart => apart suspended
          rw [if_neg unread, reads, decide_eq_false unread]
          rfl
        · rw [if_pos suspended, reads, decide_eq_true suspended]
          rfl
      · intro noted member
        exact goes (.inr ((logged noted).mp member).2.1)
      · exact moment_lt positive (Nat.lt_succ_self n)

/-- The state at that moment: the task rests, the engine shows what it is to show, and
the watcher has looked as often as it had to. -/
structure Played (tl : Timeline) (interval t : Nat) (s : Supervision Shown) : Prop where
  now : s.now = t
  resting : s.Resting
  watched : tl.Watched interval t s

theorem shows_exhibit (tl : Timeline) (t : Nat) (s : Supervision Shown) :
    tl.Shows t (tl.exhibit t s) := by
  refine ⟨rfl, rfl, ?_⟩
  rw [exhibit]
  cases tl.gone t <;> rfl

theorem resting_exhibit (tl : Timeline) (t : Nat) (rest : s.Resting) :
    (tl.exhibit t s).Resting := by
  refine ⟨rest.idle, ?_, rest.empty, rest.awaited⟩
  rw [exhibit]
  cases tl.gone t
  · exact .inl rfl
  · exact .inr rfl

/-- One more millisecond: the engine changes, and then the watcher looks if it has
to. -/
theorem Played.next (played : tl.Played interval t s) (positive : 0 < interval) :
    tl.Played interval (t + 1) ((tl.exhibit (t + 1) s).advance Shown.engine 1) := by
  have rest := resting_exhibit tl (t + 1) played.resting
  have shows := shows_exhibit tl (t + 1) s
  have now : (tl.exhibit (t + 1) s).now + 1 = t + 1 := congrArg (· + 1) played.now
  have later : { tl.exhibit (t + 1) s with now := (tl.exhibit (t + 1) s).now + 1 }.Resting :=
    ⟨rest.idle, rest.state, rest.empty, rest.awaited⟩
  cases played.watched with
  | watching n unseen watchers early =>
      have next : (⟨0, interval, n⟩ : Watch).next = moment interval n := Nat.zero_add _
      obtain due | before : t + 1 = moment interval n ∨ t + 1 < moment interval n :=
        Nat.eq_or_lt_of_le early
      · have unseen' : tl.Unseen interval n
            { tl.exhibit (t + 1) s with now := (tl.exhibit (t + 1) s).now + 1 } :=
          ⟨unseen.more, unseen.reads, unseen.unlogged⟩
        rw [rest.advance_of_due watchers (by rw [next, now, due])]
        refine ⟨?_, later.look 0 _, unseen'.look due ⟨shows.phase, shows.counters, shows.gone⟩
          later now watchers positive⟩
        rw [later.now_look]
        exact now
      · rw [rest.advance_of_early watchers (by rw [next, now]; exact before)]
        exact ⟨now, later, .watching n ⟨unseen.more, unseen.reads, unseen.unlogged⟩ watchers before⟩
  | ended m more last past watchers reads logged =>
      rw [rest.advance_of_ended watchers]
      exact ⟨now, later, .ended m more last (Nat.le_succ_of_le past) watchers reads logged⟩

/-- The watcher begins with a look. -/
theorem played_zero (tl : Timeline) (unsubscribe : Bool) (pool : Pool) (depth : Nat)
    (positive : 0 < interval) :
    tl.Played interval 0 (tl.play unsubscribe pool depth interval 0) := by
  let s : Supervision Shown :=
    { Supervision.fresh unsubscribe pool (.empty depth) (⟨.init, .zero, 0⟩ : Shown) with
      task := ⟨.waiting, pool, .empty depth, ⟨.init, .zero, 0⟩⟩
      watchers := [.created interval] }
  have rest := resting_exhibit tl 0 (s := s) ⟨rfl, .inl rfl, rfl, rfl⟩
  have shows := shows_exhibit tl 0 s
  have unseen : tl.Unseen interval 0 (tl.exhibit 0 s) := ⟨nofun, rfl, nofun⟩
  have zero : 0 = moment interval 0 := (Nat.zero_mul _).symm
  have begins : Watch.begin 0 interval = .ok ⟨0, interval, 0⟩ := if_neg (Nat.ne_of_gt positive)
  have looked : tl.play unsubscribe pool depth interval 0 =
      (tl.exhibit 0 s).look Shown.engine 0 ⟨0, interval, 0⟩ := by
    have turned : Supervision.turn Shown.engine (tl.exhibit 0 s) (.watcher 0) =
        (tl.exhibit 0 s).look Shown.engine 0 ⟨0, interval, 0⟩ := by
      have created : (tl.exhibit 0 s).watchers[0]? = some (.created interval) := rfl
      have now : (tl.exhibit 0 s).now = 0 := rfl
      simp only [Supervision.turn, created, now, begins]
    show (Supervision.turn Shown.engine (tl.exhibit 0 s) (.watcher 0)).advanceTask Shown.engine = _
    rw [turned]
    exact (rest.look 0 _).advanceTask
  rw [looked]
  refine ⟨?_, rest.look 0 _, unseen.look zero shows rest rfl rfl positive⟩
  rw [rest.now_look]
  rfl

theorem played_play (tl : Timeline) (unsubscribe : Bool) (pool : Pool) (depth : Nat)
    (positive : 0 < interval) (t : Nat) :
    tl.Played interval t (tl.play unsubscribe pool depth interval t) := by
  induction t with
  | zero => exact played_zero tl unsubscribe pool depth positive
  | succ t ih => exact ih.next positive

/-- For every timeline a watcher ends at the first look that shows a stopped engine or
a task that is over, at just that moment, and never if there is none. It reports the
counters of that moment, and has read them then and at each look before at which the
engine was not suspended. That the engine ended early is noted then, and only if the
engine is in any phase but the stopped one. The looks are at the multiples of the
interval, which is never longer than the longest pause. -/
theorem watcher_ends_at_first_end (tl : Timeline) (unsubscribe : Bool) (pool : Pool)
    (depth interval : Nat) (positive : 0 < interval) (t : Nat) :
    let s := tl.play unsubscribe pool depth interval t
    (∀ m, tl.Last interval m → (∀ j < m, ¬tl.Last interval j) →
      (t < moment interval m → s.isWatched = true) ∧
      (moment interval m ≤ t →
        s.watchers = [.ended (moment interval m) (tl.counters (moment interval m))] ∧
        s.task.engine.reads = 1 + tl.readings interval m ∧
        ∀ noted, (noted, .engineEndedEarly) ∈ s.journal ↔
          noted = moment interval m ∧ tl.phase (moment interval m) ≠ .stopped)) ∧
    ((∀ m, ¬tl.Last interval m) → s.isWatched = true) := by
  intro s
  cases (played_play tl unsubscribe pool depth positive t).watched with
  | watching n unseen watchers early =>
      have watched : s.isWatched = true := by
        rw [Supervision.isWatched, watchers]
        rfl
      refine ⟨fun m last _ => ⟨fun _ => watched, fun past => ?_⟩, fun _ => watched⟩
      -- A last look that lies behind would be among those that were not the last.
      have after : n ≤ m := Nat.le_of_not_lt fun before => unseen.more m before last
      obtain same | below := Nat.eq_or_lt_of_le after
      · subst same
        exact absurd past (Nat.not_le.mpr early)
      · exact absurd (Nat.lt_trans early (moment_lt positive below)) (Nat.not_lt.mpr past)
  | ended k more last past watchers reads logged =>
      refine ⟨fun m ends first => ?_, fun none => absurd last (none k)⟩
      have same : m = k := by
        obtain before | same | before := Nat.lt_trichotomy m k
        · exact absurd ends (more m before)
        · exact same
        · exact absurd last (first k before)
      subst same
      exact ⟨fun early => absurd past (Nat.not_le.mpr early), fun _ => ⟨watchers, reads, logged⟩⟩

/-- A task that is over while the engine is suspended: the watcher has read the counters
at the first look and at the last, but not at the one between. -/
theorem watcher_ends_suspended :
    let tl : Timeline :=
      ⟨fun t => if t < 2 then .active else .suspended, fun t => ⟨.ofNat t, 0, 0, 0⟩, some 4⟩
    let s := tl.play false (Pool.create 2 16) 4 3 7
    0 < 3 ∧ s.watchers = [.ended 6 ⟨6, 0, 0, 0⟩] ∧ s.task.engine.reads = 2 ∧
      (6, .engineEndedEarly) ∈ s.journal := by
  intro tl s
  have tick : ∀ n, moment 3 n = n * 3 := fun n => by
    rw [moment, Pause.length_of_le (by decide)]
  have ends : tl.Last 3 2 := .inr (by rw [tick]; rfl)
  have first : ∀ j < 2, ¬tl.Last 3 j := by
    intro j below
    rw [Last, tick]
    obtain rfl | rfl : j = 0 ∨ j = 1 := by omega
    · decide
    · decide
  obtain ⟨-, ended⟩ :=
    (watcher_ends_at_first_end tl false (Pool.create 2 16) 4 3 (by decide) 7).1 2 ends first
  rw [tick] at ended
  obtain ⟨watchers, reads, logged⟩ := ended (by decide)
  have read : tl.readings 3 2 = 1 := by
    simp [readings, tick, List.range_succ, tl]
  exact ⟨by decide, watchers, by rw [reads, read], (logged 6).mpr ⟨rfl, by decide⟩⟩

/-- It is not so that a watcher always looks at the multiples of its interval: one that
is longer than the longest pause is cut, and the end of the engine is seen earlier. -/
theorem not_ends_at_multiple_of_interval :
    ¬∀ (tl : Timeline) (interval m : Nat), 0 < interval →
      (tl.phase (m * interval) = .stopped ∨ tl.gone (m * interval) = true) →
      (∀ j < m, ¬(tl.phase (j * interval) = .stopped ∨ tl.gone (j * interval) = true)) →
      (tl.play false (Pool.create 2 16) 4 interval (m * interval)).watchers =
        [.ended (m * interval) (tl.counters (m * interval))] := by
  intro all
  let tl : Timeline := ⟨fun t => if t = 0 then .active else .stopped, fun _ => .zero, none⟩
  have watchers := all tl (Pause.longest + 1) 1 (Nat.succ_pos _) (.inl rfl) fun j below => by
    obtain rfl : j = 0 := by omega
    decide
  have length : Pause.length (Pause.longest + 1) = Pause.longest :=
    Pause.length_of_longest_le (Nat.le_succ _)
  cases (played_play tl false (Pool.create 2 16) 4 (Nat.succ_pos Pause.longest)
      (1 * (Pause.longest + 1))).watched with
  | watching n unseen watching early => cases watchers.symm.trans watching
  | ended k more last past ended =>
      have same := watchers.symm.trans ended
      injection same with same
      injection same with same
      rw [moment, length] at same
      unfold Pause.longest at same
      omega

end Timeline

end UpdateBridge
