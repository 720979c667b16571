import Mathlib.Algebra.Group.Nat.Defs
import UpdateBridge.Proofs.Engine.Stop
import UpdateBridge.Proofs.Intake.Arrivals
import UpdateBridge.Proofs.UpdateRun.Loss

/-!
# The steps of a run

A run is made of few kinds of steps: messages arrive, the line works, the
engine's task goes on, the watcher looks. The schedule says in which order they
come, and what a run owes its engine does not depend on it. So a `Trace` takes the
steps in any order, and counts the messages that arrive.

As long as the engine serves, the pool has lent what is in its queue and nothing
else, and each message that has arrived is in one place at most: unread, lent, or
kept by the engine (`Serving`). Once the engine has stopped, no step changes what
the pool holds or what the engine has kept (`Resting`).
-/

namespace UpdateBridge

namespace UpdateRun

section Steps

variable {ε : Type} {E : Engine ε} {start q r : UpdateRun ε} {n k : Nat}

/-- A step of a run, and how many messages it brings to the inbound mailbox. -/
inductive Step (E : Engine ε) (r : UpdateRun ε) : Nat → UpdateRun ε → Prop where
  /-- Messages arrive; what else happens at the broker is of no account. -/
  | arrive (broker : Broker) (more : List Message)
      (arrived : broker.mailbox? r.inbound = (r.broker.mailbox? r.inbound).map fun box =>
        { box with items := box.items ++ more }) :
      Step E r more.length { r with broker }
  | note (journal : Journal) : Step E r 0 { r with journal }
  | pass (moment : Nat) : Step E r 0 { r with now := moment }
  /-- The run is set up, the watcher looks, and the engine's task comes first. -/
  | launch {queue : Mailbox Event} {w : Watch} (idle : r.stage = .idle)
      (created : Mailbox.create r.settings.queueDepth = .ok queue)
      (begun : Watch.begin r.now r.settings.watchInterval = .ok w) :
      Step E r 0 (((r.setUp queue).look E w).advanceTask E)
  | line {work : Line → Line × List Note} (works : Line.Work work) : Step E r 0 (r.onLine work)
  | engine : Step E r 0 (r.advanceTask E)
  | abandon : Step E r 0 r.abandonQueue
  | look {w : Watch} (watching : r.stage = .watching w) : Step E r 0 (r.look E w)
  | conclude : Step E r 0 r.conclude

/-- What becomes of a run in some steps, and how many messages they bring. -/
inductive Trace (E : Engine ε) (start : UpdateRun ε) : Nat → UpdateRun ε → Prop where
  | here : Trace E start 0 start
  | step {q r : UpdateRun ε} {n k : Nat} (trace : Trace E start n q) (step : Step E q k r) :
      Trace E start (n + k) r

/-- The messages in the inbound mailbox. -/
def unread (r : UpdateRun ε) : Nat :=
  match r.broker.mailbox? r.inbound with
  | none => 0
  | some box => box.items.length

theorem unread_of_arrived {broker : Broker} {more : List Message}
    (arrived : broker.mailbox? r.inbound = (r.broker.mailbox? r.inbound).map fun box =>
      { box with items := box.items ++ more }) :
    unread { r with broker } ≤ r.unread + more.length := by
  unfold unread
  rw [arrived]
  cases r.broker.mailbox? r.inbound with
  | none => exact Nat.zero_le _
  | some box => exact Nat.le_of_eq List.length_append

/-- Where the run has come to and what the engine is are not the line's business. -/
theorem onLine_frame (work : Line → Line × List Note) (r : UpdateRun ε) :
    (r.onLine work).stage = r.stage ∧ (r.onLine work).now = r.now ∧
      (r.onLine work).task = r.task ∧ (r.onLine work).engine = r.engine := by
  unfold onLine
  split <;> exact ⟨rfl, rfl, rfl, rfl⟩

theorem abandonQueue_frame (r : UpdateRun ε) :
    r.abandonQueue.stage = r.stage ∧ r.abandonQueue.now = r.now ∧
      r.abandonQueue.task = r.task ∧ r.abandonQueue.engine = r.engine := by
  unfold abandonQueue
  split <;> exact ⟨rfl, rfl, rfl, rfl⟩

theorem mailbox?_onLine {box : Mailbox Message} (work : Line → Line × List Note)
    (found : r.broker.mailbox? r.inbound = some box) :
    (r.onLine work).broker.mailbox? (r.onLine work).inbound =
      some (work (r.intakeLine box)).1.inbound := by
  rw [onLine, found]
  show (r.broker.setMailbox r.inbound _).mailbox? r.inbound = _
  rw [Broker.mailbox?_setMailbox, if_pos rfl, found]
  rfl

/-- The line hands over messages that were unread, or does nothing. -/
theorem onLine_cases {work : Line → Line × List Note} (works : Line.Work work)
    (r : UpdateRun ε) :
    r.onLine work = r ∨ ∃ box messages, r.broker.mailbox? r.inbound = some box ∧
      (r.onLine work).pool = ((r.intakeLine box).handleAll messages).1.pool ∧
      (r.onLine work).queue = ((r.intakeLine box).handleAll messages).1.events ∧
      messages.length + (r.onLine work).unread ≤ r.unread := by
  rcases found : r.broker.mailbox? r.inbound with _ | box
  · left
    rw [onLine, found]
  · right
    obtain ⟨messages, pool, events, count⟩ := works.handles (r.intakeLine box)
    have after := mailbox?_onLine work found
    refine ⟨box, messages, rfl, ?_, ?_, ?_⟩
    · rw [onLine, found]
      exact pool
    · rw [onLine, found]
      exact events
    · rw [unread, unread, after, found]
      exact count

/-- A line that does not run leaves everything as it is. -/
theorem onLine_of_not_running {work : Line → Line × List Note} (works : Line.Work work)
    (resting : r.line ≠ .running) : ∃ journal, r.onLine work = { r with journal } := by
  rcases found : r.broker.mailbox? r.inbound with _ | box
  · refine ⟨r.journal, ?_⟩
    rw [onLine, found]
  · refine ⟨r.journal ++ Journal.stamped r.now (work (r.intakeLine box)).2, ?_⟩
    have same : (work (r.intakeLine box)).1 = r.intakeLine box := works.of_not_running resting
    rw [onLine, found]
    simp only [same]
    simp only [intakeLine, Broker.setMailbox_self found, noting]

end Steps

section Scripted

variable {start stopped q r : UpdateRun Scripted} {capacity size arrivals n k : Nat}

structure Unbegun (capacity size arrivals : Nat) (r : UpdateRun Scripted) : Prop where
  stage_eq : r.stage = .idle
  line_eq : r.line = .idle
  fresh : r.engineTask.Fresh capacity size
  count : r.unread ≤ arrivals

/-- The engine serves, and each message that has arrived is in one place at most. -/
structure Serving (capacity size arrivals : Nat) (r : UpdateRun Scripted) : Prop where
  watching : ∃ w, r.stage = .watching w ∧ 0 < w.interval
  attending : ∃ depth loans, r.engineTask.Attending capacity size depth loans ∧
    r.engine.payloads.length + loans.length + r.unread ≤ arrivals

/-- The engine has stopped, and all is as it was then. -/
structure Resting (capacity size : Nat) (stopped r : UpdateRun Scripted) : Prop where
  begun : r.stage ≠ .idle
  rest : r.engineTask.AtRest capacity size
  contents_eq : r.pool.contents = stopped.pool.contents
  engine_eq : ∃ reads, r.engine = { stopped.engine with reads }

/-- How a run stands after so many arrivals. -/
inductive Standing (capacity size arrivals : Nat) (r : UpdateRun Scripted) : Prop where
  | unbegun (unbegun : Unbegun capacity size arrivals r)
  | serving (serving : Serving capacity size arrivals r)
  | resting (stopped : UpdateRun Scripted) (resting : Resting capacity size stopped r)

/-! ## A run that has not begun -/

theorem Unbegun.of_eq (unbegun : Unbegun capacity size arrivals q) (stage : r.stage = q.stage)
    (line : r.line = q.line) (task : r.engineTask = q.engineTask)
    (count : r.unread ≤ q.unread + k) :
    Unbegun capacity size (arrivals + k) r where
  stage_eq := stage.trans unbegun.stage_eq
  line_eq := line.trans unbegun.line_eq
  fresh := by
    rw [task]
    exact unbegun.fresh
  count := Nat.le_trans count (Nat.add_le_add_right unbegun.count k)

/-- The run is set up, the watcher has looked, and the engine serves an empty queue. -/
theorem Unbegun.launch (unbegun : Unbegun capacity size arrivals r) {queue : Mailbox Event}
    {w : Watch} (created : Mailbox.create r.settings.queueDepth = .ok queue)
    (begun : Watch.begin r.now r.settings.watchInterval = .ok w) :
    let launched := ((r.setUp queue).look Scripted.engine w).advanceTask Scripted.engine
    Serving capacity size arrivals launched ∧ launched.stage = .watching w.looked ∧
      launched.now = r.now := by
  obtain ⟨depth, rfl⟩ := Mailbox.create_eq_ok_iff.mp created
  rw [Watch.begin] at begun
  split at begun
  · cases begun
  next interval =>
  obtain rfl := Except.ok.inj begun
  have fresh := unbegun.fresh
  have init : r.engine.phase = .init := fresh.phase_eq
  have sight : Sight.of r.engine.phase TaskState.created.isOver = .working := by rw [init]; rfl
  rw [setUp_eq r depth, look_of_working sight]
  obtain ⟨attending, payloads⟩ := Engine.Task.attending_start (p := r.pool)
    (e := { r.engine with reads := r.engine.reads + 1 }) fresh.lends fresh.calm fresh.counted
    r.settings.queueDepth r.settings.unsubscribeOnShutdown
  refine ⟨⟨⟨_, rfl, Nat.pos_of_ne_zero interval⟩, _, [], attending, ?_⟩, rfl, rfl⟩
  have none := congrArg (fun kept : List (List UInt8) => kept.length + 0 + r.unread)
    (payloads.trans fresh.payloads_eq)
  have less : 0 + r.unread ≤ arrivals := by
    rw [Nat.zero_add]
    exact unbegun.count
  exact Nat.le_trans (Nat.le_of_eq none) less

/-! ## A run whose engine serves -/

theorem Serving.of_eq (serving : Serving capacity size arrivals q) (stage : r.stage = q.stage)
    (task : r.engineTask = q.engineTask) (count : r.unread ≤ q.unread + k) :
    Serving capacity size (arrivals + k) r where
  watching := by
    rw [stage]
    exact serving.watching
  attending := by
    obtain ⟨depth, loans, attending, places⟩ := serving.attending
    have engine : r.engine = q.engine := congrArg Engine.Task.engine task
    rw [task, engine]
    exact ⟨depth, loans, attending, by omega⟩

theorem Serving.onLine (serving : Serving capacity size arrivals r)
    {work : Line → Line × List Note} (works : Line.Work work) :
    Serving capacity size arrivals (r.onLine work) := by
  obtain same | ⟨box, messages, found, pool, events, count⟩ := onLine_cases works r
  · rw [same]
    exact serving
  · obtain ⟨stage, -, task, engine⟩ := onLine_frame work r
    obtain ⟨depth, loans, attending, places⟩ := serving.attending
    obtain ⟨loans', lends, queue, more⟩ := Line.handleAll_of_lends_any (l := r.intakeLine box)
      attending.lends attending.queue_eq messages
    rw [← pool] at lends
    rw [← events] at queue
    refine ⟨?_, depth, loans', ⟨task.trans attending.state_eq, queue, lends, ?_⟩, ?_⟩
    · rw [stage]
      exact serving.watching
    · show (r.onLine work).engine.Working
      rw [engine]
      exact attending.working
    · have less : loans'.length ≤ loans.length + messages.length := more
      rw [engine]
      omega

theorem Serving.sight (serving : Serving capacity size arrivals r) :
    Sight.of r.engine.phase r.task.isOver = .working := by
  obtain ⟨depth, loans, attending, -⟩ := serving.attending
  have active : r.engine.phase = .active := attending.working.active
  have waiting : r.task = .waiting := attending.state_eq
  rw [active, waiting]
  rfl

theorem Serving.look (serving : Serving capacity size arrivals r) {w : Watch}
    (watching : r.stage = .watching w) :
    Serving capacity size arrivals (r.look Scripted.engine w) := by
  obtain ⟨depth, loans, attending, places⟩ := serving.attending
  obtain ⟨w', watching', apart⟩ := serving.watching
  obtain rfl : w' = w := RunStage.watching.inj (watching'.symm.trans watching)
  rw [look_of_working serving.sight]
  have working : Scripted.Working { r.engine with reads := r.engine.reads + 1 } :=
    ⟨attending.working.active, attending.working.calm, attending.working.counted⟩
  exact ⟨⟨_, rfl, apart⟩, depth, loans,
    ⟨attending.state_eq, attending.queue_eq, attending.lends, working⟩, places⟩

/-- The engine serves on, or it stops and its accounts are in order. -/
theorem Serving.advanceTask (serving : Serving capacity size arrivals r) :
    Serving capacity size arrivals (r.advanceTask Scripted.engine) ∨
      (r.advanceTask Scripted.engine).engine.payloads.length ≤ arrivals ∧
        Resting capacity size (r.advanceTask Scripted.engine) (r.advanceTask Scripted.engine) ∧
        (r.advanceTask Scripted.engine).engineTask.Accounts r.queue.items
          (Scripted.engine.serveAll r.settings.unsubscribeOnShutdown r.pool r.engine
            r.queue.items).rest := by
  obtain ⟨depth, loans, attending, places⟩ := serving.attending
  obtain ⟨count, attending | ⟨rest, accounts⟩⟩ :=
    attending.advance r.settings.unsubscribeOnShutdown
  · exact .inl ⟨serving.watching, depth, [], attending,
      Nat.le_trans (Nat.add_le_add_right count r.unread) places⟩
  · refine .inr ⟨?_, ⟨?_, rest, rfl, _, rfl⟩, accounts⟩
    · exact Nat.le_trans count (Nat.le_trans (Nat.le_add_right _ r.unread) places)
    · obtain ⟨w, watching, -⟩ := serving.watching
      show r.stage ≠ .idle
      rw [watching]
      exact fun same => RunStage.noConfusion same

/-! ## A run whose engine has stopped -/

theorem look_of_stopped (stopped : r.engine.phase = .stopped) (w : Watch) :
    r.look Scripted.engine w =
      { r with
        engine := { r.engine with reads := r.engine.reads + 1 }
        stage := .closing r.engine.counters, lineStopping := true
        }.noting [.engineStopped r.engine.counters] := by
  rw [look, Engine.look]
  simp only [Scripted.engine, stopped]
  rfl

theorem Resting.of_eq (resting : Resting capacity size stopped q) (begun : r.stage ≠ .idle)
    (task : r.engineTask = q.engineTask) : Resting capacity size stopped r where
  begun := begun
  rest := by
    rw [task]
    exact resting.rest
  contents_eq := (congrArg (·.pool.contents) task).trans resting.contents_eq
  engine_eq := by
    have engine : r.engine = q.engine := congrArg Engine.Task.engine task
    rw [engine]
    exact resting.engine_eq

theorem Resting.onLine (resting : Resting capacity size stopped r)
    {work : Line → Line × List Note} (works : Line.Work work) :
    Resting capacity size stopped (r.onLine work) := by
  obtain same | ⟨box, messages, found, pool, events, -⟩ := onLine_cases works r
  · rw [same]
    exact resting
  · obtain ⟨stage, -, task, engine⟩ := onLine_frame work r
    obtain ⟨left, lends⟩ := resting.rest.lends
    obtain ⟨lends', contents, queue⟩ := Line.handleAll_of_closed (l := r.intakeLine box)
      lends resting.rest.closed messages
    rw [← pool] at lends' contents
    rw [← events] at queue
    refine ⟨?_, ⟨?_, ?_, ?_, left, lends'⟩, contents.trans resting.contents_eq, ?_⟩
    · rw [stage]
      exact resting.begun
    · exact task.trans resting.rest.state_eq
    · exact (congrArg Mailbox.closed queue).trans resting.rest.closed
    · exact (congrArg Scripted.phase engine).trans resting.rest.phase_eq
    · rw [engine]
      exact resting.engine_eq

theorem Resting.step (resting : Resting capacity size stopped q)
    (step : Step Scripted.engine q k r) : Resting capacity size stopped r := by
  cases step with
  | arrive | note | pass => exact resting.of_eq resting.begun rfl
  | launch idle => exact absurd idle resting.begun
  | line works => exact resting.onLine works
  | engine =>
      have finished : q.task = .finished := resting.rest.state_eq
      exact resting.of_eq resting.begun
        (engineTask_advanceTask_of_over _ (by rw [finished]; rfl))
  | abandon =>
      rw [abandonQueue]
      split
      · exact ⟨resting.begun, ⟨resting.rest.state_eq, resting.rest.closed, resting.rest.phase_eq,
          resting.rest.lends⟩, resting.contents_eq, resting.engine_eq⟩
      · exact resting
  | look =>
      obtain ⟨reads, engine⟩ := resting.engine_eq
      rw [look_of_stopped resting.rest.phase_eq]
      refine ⟨RunStage.noConfusion, ⟨resting.rest.state_eq, resting.rest.closed,
        resting.rest.phase_eq, resting.rest.lends⟩, resting.contents_eq, reads + 1, ?_⟩
      show { q.engine with reads := q.engine.reads + 1 } = _
      rw [engine]
  | conclude =>
      refine resting.of_eq ?_ (engineTask_conclude q)
      rw [UpdateRun.conclude]
      split
      · exact RunStage.noConfusion
      · exact RunStage.noConfusion
      · exact resting.begun

theorem Resting.trace (trace : Trace Scripted.engine q n r)
    (resting : Resting capacity size stopped q) : Resting capacity size stopped r := by
  induction trace with
  | here => exact resting
  | step trace step ih => exact ih.step step

/-! ## All steps -/

theorem Standing.step (standing : Standing capacity size arrivals q)
    (step : Step Scripted.engine q k r) : Standing capacity size (arrivals + k) r := by
  cases standing with
  | unbegun unbegun =>
      cases step with
      | arrive broker more arrived =>
          exact .unbegun (unbegun.of_eq rfl rfl rfl (unread_of_arrived arrived))
      | note | pass => exact .unbegun (unbegun.of_eq rfl rfl rfl (Nat.le_refl _))
      | launch idle created begun => exact .serving (unbegun.launch created begun).1
      | line works =>
          have resting : q.line ≠ .running := by
            rw [unbegun.line_eq]
            exact LineState.noConfusion
          obtain ⟨journal, same⟩ := onLine_of_not_running works resting
          rw [same]
          exact .unbegun (unbegun.of_eq rfl rfl rfl (Nat.le_refl _))
      | engine =>
          have absent : q.task = .absent := unbegun.fresh.state_eq
          have same := engineTask_advanceTask_of_over Scripted.engine (by rw [absent]; rfl)
          exact .unbegun (unbegun.of_eq rfl rfl same (Nat.le_refl _))
      | abandon =>
          rw [abandonQueue, unbegun.stage_eq]
          exact .unbegun unbegun
      | look watching => exact absurd (unbegun.stage_eq.symm.trans watching) RunStage.noConfusion
      | conclude =>
          rw [UpdateRun.conclude, unbegun.stage_eq]
          exact .unbegun unbegun
  | serving serving =>
      obtain ⟨w, watching, -⟩ := serving.watching
      cases step with
      | arrive broker more arrived =>
          exact .serving (serving.of_eq rfl rfl (unread_of_arrived arrived))
      | note | pass => exact .serving (serving.of_eq rfl rfl (Nat.le_refl _))
      | launch idle => exact absurd (idle.symm.trans watching) RunStage.noConfusion
      | line works => exact .serving (serving.onLine works)
      | engine =>
          obtain serving | ⟨-, resting, -⟩ := serving.advanceTask
          · exact .serving serving
          · exact .resting _ resting
      | abandon =>
          rw [abandonQueue_of_watching watching]
          exact .serving serving
      | look watching => exact .serving (serving.look watching)
      | conclude =>
          rw [conclude_of_watching watching]
          exact .serving serving
  | resting stopped resting => exact .resting stopped (resting.step step)

theorem Trace.standing (trace : Trace Scripted.engine start n r)
    (unbegun : Unbegun capacity size start.unread start) :
    Standing capacity size (start.unread + n) r := by
  induction trace with
  | here => exact .unbegun unbegun
  | step trace step ih =>
      rw [← Nat.add_assoc]
      exact ih.step step

/-! ## The stop -/

/-- The engine's task waits, and when it goes on now it ends. -/
structure Ending (q : UpdateRun Scripted) : Prop where
  waiting : q.task = .waiting
  finished : (q.advanceTask Scripted.engine).task = .finished

/-- What the engine has left is as it was when it stopped, and what arrives now is
refused. -/
structure Quiet (stopped r : UpdateRun Scripted) : Prop where
  contents_eq : r.pool.contents = stopped.pool.contents
  handles_perm : r.pool.handles.Perm stopped.pool.handles
  /-- Of the engine's records only the number of looks at its counters changes. -/
  engine_eq : ∃ reads, r.engine = { stopped.engine with reads }
  refused : ∀ m : Message, Intake.Refused r.pool m
    (Intake.dispatch Sink.queue Route.updates m.topic m.payload r.pool r.queue)

theorem Resting.quiet (resting : Resting capacity size stopped r) : Quiet stopped r where
  contents_eq := resting.contents_eq
  handles_perm := Pool.handles_perm_of_iff stopped.pool.nodup_handles fun h => by
    rw [resting.contents_eq, Pool.mem_handles_iff_contents]
  engine_eq := resting.engine_eq
  refused m := by
    obtain ⟨left, lends⟩ := resting.rest.lends
    exact Intake.refused_of_closed lends resting.rest.closed m

/-- What the engine leaves when it stops after so many arrivals. -/
structure Legacy (arrivals : Nat) (q : UpdateRun Scripted) : Prop where
  accounts : (q.advanceTask Scripted.engine).engineTask.Accounts q.queue.items
    (Scripted.engine.serveAll q.settings.unsubscribeOnShutdown q.pool q.engine q.queue.items).rest
  /-- The counters wrap around, but not before 2^32 arrivals. -/
  exact : arrivals < 2 ^ 32 →
    let e := (q.advanceTask Scripted.engine).engine
    e.counters.received.toNat = e.payloads.length ∧
      e.counters.processed.toNat = e.payloads.length ∧ e.counters.dropped = 0
  quiet : ∀ {m : Nat} {r : UpdateRun Scripted},
    Trace Scripted.engine (q.advanceTask Scripted.engine) m r →
      Quiet (q.advanceTask Scripted.engine) r

theorem Trace.serving_of_waiting (trace : Trace Scripted.engine start n r)
    (unbegun : Unbegun capacity size start.unread start) (waiting : r.task = .waiting) :
    Serving capacity size (start.unread + n) r := by
  cases trace.standing unbegun with
  | unbegun unbegun =>
      exact absurd (unbegun.fresh.state_eq.symm.trans waiting) TaskState.noConfusion
  | serving serving => exact serving
  | resting stopped resting =>
      exact absurd (resting.rest.state_eq.symm.trans waiting) TaskState.noConfusion

/-- When the engine stops, the run is at rest. -/
theorem Trace.legacy (trace : Trace Scripted.engine start n q)
    (unbegun : Unbegun capacity size start.unread start) (ending : Ending q) :
    Resting capacity size (q.advanceTask Scripted.engine) (q.advanceTask Scripted.engine) ∧
      Legacy (start.unread + n) q := by
  obtain serving | ⟨kept, resting, accounts⟩ :=
    (trace.serving_of_waiting unbegun ending.waiting).advanceTask
  · obtain ⟨depth, loans, attending, -⟩ := serving.attending
    exact absurd (ending.finished.symm.trans attending.state_eq) TaskState.noConfusion
  · refine ⟨resting, accounts, fun few => ?_, fun later => (Resting.trace later resting).quiet⟩
    intro e
    have counters : e.counters = _ := accounts.counted
    have small : (UInt32.ofNat e.payloads.length).toNat = e.payloads.length :=
      UInt32.toNat_ofNat_of_lt' (Nat.lt_of_le_of_lt kept few)
    rw [counters]
    exact ⟨small, small, rfl⟩

end Scripted

end UpdateRun

end UpdateBridge
