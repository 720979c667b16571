import UpdateBridge.Proofs.UpdateRun.Trace

/-!
# The end of a run

Whatever comes over a run, it is made of the steps of a `Trace`, so when its
engine stops the accounts are in order and stay so. What is left to say is when
the run ends. Until the stop the watcher's next look lies ahead; the watcher
does not see the stop before that look, and then the run is over at that very
moment with the counters that the engine stopped with (`Report`). How the run has
come there does not matter: the watcher's looks are the only thing that time
brings (`Timed`).
-/

namespace UpdateBridge

/-- What can happen to a run from outside, by way of the broker or past it. -/
inductive Incident where
  | meets (happening : Happening)
  /-- Messages are posted into the inbound mailbox directly. -/
  | posts (messages : List Message)

/-- Looks are apart. -/
theorem Watch.next_lt_looked (w : Watch) (apart : 0 < w.interval) : w.next < w.looked.next := by
  have pause : Pause.length w.interval ≠ 0 := fun none =>
    Nat.ne_of_gt apart (Pause.length_eq_zero.mp none)
  have later : w.looked.next = w.next + Pause.length w.interval := by
    rw [next, next, looked, Nat.succ_mul, Nat.add_assoc]
  omega

namespace UpdateRun

variable {start stopped q r : UpdateRun Scripted} {capacity size n k m : Nat} {w : Watch}

def incur {ε : Type} (E : Engine ε) (r : UpdateRun ε) : Incident → UpdateRun ε
  | .meets happening => r.meet E happening
  | .posts messages => (r.postAll E messages).2

def incurAll {ε : Type} (E : Engine ε) (r : UpdateRun ε) (course : List Incident) : UpdateRun ε :=
  course.foldl (incur E) r

/-- How many messages an incident sends to the inbound mailbox. -/
def sent {ε : Type} (r : UpdateRun ε) : Incident → Nat
  | .meets (.burst messages) => (Broker.posted r.inbound r.broker.table messages).length
  | .meets (.wait _) => 0
  | .posts messages => messages.length

def sentAll {ε : Type} (E : Engine ε) (r : UpdateRun ε) : List Incident → Nat
  | [] => 0
  | incident :: course => r.sent incident + (r.incur E incident).sentAll E course

/-! ## What the watcher makes of the stop -/

/-- The engine is about to stop, and the watcher looks next at `w.next`. -/
structure Stop (start q : UpdateRun Scripted) (n : Nat) (w : Watch) : Prop extends Ending q where
  trace : Trace Scripted.engine start n q
  watching : q.stage = .watching w
  early : q.now < w.next

theorem Stop.resting (stop : Stop start q k w)
    (later : Trace Scripted.engine (q.advanceTask Scripted.engine) m r)
    (unbegun : Unbegun capacity size start.unread start) :
    Resting capacity size (q.advanceTask Scripted.engine) r :=
  Resting.trace later (stop.trace.legacy unbegun stop.toEnding).1

/-- What the watcher has made of an engine that has stopped. -/
inductive Report (w : Watch) (e : Scripted) (r : UpdateRun Scripted) : Prop where
  | awaited (watching : r.stage = .watching w) (early : r.now < w.next) (engine : r.engine = e)
  | closing (closing : r.stage = .closing e.counters) (moment : r.now = w.next)
      (engine : r.engine = { e with reads := e.reads + 1 })
  | reported (stage : r.stage = .over w.next (.ok e.counters)) (late : w.next ≤ r.now)
      (engine : r.engine = { e with reads := e.reads + 1 })

theorem Report.of_eq {e : Scripted} (report : Report w e q) (stage : r.stage = q.stage)
    (now : r.now = q.now) (engine : r.engine = q.engine) : Report w e r := by
  cases report with
  | awaited watching early same =>
      exact .awaited (stage.trans watching) (by rwa [now]) (engine.trans same)
  | closing closing moment same =>
      exact .closing (stage.trans closing) (now.trans moment) (engine.trans same)
  | reported stage' late same =>
      exact .reported (stage.trans stage') (by rwa [now]) (engine.trans same)

/-- A watcher that still watches has not seen the stop. -/
theorem Report.of_watching {w' : Watch} {e : Scripted} (report : Report w' e r)
    (watching : r.stage = .watching w) : w' = w ∧ r.now < w'.next ∧ r.engine = e := by
  cases report with
  | awaited watching' early engine =>
      exact ⟨RunStage.watching.inj (watching'.symm.trans watching), early, engine⟩
  | closing closing => exact absurd (closing.symm.trans watching) RunStage.noConfusion
  | reported stage => exact absurd (stage.symm.trans watching) RunStage.noConfusion

/-- The run and its times, after so many messages at most have arrived. -/
inductive Timed (start : UpdateRun Scripted) (n : Nat) (r : UpdateRun Scripted) : Prop where
  /-- The run has failed before there was a task. -/
  | failed (absent : r.task = .absent) (unwatched : ∀ w, r.stage ≠ .watching w)
      (unclosed : ∀ counters, r.stage ≠ .closing counters)
  | serving (k : Nat) (few : k ≤ n) (trace : Trace Scripted.engine start k r)
      (waiting : r.task = .waiting) (w : Watch) (watching : r.stage = .watching w)
      (early : r.now < w.next)
  | stopped (k : Nat) (few : k ≤ n) (q : UpdateRun Scripted) (w : Watch) (stop : Stop start q k w)
      (m : Nat) (later : Trace Scripted.engine (q.advanceTask Scripted.engine) m r)
      (report : Report w (q.advanceTask Scripted.engine).engine r)

namespace Timed

theorem mono (timed : Timed start n r) (more : n ≤ m) : Timed start m r := by
  cases timed with
  | failed absent unwatched unclosed => exact .failed absent unwatched unclosed
  | serving k few trace waiting w watching early =>
      exact .serving k (Nat.le_trans few more) trace waiting w watching early
  | stopped k few q w stop m later report =>
      exact .stopped k (Nat.le_trans few more) q w stop m later report

/-- A step that neither the task nor the watcher notices. -/
theorem frame (timed : Timed start n q) (step : Step Scripted.engine q k r)
    (stage : r.stage = q.stage) (now : r.now = q.now) (task : r.task = q.task)
    (engine : r.engine = q.engine) : Timed start (n + k) r := by
  cases timed with
  | failed absent unwatched unclosed =>
      rw [← stage] at unwatched unclosed
      exact .failed (task.trans absent) unwatched unclosed
  | serving k few trace waiting w watching early =>
      rw [← now] at early
      exact .serving _ (Nat.add_le_add_right few _) (trace.step step) (task.trans waiting) w
        (stage.trans watching) early
  | stopped k few q w stop m later report =>
      exact .stopped k (Nat.le_add_right_of_le few) q w stop _ (later.step step)
        (report.of_eq stage now engine)

theorem arrive (timed : Timed start n r) {broker : Broker} {items : List Message}
    (posted : broker.mailbox? r.inbound =
      (r.broker.mailbox? r.inbound).map fun box => (box.postAll items).2)
    (journal : Journal) : Timed start (n + items.length) { r with broker, journal } := by
  obtain ⟨more, less, arrived⟩ := Broker.exists_arrived posted
  have arrival := timed.frame (.arrive broker more arrived) rfl rfl rfl rfl
  exact (arrival.frame (.note journal) rfl rfl rfl rfl).mono (Nat.add_le_add_left less n)

theorem onLine (timed : Timed start n r) {work : Line → Line × List Note}
    (works : Line.Work work) : Timed start n (r.onLine work) := by
  obtain ⟨stage, now, task, engine⟩ := onLine_frame work r
  exact timed.frame (.line works) stage now task engine

theorem abandonQueue (timed : Timed start n r) : Timed start n r.abandonQueue := by
  obtain ⟨stage, now, task, engine⟩ := abandonQueue_frame r
  exact timed.frame .abandon stage now task engine

/-- The engine serves on, or this is the stop. -/
theorem advanceTask (timed : Timed start n r) (unbegun : Unbegun capacity size start.unread start) :
    Timed start n (r.advanceTask Scripted.engine) := by
  have idle : r.task.isAlive = false → Timed start n (r.advanceTask Scripted.engine) := by
    intro dead
    have same := engineTask_advanceTask_of_over Scripted.engine dead
    exact timed.frame .engine rfl rfl (congrArg Engine.Task.state same)
      (congrArg Engine.Task.engine same)
  cases timed with
  | failed absent => exact idle (by rw [absent]; rfl)
  | serving k few trace waiting w watching early =>
      obtain serving | ⟨-, resting, -⟩ := (trace.serving_of_waiting unbegun waiting).advanceTask
      · obtain ⟨depth, loans, attending, -⟩ := serving.attending
        exact .serving k few (trace.step .engine) attending.state_eq w watching early
      · exact .stopped k few r w ⟨⟨waiting, resting.rest.state_eq⟩, trace, watching, early⟩ 0 .here
          (.awaited watching early rfl)
  | stopped k few q w stop m later =>
      have resting := stop.resting later unbegun
      have finished : r.task = .finished := resting.rest.state_eq
      exact idle (by rw [finished]; rfl)

/-- Once a run is concluded, nothing is left to conclude. -/
theorem conclude (timed : Timed start n r) (unbegun : Unbegun capacity size start.unread start) :
    Timed start n r.conclude ∧ ∀ counters, r.conclude.stage ≠ .closing counters := by
  by_cases closing : ∃ counters, r.stage = .closing counters
  · obtain ⟨counters, closing⟩ := closing
    cases timed with
    | failed absent unwatched unclosed => exact absurd closing (unclosed counters)
    | serving k few trace waiting w watching early =>
        exact absurd (watching.symm.trans closing) RunStage.noConfusion
    | stopped k few q w stop m later report =>
        have resting := stop.resting later unbegun
        have finished : r.task = .finished := resting.rest.state_eq
        have concluded : r.conclude = { r with stage := .over r.now (.ok counters) } := by
          rw [UpdateRun.conclude, closing, finished]
        have step := later.step .conclude
        rw [concluded] at step ⊢
        cases report with
        | awaited watching => exact absurd (watching.symm.trans closing) RunStage.noConfusion
        | closing closing' moment engine =>
            obtain rfl := RunStage.closing.inj (closing'.symm.trans closing)
            have late : w.next ≤ r.now := Nat.le_of_eq moment.symm
            refine ⟨.stopped k few q w stop m step (.reported ?_ late engine), ?_⟩
            · rw [moment]
            · exact fun _ => RunStage.noConfusion
        | reported stage => exact absurd (stage.symm.trans closing) RunStage.noConfusion
  · have same : r.conclude = r := by
      unfold UpdateRun.conclude
      split
      · next counters stage _ => exact absurd ⟨counters, stage⟩ closing
      · next counters _ stage _ => exact absurd ⟨counters, stage⟩ closing
      · rfl
    rw [same]
    exact ⟨timed, fun counters stage => closing ⟨counters, stage⟩⟩

theorem early (timed : Timed start n r) (watching : r.stage = .watching w) : r.now < w.next := by
  cases timed with
  | failed absent unwatched => exact absurd watching (unwatched w)
  | serving k few trace waiting w' watching' early =>
      obtain rfl := RunStage.watching.inj (watching'.symm.trans watching)
      exact early
  | stopped k few q w' stop m later report =>
      obtain ⟨rfl, early, -⟩ := report.of_watching watching
      exact early

/-- The watcher looks at its time: the engine goes on, or the watcher has seen the
stop. -/
theorem look (timed : Timed start n r) (unbegun : Unbegun capacity size start.unread start)
    (watching : r.stage = .watching w) :
    Timed start n ({ r with now := w.next }.look Scripted.engine w) := by
  cases timed with
  | failed absent unwatched => exact absurd watching (unwatched w)
  | serving k few trace waiting =>
      have serving := trace.serving_of_waiting unbegun waiting
      obtain ⟨w', watching', apart⟩ := serving.watching
      obtain rfl := RunStage.watching.inj (watching'.symm.trans watching)
      have step := (trace.step (.pass w'.next)).step (.look watching)
      rw [look_of_working (r := { r with now := w'.next }) serving.sight] at step ⊢
      exact .serving k few step waiting w'.looked rfl (w'.next_lt_looked apart)
  | stopped k few q w' stop m later report =>
      have resting := stop.resting later unbegun
      have phase : r.engine.phase = .stopped := resting.rest.phase_eq
      have step := (later.step (.pass w.next)).step (.look watching)
      rw [look_of_stopped (r := { r with now := w.next }) phase] at step ⊢
      obtain ⟨rfl, -, engine⟩ := report.of_watching watching
      refine .stopped k few q w' stop m step ?_
      rw [← engine]
      exact .closing rfl rfl rfl

end Timed

/-- The run and its times when nothing more can happen at the moment. -/
structure Settled (start : UpdateRun Scripted) (n : Nat) (r : UpdateRun Scripted) : Prop where
  timed : Timed start n r
  unclosed : ∀ counters, r.stage ≠ .closing counters

theorem Timed.settle (timed : Timed start n r)
    (unbegun : Unbegun capacity size start.unread start) :
    Settled start n (r.settle Scripted.engine) := by
  obtain ⟨q, timed, settled⟩ := exists_conclude (P := Timed start n) (E := Scripted.engine)
    (fun works timed => timed.onLine works) (fun timed => timed.abandonQueue)
    (fun timed => timed.advanceTask unbegun) timed r.fullTurns
  obtain ⟨timed, unclosed⟩ := timed.conclude unbegun
  rw [UpdateRun.settle, settled]
  exact ⟨timed, unclosed⟩

theorem now_settle (r : UpdateRun Scripted) : (r.settle Scripted.engine).now = r.now := by
  obtain ⟨q, now, settled⟩ := exists_conclude (P := fun q => q.now = r.now) (E := Scripted.engine)
    (fun {q} {work} _ now => (onLine_frame work q).2.1.trans now)
    (fun {q} now => (abandonQueue_frame q).2.1.trans now) (fun now => now) rfl r.fullTurns
  rw [UpdateRun.settle, settled, ← now, conclude]
  split <;> rfl

namespace Settled

theorem pass (settled : Settled start n r) {moment : Nat} (ahead : r.now ≤ moment)
    (before : ∀ w, r.stage = .watching w → moment < w.next) :
    Settled start n { r with now := moment } := by
  refine ⟨?_, settled.unclosed⟩
  cases settled.timed with
  | failed absent unwatched unclosed => exact .failed absent unwatched unclosed
  | serving k few trace waiting w watching =>
      exact .serving k few (trace.step (.pass moment)) waiting w watching (before w watching)
  | stopped k few q w stop m later report =>
      refine .stopped k few q w stop m (later.step (.pass moment)) ?_
      cases report with
      | awaited watching early engine => exact .awaited watching (before w watching) engine
      | closing closing => exact absurd closing (settled.unclosed _)
      | reported stage late engine => exact .reported stage (Nat.le_trans late ahead) engine

theorem advanceWith (settled : Settled start n r)
    (unbegun : Unbegun capacity size start.unread start) {moment fuel : Nat}
    (ahead : r.now ≤ moment) (enough : moment - r.now ≤ fuel) :
    Settled start n (r.advanceWith Scripted.engine moment fuel) := by
  -- Each look comes later than the last, so the fuel lasts up to the moment.
  induction fuel generalizing r with
  | zero =>
      obtain rfl : r.now = moment := by omega
      exact settled
  | succ fuel ih =>
      by_cases watched : ∃ w, r.stage = .watching w
      · obtain ⟨w, watching⟩ := watched
        have early := settled.timed.early watching
        have next : r.due? = some w.next := by rw [due?, watching]
        rw [UpdateRun.advanceWith, next]
        by_cases due : w.next ≤ moment
        · have looked : { r with now := w.next }.onTime Scripted.engine =
              ({ r with now := w.next }.look Scripted.engine w).settle Scripted.engine := by
            simp only [onTime, watching, if_pos (Nat.le_refl w.next)]
          have now : (({ r with now := w.next }.look Scripted.engine w).settle
              Scripted.engine).now = w.next := by
            rw [now_settle, UpdateRun.look]
            split <;> rfl
          simp only [if_pos due, looked]
          exact ih ((settled.timed.look unbegun watching).settle unbegun) (by omega) (by omega)
        · simp only [if_neg due]
          refine settled.pass ahead fun w' watching' => ?_
          obtain rfl := RunStage.watching.inj (watching.symm.trans watching')
          exact Nat.lt_of_not_le due
      · have none : r.due? = none := by
          rw [due?]
          split
          · next w watching => exact absurd ⟨w, watching⟩ watched
          · rfl
        rw [UpdateRun.advanceWith, none]
        exact settled.pass ahead fun w watching => absurd ⟨w, watching⟩ watched

theorem incur (settled : Settled start n r) (unbegun : Unbegun capacity size start.unread start)
    (incident : Incident) :
    Settled start (n + r.sent incident) (r.incur Scripted.engine incident) := by
  cases incident with
  | meets happening =>
      cases happening with
      | burst messages =>
          obtain ⟨journal, delivered⟩ := deliverAll_eq Scripted.engine r messages
          have arrived := settled.timed.arrive
            (Broker.mailbox?_deliverAll_eq r.broker messages r.inbound) journal
          show Settled start _ (r.deliverAll Scripted.engine messages).2
          rw [delivered]
          exact arrived.settle unbegun
      | wait milliseconds =>
          exact settled.advanceWith unbegun (Nat.le_add_right _ _) (by omega)
  | posts messages =>
      show Settled start _ (r.postAll Scripted.engine messages).2
      rw [postAll]
      split
      · exact ⟨settled.timed.mono (Nat.le_add_right _ _), settled.unclosed⟩
      · next box found =>
          refine (settled.timed.arrive ?_ r.journal).settle unbegun
          rw [Broker.mailbox?_setMailbox, if_pos rfl, found]
          rfl

theorem incurAll (settled : Settled start n r)
    (unbegun : Unbegun capacity size start.unread start) (course : List Incident) :
    Settled start (n + r.sentAll Scripted.engine course) (r.incurAll Scripted.engine course) := by
  induction course generalizing r n with
  | nil => exact settled
  | cons incident course ih =>
      rw [sentAll, ← Nat.add_assoc]
      exact ih (settled.incur unbegun incident)

end Settled

/-- A run fails before there is a task, or it has subscribed and is set up. -/
theorem begin_cases {ε : Type} (E : Engine ε) (conditions : List Condition) (r : UpdateRun ε) :
    (∃ broker journal stage, (∀ w, stage ≠ .watching w) ∧ (∀ counters, stage ≠ .closing counters) ∧
        r.begin E conditions = { r with broker, journal, stage }) ∨
      ∃ broker journal queue, broker.mailbox? r.inbound = r.broker.mailbox? r.inbound ∧
        Mailbox.create r.settings.queueDepth = .ok queue ∧
        r.begin E conditions =
          ((({ r with broker, journal }.setUp queue).beginWatch E).advanceTask E).settle E := by
  unfold UpdateRun.begin
  dsimp only
  split
  · exact .inl ⟨_, _, _, fun _ => RunStage.noConfusion, fun _ => RunStage.noConfusion, rfl⟩
  · next done =>
      split
      · exact .inl ⟨_, _, _, fun _ => RunStage.noConfusion, fun _ => RunStage.noConfusion, rfl⟩
      · next queue created =>
          exact .inr ⟨_, _, queue, UpdateTopics.mailbox?_subscribe done _, created, rfl⟩

/-- A run that begins serves, or it has failed before there was a task. -/
theorem settled_begin (unbegun : Unbegun capacity size start.unread start)
    (interval : 0 < start.settings.watchInterval) (conditions : List Condition) :
    Settled start 0 (start.begin Scripted.engine conditions) := by
  obtain ⟨broker, journal, stage, unwatched, unclosed, failed⟩ |
    ⟨broker, journal, queue, same, created, begun⟩ := begin_cases Scripted.engine conditions start
  · rw [failed]
    exact ⟨.failed unbegun.fresh.state_eq unwatched unclosed, unclosed⟩
  · rw [begun]
    have arrived : broker.mailbox? start.inbound =
        (start.broker.mailbox? start.inbound).map fun box =>
          { box with items := box.items ++ [] } := by
      simp [same]
    have subscribed : Trace Scripted.engine start 0 { start with broker, journal } :=
      (Trace.here.step (.arrive broker [] arrived)).step (.note journal)
    have unread : unread { start with broker } ≤ start.unread + 0 := unread_of_arrived arrived
    have unbegun' : Unbegun capacity size start.unread { start with broker, journal } :=
      Unbegun.of_eq (k := 0) unbegun rfl rfl rfl unread
    have watch : Watch.begin start.now start.settings.watchInterval =
        .ok ⟨start.now, start.settings.watchInterval, 0⟩ := by
      rw [Watch.begin, if_neg (Nat.ne_of_gt interval)]
    have looked : ({ start with broker, journal }.setUp queue).beginWatch Scripted.engine =
        ({ start with broker, journal }.setUp queue).look Scripted.engine
          ⟨start.now, start.settings.watchInterval, 0⟩ := by
      rw [beginWatch]
      simp only [setUp, noting, watch]
    obtain ⟨serving, watching, now⟩ := unbegun'.launch created watch
    obtain ⟨depth, loans, attending, -⟩ := serving.attending
    have early := Watch.next_lt_looked ⟨start.now, start.settings.watchInterval, 0⟩ interval
    rw [Watch.next, Nat.zero_mul, Nat.add_zero] at early
    rw [looked]
    exact Timed.settle (.serving 0 (Nat.le_refl 0)
      (subscribed.step (.launch unbegun'.stage_eq created watch)) attending.state_eq _ watching
      (Nat.lt_of_le_of_lt (Nat.le_of_eq now) early)) unbegun

/-- A bridge with a scripted engine and a pool of its own, before it runs. -/
theorem unbegun_idle (settings : Settings) (capacity size : Nat) {script : Script}
    (calm : script ≠ .crash) (broker : Broker) (inbound : MailboxId) (turn now : Nat)
    (journal : Journal) :
    let start := { idle settings (Pool.create capacity size) (Scripted.fresh script .init) broker
      inbound with turn, now, journal }
    Unbegun capacity size start.unread start :=
  ⟨rfl, rfl, ⟨rfl, Pool.Lends.create capacity size, calm, rfl, rfl, rfl⟩, Nat.le_refl _⟩

/-- Whatever comes over a run, and in whatever order its parts take turns: when the
engine stops, its accounts are in order, and nothing changes them afterwards. Of a
run whose engine is over the engine has stopped at one moment, and the run is over
as soon as the watcher has looked for the first time after it, with the counters
that the engine stopped with. -/
theorem accounts_at_stop (settings : Settings) (capacity size turn now : Nat) (script : Script)
    (broker : Broker) (inbound : MailboxId) (journal : Journal) (conditions : List Condition)
    (course : List Incident) (calm : script ≠ .crash) (interval : 0 < settings.watchInterval) :
    let start := { idle settings (Pool.create capacity size) (Scripted.fresh script .init) broker
      inbound with turn, now, journal }
    let begun := start.begin Scripted.engine conditions
    let r := begun.incurAll Scripted.engine course
    (∀ {n : Nat} {q : UpdateRun Scripted}, Trace Scripted.engine start n q → Ending q →
        Legacy (start.unread + n) q) ∧
      (r.task.isOver = true → ∃ q n w m, Stop start q n w ∧
        n ≤ begun.sentAll Scripted.engine course ∧
        let stopped := q.advanceTask Scripted.engine
        Trace Scripted.engine stopped m r ∧
          (r.now < w.next → r.stage = .watching w ∧ r.engine = stopped.engine) ∧
          (w.next ≤ r.now → r.stage = .over w.next (.ok stopped.engine.counters) ∧
            r.engine = { stopped.engine with reads := stopped.engine.reads + 1 })) := by
  intro start begun r
  have unbegun : Unbegun capacity size start.unread start :=
    unbegun_idle settings capacity size calm broker inbound turn now journal
  refine ⟨fun trace ending => (trace.legacy unbegun ending).2, fun ended => ?_⟩
  have settled : Settled start (0 + begun.sentAll Scripted.engine course) r :=
    (settled_begin unbegun interval conditions).incurAll unbegun course
  rw [Nat.zero_add] at settled
  cases settled.timed with
  | failed absent =>
      rw [absent] at ended
      cases ended
  | serving k few trace waiting =>
      rw [waiting] at ended
      cases ended
  | stopped n few q w stop m later report =>
      refine ⟨q, n, w, m, stop, few, later, ?_⟩
      cases report with
      | awaited watching early engine =>
          exact ⟨fun _ => ⟨watching, engine⟩, fun late => absurd early (Nat.not_lt.mpr late)⟩
      | closing closing => exact absurd closing (settled.unclosed _)
      | reported stage late engine =>
          exact ⟨fun early => absurd early (Nat.not_lt.mpr late), fun _ => ⟨stage, engine⟩⟩

/-- Of two blocks that come at once the first ends the download, so the second stays
in its buffer; a third finds the engine stopped before the watcher does. -/
theorem accounts_at_stop_midway :
    let settings : Settings := { Settings.default with thing := "core2" }
    let start := { idle settings (Pool.create 2 4) (Scripted.fresh (.activate 1) .init)
      (Broker.fresh.addMailbox (Mailbox.empty 8)).2 0 with
        turn := Turn.limit, now := 0, journal := [] }
    let begun := start.begin Scripted.engine []
    let course : List Incident :=
      [.meets (.burst [⟨"$aws/things/core2/streams/fw/data", [1]⟩,
          ⟨"$aws/things/core2/streams/fw/data", [2]⟩]),
        .posts [⟨"$aws/things/core2/streams/fw/data", [3]⟩], .meets (.wait 1500)]
    let r := begun.incurAll Scripted.engine course
    r.pool.handles = [⟨1, 0⟩] ∧ r.engine.payloads = [[1]] ∧
      ∃ q n w m, Stop start q n w ∧ n ≤ 3 ∧ Legacy (0 + n) q ∧
        Trace Scripted.engine (q.advanceTask Scripted.engine) m r ∧
        r.stage = .over w.next (.ok (q.advanceTask Scripted.engine).engine.counters) := by
  intro settings start begun course r
  obtain ⟨legacy, ends⟩ := accounts_at_stop settings 2 4 Turn.limit 0 (.activate 1)
    (Broker.fresh.addMailbox (Mailbox.empty 8)).2 0 [] [] course (by decide) (by decide)
  obtain ⟨q, n, w, m, stop, few, later, awaited, ended⟩ := ends (by decide +kernel)
  have sent : begun.sentAll Scripted.engine course = 3 := by decide +kernel
  have unwatched : r.due? = none := by decide +kernel
  have late : w.next ≤ r.now := by
    refine Nat.le_of_not_lt fun early => ?_
    rw [due?, (awaited early).1] at unwatched
    cases unwatched
  exact ⟨by decide +kernel, by decide +kernel, q, n, w, m, stop,
    Nat.le_trans few (Nat.le_of_eq sent), legacy stop.trace stop.toEnding, later, (ended late).1⟩

end UpdateRun

end UpdateBridge
