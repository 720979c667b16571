import UpdateBridge.Proofs.Engine.Scripted
import UpdateBridge.Proofs.Intake.Arrivals
import UpdateBridge.Proofs.UpdateTopics.Agreement
import UpdateBridge.UpdateRun

/-!
# What a run loses

A run of the bridge with a scripted engine is put under bursts of messages.
Three limits apply to a burst, in this order: the inbound mailbox takes as many
messages as it has places, of those that the update topics bring in; buffers
take those that fit; and the engine gets as many as there are buffers and
places in its queue. Everything is free again before the next burst, so what a
burst loses depends on this burst alone (`Outfit.survivors`), and the engine
keeps what survives up to the block that its script waits for.

Between bursts time may pass. A watcher that looks changes nothing that matters,
also after the engine is finished and the run comes to its end.
-/

namespace UpdateBridge

/-- What a run is set up with. -/
structure Outfit where
  settings : Settings
  /-- How many messages the line takes in one turn at most. Zero is no limit. -/
  turn : Nat
  /-- The update topics of the thing. -/
  topics : List String
  /-- How many buffers the pool has, and how large they are. -/
  capacity : Nat
  size : Nat
  script : Script

inductive Happening where
  | burst (messages : List Message)
  | wait (milliseconds : Nat)

namespace Outfit

variable {o : Outfit}

def covers (o : Outfit) (m : Message) : Bool :=
  o.topics.any (Topic.covers · m.topic)

/-- The messages of a burst that the inbound mailbox takes. -/
def arrivals (o : Outfit) (burst : List Message) : List Message :=
  (burst.filter o.covers).take o.settings.inboundCapacity

/-- The messages of these arrivals that the engine is to get. -/
def lent (o : Outfit) (arrived : List Message) : List Message :=
  (Message.fitting o.size arrived).take (min o.capacity o.settings.queueDepth)

theorem lent_nil (o : Outfit) : o.lent [] = [] :=
  List.take_nil

/-- The messages that survive the three limits. -/
def survivors (o : Outfit) : Happening → List Message
  | .burst messages => o.lent (o.arrivals messages)
  | .wait _ => []

/-- Whether the line gets to the end of its mailbox in one turn. -/
def Drains (o : Outfit) : Happening → Prop
  | .burst messages => o.turn = 0 ∨ (o.arrivals messages).length < o.turn
  | .wait _ => True

/-- A mailbox with fewer places than a turn has messages is always emptied. -/
theorem drains_of_places_lt (few : o.settings.inboundCapacity < o.turn) (happening : Happening) :
    o.Drains happening := by
  cases happening with
  | burst messages => exact Or.inr (Nat.lt_of_le_of_lt (List.length_take_le _ _) few)
  | wait milliseconds => trivial

/-- What the update topics bring in is for the engine. -/
theorem routed_of_covers {m : Message} (known : UpdateTopics.of o.settings.thing = .ok o.topics)
    (covered : o.covers m = true) : m.Routed := by
  obtain ⟨names, -, topics⟩ := UpdateTopics.of_eq_ok_iff.mp known
  have named : m.topic ≠ "" := by
    intro unnamed
    obtain ⟨topic, -, covered⟩ := List.any_eq_true.mp covered
    rw [unnamed, Topic.covers_empty] at covered
    cases covered
  have taken := List.any_eq_true.mp covered
  rw [topics] at taken
  exact ((UpdateTopics.exists_covers_iff names named).mp taken).1

end Outfit

namespace UpdateRun

variable {o : Outfit} {r : UpdateRun Scripted} {arrived before given : List Message}
  {loans : List Loan}

/-- The run goes on: these messages are in its inbound mailbox, these loans in
the engine's queue, and the engine has kept these messages. -/
structure Course (o : Outfit) (r : UpdateRun Scripted) (arrived : List Message) (loans : List Loan)
    (kept : List Message) : Prop where
  settings_eq : r.settings = o.settings
  turn_eq : r.turn = o.turn
  running : r.line = .running
  going : r.lineStopping = false
  watching : ∃ w, r.stage = .watching w
  serving : r.engineTask.Serving o.script o.capacity o.size o.settings.queueDepth loans kept
  inbound : r.broker.mailbox? r.inbound = some ⟨o.settings.inboundCapacity, arrived, false, false⟩
  once : ∀ m : Message,
    Broker.posts r.inbound m.topic r.broker.table = if o.covers m then 1 else 0

/-- The run goes on with nothing under way, or the engine's task is over. -/
def Lawful (o : Outfit) (r : UpdateRun Scripted) (given : List Message) : Prop :=
  Course o r [] [] given ∨ r.engineTask.Done o.script given

/-- The engine has kept what was given to it, up to the cut. -/
theorem Lawful.kept_cut (lawful : Lawful o r given) : r.engine.Kept (o.script.cut given) := by
  obtain course | done := lawful
  · have engine := course.serving.engine
    rw [Script.cut_of_not_reached engine.going]
    exact engine.toKept
  · exact done.kept

/-! ## Settling -/

theorem Course.advanceLine (course : Course o r arrived [] before)
    (routed : ∀ m ∈ arrived, m.Routed) :
    ∃ loans, Course o r.advanceLine [] loans before ∧ loans.map Loan.message = o.lent arrived := by
  obtain ⟨p, loans, tally, settled, lends, lent⟩ :=
    Line.settle_of_lends (l := r.intakeLine ⟨o.settings.inboundCapacity, arrived, false, false⟩)
      course.running course.going rfl course.serving.lends course.serving.queue_eq routed
  have after : r.advanceLine =
      { r with
        tally, pool := p, queue := Loan.queue o.settings.queueDepth loans
        broker := r.broker.setMailbox r.inbound ⟨o.settings.inboundCapacity, [], false, false⟩
        }.noting (r.intakeLine ⟨o.settings.inboundCapacity, arrived, false, false⟩).settle.2 := by
    rw [UpdateRun.advanceLine, onLine, course.inbound]
    simp only [settled]
    rfl
  refine ⟨loans, ?_, lent⟩
  rw [after]
  refine ⟨course.settings_eq, course.turn_eq, course.running, course.going, course.watching,
    ⟨course.serving.state_eq, rfl, lends, course.serving.engine⟩, ?_, course.once⟩
  show (r.broker.setMailbox r.inbound _).mailbox? r.inbound = _
  rw [Broker.mailbox?_setMailbox, if_pos rfl, course.inbound]
  rfl

theorem engineTask_advanceTask {ε : Type} (E : Engine ε) (r : UpdateRun ε) :
    (r.advanceTask E).engineTask =
      (r.engineTask.advance E r.settings.unsubscribeOnShutdown).1 := rfl

/-- A task that is over does nothing. -/
theorem engineTask_advanceTask_of_over {ε : Type} (E : Engine ε) {r : UpdateRun ε}
    (dead : r.task.isAlive = false) : (r.advanceTask E).engineTask = r.engineTask := by
  rw [engineTask_advanceTask, Engine.Task.advance_of_over E _ dead]

theorem Course.advanceTask (course : Course o r [] loans before) (calm : o.script ≠ .crash) :
    Lawful o (r.advanceTask Scripted.engine) (before ++ loans.map Loan.message) := by
  obtain serving | done := course.serving.advance calm r.settings.unsubscribeOnShutdown
  · exact Or.inl ⟨course.settings_eq, course.turn_eq, course.running, course.going,
      course.watching, serving, course.inbound, course.once⟩
  · exact Or.inr done

theorem Course.fullTurns_eq (course : Course o r arrived loans before)
    (drains : o.turn = 0 ∨ arrived.length < o.turn) : r.fullTurns = 0 := by
  rw [fullTurns, course.running, course.inbound, course.turn_eq]
  obtain zero | less := drains
  · rw [zero]
    exact Nat.div_zero _
  · exact Nat.div_eq_of_lt less

theorem abandonQueue_of_watching {ε : Type} {r : UpdateRun ε} {w : Watch}
    (watching : r.stage = .watching w) : r.abandonQueue = r := by
  rw [abandonQueue, watching]

theorem conclude_of_watching {ε : Type} {r : UpdateRun ε} {w : Watch}
    (watching : r.stage = .watching w) : r.conclude = r := by
  rw [conclude, watching]

/-- What the line, the end of the line and the engine preserve holds when a settled
run is concluded. -/
theorem exists_conclude {ε : Type} {E : Engine ε} {r : UpdateRun ε} {P : UpdateRun ε → Prop}
    (line : ∀ {r : UpdateRun ε} {work : Line → Line × List Note}, Line.Work work → P r →
      P (r.onLine work))
    (abandon : ∀ {r : UpdateRun ε}, P r → P r.abandonQueue)
    (engine : ∀ {r : UpdateRun ε}, P r → P (r.advanceTask E)) (holds : P r) (turns : Nat) :
    ∃ q, P q ∧ r.settleWith E turns = q.conclude := by
  induction turns generalizing r with
  | zero => exact ⟨_, engine (abandon (line .settle holds)), rfl⟩
  | succ turns ih => exact ih (engine (line (.turn r.turn) holds))

theorem engineTask_conclude {ε : Type} (r : UpdateRun ε) :
    r.conclude.engineTask = r.engineTask := by
  unfold conclude
  split <;> rfl

/-- What has arrived is lent and served, and everything is free again unless the
engine is finished. -/
theorem Course.settle (course : Course o r arrived [] before) (calm : o.script ≠ .crash)
    (drains : o.turn = 0 ∨ arrived.length < o.turn) (routed : ∀ m ∈ arrived, m.Routed) :
    Lawful o (r.settle Scripted.engine) (before ++ o.lent arrived) := by
  -- One turn of the line empties the mailbox, so the engine runs once after it.
  obtain ⟨loans, lined, lent⟩ := course.advanceLine routed
  obtain ⟨w, watching⟩ := lined.watching
  rw [UpdateRun.settle, course.fullTurns_eq drains, settleWith_zero,
    abandonQueue_of_watching watching, ← lent]
  obtain served | done := lined.advanceTask calm
  · obtain ⟨w', watching'⟩ := served.watching
    rw [conclude_of_watching watching']
    exact Or.inl served
  · refine Or.inr ?_
    rwa [engineTask_conclude]

/-! ## A finished engine -/

/-- A task that is over keeps what it kept, whatever becomes of its engine's
other records. -/
theorem done_of_eq {task task' : Engine.Task Scripted} (done : task.Done o.script given)
    (state : task'.state = task.state) (kinds : task'.engine.kinds = task.engine.kinds)
    (payloads : task'.engine.payloads = task.engine.payloads) : task'.Done o.script given where
  dead := by rw [state, done.dead]
  kept := ⟨kinds.trans done.kept.kinds_eq, payloads.trans done.kept.payloads_eq⟩
  reached := done.reached

theorem done_onLine (done : r.engineTask.Done o.script given) (work : Line → Line × List Note) :
    (r.onLine work).engineTask.Done o.script given := by
  unfold onLine
  split
  · exact done
  · exact done_of_eq done rfl rfl rfl

theorem done_abandonQueue (done : r.engineTask.Done o.script given) :
    r.abandonQueue.engineTask.Done o.script given := by
  unfold abandonQueue
  split
  · exact done_of_eq done rfl rfl rfl
  · exact done

theorem done_advanceTask (done : r.engineTask.Done o.script given) :
    (r.advanceTask Scripted.engine).engineTask.Done o.script given := by
  rw [engineTask_advanceTask_of_over _ done.dead]
  exact done

theorem done_settleWith (done : r.engineTask.Done o.script given) (turns : Nat) :
    (r.settleWith Scripted.engine turns).engineTask.Done o.script given := by
  obtain ⟨q, done, settled⟩ := exists_conclude (E := Scripted.engine)
    (P := fun q => q.engineTask.Done o.script given) (fun _ done => done_onLine done _)
    done_abandonQueue done_advanceTask done turns
  rw [settled, engineTask_conclude]
  exact done

/-! ## Bursts and time -/

theorem look_of_working (sight : Sight.of r.engine.phase r.task.isOver = .working) (w : Watch) :
    r.look Scripted.engine w =
      { r with
        engine := { r.engine with reads := r.engine.reads + 1 }
        stage := .watching w.looked }.noting [.engineCounters r.engine.counters] := by
  rw [look, Engine.look]
  simp only [Scripted.engine, sight]
  rfl

theorem done_look (done : r.engineTask.Done o.script given) (w : Watch) :
    (r.look Scripted.engine w).engineTask.Done o.script given := by
  unfold look Engine.look
  dsimp only
  have same : ∀ sight : Sight,
      (if sight.reads then Scripted.engine.countersRead r.engine else r.engine).kinds =
          r.engine.kinds ∧
        (if sight.reads then Scripted.engine.countersRead r.engine else r.engine).payloads =
          r.engine.payloads := by
    intro sight
    split <;> exact ⟨rfl, rfl⟩
  split <;> exact done_of_eq done rfl (same _).1 (same _).2

/-- The watcher looks and changes nothing that matters. -/
theorem Lawful.look (lawful : Lawful o r given) (w : Watch) :
    Lawful o (r.look Scripted.engine w) given := by
  obtain course | done := lawful
  · have serving := course.serving
    have active : r.engine.phase = .active := serving.engine.phase_eq
    have waiting : r.task = .waiting := serving.state_eq
    have sight : Sight.of r.engine.phase r.task.isOver = .working := by rw [active, waiting]; rfl
    rw [look_of_working sight]
    have engine : Scripted.Going { r.engine with reads := r.engine.reads + 1 } o.script given :=
      { serving.engine with }
    exact Or.inl ⟨course.settings_eq, course.turn_eq, course.running, course.going,
      ⟨w.looked, rfl⟩, ⟨serving.state_eq, serving.queue_eq, serving.lends, engine⟩, course.inbound,
      course.once⟩
  · exact Or.inr (done_look done w)

theorem Lawful.settle (lawful : Lawful o r given) (calm : o.script ≠ .crash) :
    Lawful o (r.settle Scripted.engine) given := by
  obtain course | done := lawful
  · have settled := course.settle calm (Nat.eq_zero_or_pos o.turn) fun m member => by cases member
    rwa [Outfit.lent_nil, List.append_nil] at settled
  · exact Or.inr (done_settleWith done _)

theorem Lawful.at (lawful : Lawful o r given) (moment : Nat) :
    Lawful o { r with now := moment } given := by
  obtain course | done := lawful
  · exact Or.inl { course with }
  · exact Or.inr (done_of_eq done rfl rfl rfl)

theorem Lawful.onTime (lawful : Lawful o r given) (calm : o.script ≠ .crash) :
    Lawful o (r.onTime Scripted.engine) given := by
  unfold UpdateRun.onTime
  split
  · split
    · next w _ _ => exact (lawful.look w).settle calm
    · exact lawful.settle calm
  · exact lawful.settle calm

theorem Lawful.advanceWith (lawful : Lawful o r given) (calm : o.script ≠ .crash)
    (moment fuel : Nat) :
    Lawful o (r.advanceWith Scripted.engine moment fuel) given := by
  induction fuel generalizing r with
  | zero => exact lawful.at moment
  | succ fuel ih =>
      rw [UpdateRun.advanceWith]
      split
      · next t _ =>
          split
          · exact ih ((lawful.at t).onTime calm)
          · exact lawful.at moment
      · exact lawful.at moment

theorem deliverAll_eq {ε : Type} (E : Engine ε) (r : UpdateRun ε) (messages : List Message) :
    ∃ journal, (r.deliverAll E messages).2 =
      { r with broker := r.broker.deliverAll messages, journal }.settle E := by
  unfold UpdateRun.deliverAll
  dsimp only
  generalize counted : (([] : List Nat), r) = answer
  obtain rfl : r = answer.2 := by rw [← counted]
  clear counted
  induction messages generalizing answer with
  | nil => exact ⟨answer.2.journal, rfl⟩
  | cons m messages ih => exact ih _

/-- The burst reaches the inbound mailbox as far as that has room. -/
theorem Course.delivered (course : Course o r [] loans before) (messages : List Message)
    (journal : Journal) :
    Course o { r with broker := r.broker.deliverAll messages, journal } (o.arrivals messages) loans
      before := by
  refine ⟨course.settings_eq, course.turn_eq, course.running, course.going, course.watching,
    course.serving, ?_, ?_⟩
  · show (r.broker.deliverAll messages).mailbox? r.inbound = _
    rw [Broker.mailbox?_deliverAll course.once, course.inbound, Option.map_some,
      Mailbox.postAll_of_open rfl rfl]
    rfl
  · show ∀ m : Message, Broker.posts r.inbound m.topic (r.broker.deliverAll messages).table = _
    rw [Broker.table_deliverAll]
    exact course.once

theorem Lawful.deliverAll (lawful : Lawful o r given) (calm : o.script ≠ .crash)
    (known : UpdateTopics.of o.settings.thing = .ok o.topics) {messages : List Message}
    (drains : o.Drains (.burst messages)) :
    Lawful o (r.deliverAll Scripted.engine messages).2
      (given ++ o.survivors (.burst messages)) := by
  obtain ⟨journal, delivered⟩ := deliverAll_eq Scripted.engine r messages
  rw [delivered]
  obtain course | done := lawful
  · refine (course.delivered messages journal).settle calm drains fun m member => ?_
    have covered := (List.mem_filter.mp (List.mem_of_mem_take member)).2
    exact Outfit.routed_of_covers known covered
  · have kept := done_settleWith (r := { r with broker := r.broker.deliverAll messages, journal })
      (done_of_eq done rfl rfl rfl)
      (fullTurns { r with broker := r.broker.deliverAll messages, journal })
    exact Or.inr (kept.append _)

def meet {ε : Type} (E : Engine ε) (r : UpdateRun ε) : Happening → UpdateRun ε
  | .burst messages => (r.deliverAll E messages).2
  | .wait milliseconds => r.advance E milliseconds

def meetAll {ε : Type} (E : Engine ε) (r : UpdateRun ε) (course : List Happening) : UpdateRun ε :=
  course.foldl (meet E) r

theorem Lawful.meet (lawful : Lawful o r given) (calm : o.script ≠ .crash)
    (known : UpdateTopics.of o.settings.thing = .ok o.topics) {happening : Happening}
    (drains : o.Drains happening) :
    Lawful o (r.meet Scripted.engine happening) (given ++ o.survivors happening) := by
  cases happening with
  | burst messages => exact lawful.deliverAll calm known drains
  | wait milliseconds =>
      show Lawful o (r.advance Scripted.engine milliseconds) (given ++ [])
      rw [List.append_nil]
      exact lawful.advanceWith calm _ _

theorem Lawful.meetAll (lawful : Lawful o r given) (calm : o.script ≠ .crash)
    (known : UpdateTopics.of o.settings.thing = .ok o.topics) {course : List Happening}
    (drains : ∀ happening ∈ course, o.Drains happening) :
    Lawful o (r.meetAll Scripted.engine course) (given ++ course.flatMap o.survivors) := by
  induction course generalizing r given with
  | nil =>
      rw [List.flatMap_nil, List.append_nil]
      exact lawful
  | cons happening course ih =>
      have met := lawful.meet calm known (drains happening List.mem_cons_self)
      have later := ih met fun other member => drains other (List.mem_cons_of_mem happening member)
      rwa [List.flatMap_cons, ← List.append_assoc]

/-! ## The beginning -/

theorem setUp_eq {ε : Type} (r : UpdateRun ε) {depth : Nat} (places : Mailbox.Possible depth) :
    r.setUp (Mailbox.empty depth) =
      { r with
        queue := ⟨depth, [.start], false, false⟩, task := .created, line := .running
        }.noting [.engineStarting] := by
  have posted := Mailbox.post_of_lt (m := Mailbox.empty depth) rfl rfl places.1 Event.start
  rw [setUp]
  simp only [Sink.queue, posted]
  rfl

/-- A run that can subscribe and that is well set up has put the start into the
queue before the watcher looks and the engine comes first. -/
theorem begin_eq {ε : Type} (E : Engine ε) (r : UpdateRun ε) {subscribed : Call.Performed}
    (performed : UpdateTopics.subscribe r.settings.thing r.settings.lockTimeout r.inbound []
      r.broker = subscribed) (done : subscribed.result = .ok ())
    (depth : Mailbox.Possible r.settings.queueDepth) (interval : 0 < r.settings.watchInterval) :
    r.begin E [] =
      ((({ r with
        broker := subscribed.broker, task := .created, line := .running
        queue := ⟨r.settings.queueDepth, [.start], false, false⟩
        journal := r.journal ++
          Journal.stamped r.now [.bridgeRunning r.settings.thing r.settings.firmware] ++
          Journal.stamped r.now subscribed.notes ++ Journal.stamped r.now [.engineStarting]
        }).look E ⟨r.now, r.settings.watchInterval, 0⟩).advanceTask E).settle E := by
  have queue : Mailbox.create r.settings.queueDepth =
      .ok (Mailbox.empty r.settings.queueDepth : Mailbox Event) :=
    Mailbox.create_eq_ok_iff.mpr ⟨depth, rfl⟩
  have watch : Watch.begin r.now r.settings.watchInterval =
      .ok ⟨r.now, r.settings.watchInterval, 0⟩ := by
    rw [Watch.begin, if_neg (Nat.ne_of_gt interval)]
  rw [UpdateRun.begin]
  simp only [noting, performed, done, queue, setUp_eq _ depth, beginWatch, watch]

/-- A bridge of this outfit that does not run yet. -/
def fitted (o : Outfit) (broker : Broker) (id : MailboxId) : UpdateRun Scripted :=
  { idle o.settings (Pool.create o.capacity o.size) (Scripted.fresh o.script .init) broker id with
    turn := o.turn }

/-- The run begins: it has subscribed, watches, and its engine has started. -/
theorem lawful_begin {broker : Broker} {id : MailboxId}
    (known : UpdateTopics.of o.settings.thing = .ok o.topics) (online : broker.online = true)
    (alone : ∀ s ∈ broker.table, s.mailbox ≠ id)
    (inbound : broker.mailbox? id = some (Mailbox.empty o.settings.inboundCapacity))
    (depth : Mailbox.Possible o.settings.queueDepth) (interval : 0 < o.settings.watchInterval)
    (calm : o.script ≠ .crash) (waits : ¬o.script.reached []) :
    Lawful o ((fitted o broker id).begin Scripted.engine []) [] := by
  have done : (UpdateTopics.subscribe o.settings.thing o.settings.lockTimeout id [] broker).result =
      .ok () := UpdateTopics.subscribe_of_online known online
  have subscribed := UpdateTopics.broker_subscribe known done
  rw [begin_eq Scripted.engine (fitted o broker id) rfl done depth interval, look_of_working rfl]
  refine Lawful.settle (Or.inl ⟨rfl, rfl, rfl, rfl, ⟨_, rfl⟩, ?_, ?_, ?_⟩) calm
  · exact Engine.Task.advance_start (Pool.Lends.create _ _) ⟨rfl, rfl, rfl⟩ calm waits _
  · show (UpdateTopics.subscribe o.settings.thing o.settings.lockTimeout id []
      broker).broker.mailbox? id = _
    rw [subscribed]
    exact inbound
  · show ∀ m : Message, Broker.posts id m.topic
      (UpdateTopics.subscribe o.settings.thing o.settings.lockTimeout id [] broker).broker.table = _
    rw [subscribed]
    exact fun m => UpdateTopics.posts_subscribedToAll known alone m.topic

/-- A run that is well set up begins to watch its engine, and whatever bursts come
over it and however long it waits between them, the engine keeps of each burst
what survives the mailbox, the buffers and the queue, in order, up to the block
that its script waits for. -/
theorem engine_keeps_survivors (o : Outfit) (broker : Broker) (course : List Happening)
    (known : UpdateTopics.of o.settings.thing = .ok o.topics) (online : broker.online = true)
    (alone : broker.table = []) (places : Mailbox.Possible o.settings.inboundCapacity)
    (depth : Mailbox.Possible o.settings.queueDepth) (interval : 0 < o.settings.watchInterval)
    (calm : o.script ≠ .crash) (waits : o.script ≠ .activate 0)
    (drains : ∀ happening ∈ course, o.Drains happening) :
    ∃ r, create o.settings (Pool.create o.capacity o.size) (Scripted.fresh o.script .init) broker
        = .ok r ∧
      let begun := { r with turn := o.turn }.begin Scripted.engine []
      let kept := o.script.cut (course.flatMap o.survivors)
      (∃ w, begun.stage = .watching w) ∧
        (begun.meetAll Scripted.engine course).engine.payloads = kept.map Message.payload ∧
        (begun.meetAll Scripted.engine course).engine.kinds = .start :: kept.map Message.kind := by
  have mailbox : Mailbox.create o.settings.inboundCapacity =
      .ok (Mailbox.empty o.settings.inboundCapacity : Mailbox Message) :=
    Mailbox.create_eq_ok_iff.mpr ⟨places, rfl⟩
  have unreached : ¬o.script.reached [] := by
    cases script : o.script with
    | activate block =>
        intro reached
        have zero : block = 0 := UInt32.toNat_inj.mp (Nat.le_zero.mp reached)
        rw [script, zero] at waits
        exact waits rfl
    | _ => exact id
  have inbound : (broker.addMailbox (Mailbox.empty o.settings.inboundCapacity)).2.mailbox?
      broker.mailboxes.length = some (Mailbox.empty o.settings.inboundCapacity) :=
    List.getElem?_concat_length
  have nobody : ∀ s ∈ (broker.addMailbox (Mailbox.empty o.settings.inboundCapacity)).2.table,
      s.mailbox ≠ broker.mailboxes.length := by
    rw [Broker.addMailbox, alone]
    intro s member
    cases member
  have begun : Lawful o ((fitted o (broker.addMailbox (Mailbox.empty o.settings.inboundCapacity)).2
      broker.mailboxes.length).begin Scripted.engine []) [] :=
    lawful_begin known online nobody inbound depth interval calm unreached
  have kept := (begun.meetAll calm known drains).kept_cut
  refine ⟨_, by rw [create, mailbox]; rfl, ?_, kept.payloads_eq, kept.kinds_eq⟩
  obtain course | done := begun
  · exact course.watching
  · exact absurd done.reached unreached

/-- Two bursts with all three losses: the mailbox misses the last message of the
first, no buffer holds the long block, and what follows the second block that is
kept comes too late. -/
theorem engine_keeps_survivors_cut :
    let o : Outfit :=
      ⟨{ Settings.default with thing := "core2", inboundCapacity := 3, queueDepth := 2 },
        Turn.limit, ["$aws/things/core2/jobs/notify-next",
          "$aws/things/core2/jobs/$next/get/accepted", "$aws/things/core2/streams/#"], 2, 4,
        .activate 2⟩
    let course : List Happening :=
      [.burst [⟨"$aws/things/core2/jobs/notify-next", [1]⟩, ⟨"core2/", [2]⟩,
          ⟨"$aws/things/core2/streams/fw/data", [3, 3, 3, 3, 3]⟩,
          ⟨"$aws/things/core2/streams/fw/data", [4]⟩, ⟨"$aws/things/core2/streams/fw/data", [5]⟩],
        .wait 1500,
        .burst [⟨"$aws/things/core2/streams/fw/data", [6]⟩,
          ⟨"$aws/things/core2/streams/fw/data", [7]⟩]]
    ∃ r, create o.settings (Pool.create 2 4) (Scripted.fresh (.activate 2) .init) Broker.fresh
        = .ok r ∧
      let begun := { r with turn := Turn.limit }.begin Scripted.engine []
      (∃ w, begun.stage = .watching w) ∧
        (begun.meetAll Scripted.engine course).engine.payloads = [[1], [4], [6]] ∧
        (begun.meetAll Scripted.engine course).engine.kinds =
          [.start, .jobDocument, .fileBlock, .fileBlock] := by
  intro o course
  have kept : o.script.cut (course.flatMap o.survivors) =
      [⟨"$aws/things/core2/jobs/notify-next", [1]⟩, ⟨"$aws/things/core2/streams/fw/data", [4]⟩,
        ⟨"$aws/things/core2/streams/fw/data", [6]⟩] := by
    decide +kernel
  have kinds : (o.script.cut (course.flatMap o.survivors)).map Message.kind =
      [.jobDocument, .fileBlock, .fileBlock] := by
    decide +kernel
  have drains : ∀ happening ∈ course, o.Drains happening := fun happening _ =>
    Outfit.drains_of_places_lt (by decide) happening
  obtain ⟨r, created, watching, payloads, received⟩ :=
    engine_keeps_survivors o Broker.fresh course (by decide +kernel) rfl rfl (by decide)
      (by decide) (by decide) (by decide) (by decide) drains
  rw [kept] at payloads
  rw [kinds] at received
  exact ⟨r, created, watching, payloads, received⟩

end UpdateRun

end UpdateBridge
