import UpdateBridge.Proofs.UpdateRun.Stop
import UpdateBridge.Proofs.UpdateTopics.Withdrawn

/-!
# The subscriptions of a run

A run touches the table of the broker when it begins and not again. If a call to
subscribe fails the run is over, and the topics that it got before stay in the
table. If none fails all of its topics stay there, whatever comes over the run and
however it ends: its engine is told whether to drop the subscriptions, and the
bridge does not ask what came of that.

In both cases nobody takes from the inbound mailbox any more once the run is over
(`Tended`), so what the topics still bring in is lost.
-/

namespace UpdateBridge

theorem Mailbox.closed_postAll {α : Type} (m : Mailbox α) (items : List α) :
    (m.postAll items).2.closed = m.closed := by
  rw [postAll_eq]

namespace UpdateRun

open Broker (mailboxOf)

variable {ε : Type} {E : Engine ε} {r : UpdateRun ε} {table : List Subscription}

/-- What comes of subscribing to the run's topics when the calls meet these
conditions. -/
def subscribing (r : UpdateRun ε) (conditions : List Condition) : Call.Performed :=
  UpdateTopics.subscribe r.settings.thing r.settings.lockTimeout r.inbound conditions r.broker

/-- Nobody takes from the inbound mailbox any more. -/
def Unattended (r : UpdateRun ε) : Prop :=
  ∀ box, r.broker.mailbox? r.inbound = some box → box.closed = true

/-! ## The inbound mailbox and its line -/

theorem Unattended.onLine {work : Line → Line × List Note} (unattended : r.Unattended)
    (works : Line.Work work) : (r.onLine work).Unattended := by
  intro box after
  rcases found : r.broker.mailbox? r.inbound with _ | before
  · rw [UpdateRun.onLine, found] at after
    exact unattended box after
  · obtain rfl := Option.some.inj ((mailbox?_onLine work found).symm.trans after)
    obtain ⟨-, closed⟩ | ⟨-, closed⟩ := works.goes_on_or_ends (r.intakeLine before)
    · exact closed.trans (unattended before found)
    · exact closed

/-- A line at work goes on, or it ends and leaves its mailbox. -/
theorem onLine_goes_on_or_ends {work : Line → Line × List Note} (works : Line.Work work)
    (r : UpdateRun ε) :
    (r.onLine work).line = r.line ∨
      (r.onLine work).line = .ended ∧ (r.onLine work).Unattended := by
  rcases found : r.broker.mailbox? r.inbound with _ | before
  · left
    rw [UpdateRun.onLine, found]
  · have line : (r.onLine work).line = (work (r.intakeLine before)).1.state := by
      rw [UpdateRun.onLine, found]
      rfl
    obtain ⟨state, -⟩ | ⟨state, closed⟩ := works.goes_on_or_ends (r.intakeLine before)
    · exact .inl (line.trans state)
    · refine .inr ⟨line.trans state, ?_⟩
      intro box after
      obtain rfl := Option.some.inj ((mailbox?_onLine work found).symm.trans after)
      exact closed

/-- A line that was told to stop does so when it has done all it can. -/
theorem unattended_advanceLine (running : r.line = .running) (stopping : r.lineStopping = true) :
    r.advanceLine.Unattended := by
  intro box after
  rcases found : r.broker.mailbox? r.inbound with _ | before
  · rw [advanceLine, UpdateRun.onLine, found] at after
    cases found.symm.trans after
  · obtain rfl := Option.some.inj ((mailbox?_onLine Line.settle found).symm.trans after)
    exact Line.settle_of_stopping running stopping

theorem unattended_abort (r : UpdateRun ε) (stage : RunStage) : (r.abort stage).Unattended := by
  intro box there
  have closed : (r.abort stage).broker.mailbox? r.inbound =
      (r.broker.mailbox? r.inbound).map Mailbox.close := List.getElem?_modify_eq ..
  obtain ⟨before, -, rfl⟩ := Option.map_eq_some_iff.mp (closed.symm.trans there)
  rfl

/-! ## What a run keeps -/

/-- The table is that one, the line is there while the watcher is, and when either
of them has ended nobody takes from the inbound mailbox. -/
structure Tended (table : List Subscription) (r : UpdateRun ε) : Prop where
  table_eq : r.broker.table = table
  ended : r.line = .ended → r.Unattended
  watched : ∀ w, r.stage = .watching w → r.line ≠ .idle
  closing : ∀ counters, r.stage = .closing counters → r.line ≠ .idle ∧ r.lineStopping = true
  gone : ∀ moment counters, r.stage = .over moment (.ok counters) → r.Unattended

namespace Tended

theorem onLine {work : Line → Line × List Note} (tended : Tended table r)
    (works : Line.Work work) : Tended table (r.onLine work) := by
  obtain ⟨stage, -, -, -⟩ := onLine_frame work r
  have stopping : (r.onLine work).lineStopping = r.lineStopping := by
    unfold UpdateRun.onLine
    split <;> rfl
  have begun : r.line ≠ .idle → (r.onLine work).line ≠ .idle := by
    intro begun
    obtain same | ⟨ended, -⟩ := onLine_goes_on_or_ends works r
    · rw [same]
      exact begun
    · rw [ended]
      exact LineState.noConfusion
  refine ⟨?_, ?_, ?_, ?_, ?_⟩
  · rw [← tended.table_eq]
    unfold UpdateRun.onLine
    split <;> rfl
  · intro ended
    obtain same | ⟨-, unattended⟩ := onLine_goes_on_or_ends works r
    · exact (tended.ended (same.symm.trans ended)).onLine works
    · exact unattended
  · intro w watching
    exact begun (tended.watched w (stage.symm.trans watching))
  · intro counters closing
    obtain ⟨there, told⟩ := tended.closing counters (stage.symm.trans closing)
    exact ⟨begun there, stopping.trans told⟩
  · intro moment counters isOver
    exact (tended.gone moment counters (stage.symm.trans isOver)).onLine works

theorem advanceTask (tended : Tended table r) : Tended table (r.advanceTask E) := { tended with }

theorem abandonQueue (tended : Tended table r) : Tended table r.abandonQueue := by
  unfold UpdateRun.abandonQueue
  split
  · exact { tended with }
  · exact tended

theorem pass (tended : Tended table r) (moment : Nat) : Tended table { r with now := moment } :=
  { tended with }

theorem ends (tended : Tended table r) (unattended : r.Unattended) (counters : Counters)
    (journal : Journal) :
    Tended table { r with stage := .over r.now (.ok counters), journal } :=
  ⟨tended.table_eq, tended.ended, fun _ => RunStage.noConfusion, fun _ => RunStage.noConfusion,
    fun _ _ _ => unattended⟩

/-- A run that is to be over when its engine is has no line left that could go on. -/
theorem conclude (tended : Tended table r)
    (left : ∀ counters, r.stage = .closing counters → r.Unattended) : Tended table r.conclude := by
  unfold UpdateRun.conclude
  split
  · next counters closing _ => exact tended.ends (left counters closing) counters r.journal
  · next counters _ closing _ => exact tended.ends (left counters closing) counters _
  · exact tended

theorem settleWith (tended : Tended table r) (turns : Nat) :
    Tended table (r.settleWith E turns) := by
  induction turns generalizing r with
  | zero =>
      have lined : Tended table r.advanceLine := tended.onLine .settle
      refine (lined.abandonQueue.advanceTask (E := E)).conclude ?_
      intro counters closing
      have before : r.stage = .closing counters := by
        obtain ⟨stage, -⟩ := onLine_frame Line.settle r
        obtain ⟨stage', -⟩ := abandonQueue_frame r.advanceLine
        exact (stage'.trans stage).symm.trans closing
      obtain ⟨there, told⟩ := tended.closing counters before
      have unattended : r.advanceLine.Unattended := by
        cases state : r.line with
        | idle => exact absurd state there
        | running => exact unattended_advanceLine state told
        | ended => exact (tended.ended state).onLine .settle
      unfold UpdateRun.abandonQueue
      split <;> exact unattended
  | succ turns ih => exact ih (tended.onLine (.turn r.turn)).advanceTask

theorem settle (tended : Tended table r) : Tended table (r.settle E) :=
  tended.settleWith _

theorem look (tended : Tended table r) (there : r.line ≠ .idle) (w : Watch) :
    Tended table (r.look E w) := by
  unfold UpdateRun.look
  dsimp only
  split
  · exact ⟨tended.table_eq, tended.ended, fun _ => RunStage.noConfusion, fun _ _ => ⟨there, rfl⟩,
      fun _ _ => RunStage.noConfusion⟩
  · exact ⟨tended.table_eq, tended.ended, fun _ _ => there, fun _ => RunStage.noConfusion,
      fun _ _ => RunStage.noConfusion⟩

theorem beginWatch (tended : Tended table r) (there : r.line ≠ .idle) :
    Tended table (r.beginWatch E) := by
  unfold UpdateRun.beginWatch
  split
  · next w _ => exact tended.look there w
  · exact ⟨tended.table_eq, tended.ended, fun _ => RunStage.noConfusion,
      fun _ => RunStage.noConfusion, fun _ _ => RunStage.noConfusion⟩

theorem onTime (tended : Tended table r) : Tended table (r.onTime E) := by
  unfold UpdateRun.onTime
  split
  · next w watching =>
      split
      · exact (tended.look (tended.watched w watching) w).settle
      · exact tended.settle
  · exact tended.settle

theorem advanceWith (tended : Tended table r) (moment fuel : Nat) :
    Tended table (r.advanceWith E moment fuel) := by
  induction fuel generalizing r with
  | zero => exact tended.pass moment
  | succ fuel ih =>
      unfold UpdateRun.advanceWith
      split
      · next t _ =>
          split
          · exact ih (tended.pass t).onTime
          · exact tended.pass moment
      · exact tended.pass moment

/-- Messages that come to a mailbox that nobody takes from do not bring anybody
back. -/
theorem receive (tended : Tended table r) {broker : Broker} {items : List Message}
    (same : broker.table = r.broker.table)
    (posted : broker.mailbox? r.inbound =
      (r.broker.mailbox? r.inbound).map fun box => (box.postAll items).2)
    (journal : Journal) : Tended table { r with broker, journal } := by
  have still : r.Unattended → Unattended { r with broker, journal } := by
    intro unattended box after
    obtain ⟨before, found, rfl⟩ := Option.map_eq_some_iff.mp (posted.symm.trans after)
    exact (before.closed_postAll items).trans (unattended before found)
  exact ⟨same.trans tended.table_eq, fun ended => still (tended.ended ended), tended.watched,
    tended.closing, fun moment counters isOver => still (tended.gone moment counters isOver)⟩

theorem incur (tended : Tended table r) (incident : Incident) :
    Tended table (r.incur E incident) := by
  cases incident with
  | meets happening =>
      cases happening with
      | burst messages =>
          obtain ⟨journal, delivered⟩ := deliverAll_eq E r messages
          change Tended table (r.deliverAll E messages).2
          rw [delivered]
          exact (tended.receive (r.broker.table_deliverAll messages)
            (Broker.mailbox?_deliverAll_eq r.broker messages r.inbound) journal).settle
      | wait milliseconds => exact tended.advanceWith _ _
  | posts messages =>
      change Tended table (r.postAll E messages).2
      unfold UpdateRun.postAll
      split
      · exact tended
      · next box found =>
          have posted :
              (r.broker.setMailbox r.inbound (box.postAll messages).2).mailbox? r.inbound =
                (r.broker.mailbox? r.inbound).map fun box => (box.postAll messages).2 := by
            rw [Broker.mailbox?_setMailbox, if_pos rfl, found]
            rfl
          exact (tended.receive (r.broker.table_setMailbox r.inbound _) posted r.journal).settle

theorem incurAll (tended : Tended table r) (course : List Incident) :
    Tended table (r.incurAll E course) := by
  induction course generalizing r with
  | nil => exact tended
  | cons incident course ih => exact ih (tended.incur incident)

end Tended

/-! ## Runs that cannot subscribe -/

section Failed

variable {conditions : List Condition} {fault : Fault}

theorem begin_of_failed (E : Engine ε)
    (failed : (r.subscribing conditions).result = .error fault) :
    ∃ journal, r.begin E conditions =
      abort { r with
        broker := { r.broker with
          table := UpdateTopics.subscribedToAll
            (UpdateTopics.obtained r.settings.thing r.broker.online conditions) r.inbound
            r.broker.table }
        journal } (.over r.now (.error fault)) := by
  unfold subscribing at failed
  unfold UpdateRun.begin
  simp only [noting, failed, UpdateTopics.broker_subscribe_obtained]
  exact ⟨_, rfl⟩

/-- A run that cannot subscribe is over before anything was set up. The topics that
it got before the call that failed are left in the table and deliver to a mailbox
that is closed, also those that were somebody else's; so the table is as before
only if the run had them all before. Unsubscribing, which the run does not do,
would take them out. -/
theorem failed_begin_leaves_obtained (E : Engine ε) (r : UpdateRun ε)
    (failed : (r.subscribing conditions).result = .error fault) :
    let after := r.begin E conditions
    let left := UpdateTopics.obtained r.settings.thing r.broker.online conditions
    after.stage = .over r.now (.error fault) ∧ after.task = r.task ∧ after.line = r.line ∧
      after.Unattended ∧ after.broker.table = (r.subscribing conditions).broker.table ∧
      (∀ filter, mailboxOf filter after.broker.table =
        if filter ∈ left then some r.inbound else mailboxOf filter r.broker.table) ∧
      (after.broker.table = r.broker.table ↔
        ∀ topic ∈ left, mailboxOf topic r.broker.table = some r.inbound) ∧
      (∀ invalid, UpdateTopics.of r.settings.thing = .error invalid → fault = invalid ∧ left = []) ∧
      ∀ topics, UpdateTopics.of r.settings.thing = .ok topics →
        (∃ topic rest, topics = left ++ topic :: rest ∧
          UpdateTopics.refusal r.settings.lockTimeout r.broker.online
            (conditions.getD left.length .clear) = some fault) ∧
        (r.broker.online = true →
          let cleared := UpdateTopics.unsubscribe r.settings.thing r.settings.lockTimeout []
            after.broker
          cleared.result = .ok () ∧ ∀ filter, mailboxOf filter cleared.broker.table =
            if filter ∈ topics then none else mailboxOf filter r.broker.table) := by
  intro after left
  obtain ⟨journal, begun⟩ := begin_of_failed E failed
  have table : after.broker.table = UpdateTopics.subscribedToAll left r.inbound r.broker.table :=
    congrArg (fun q => q.broker.table) begun
  have found : ∀ filter, mailboxOf filter after.broker.table =
      if filter ∈ left then some r.inbound else mailboxOf filter r.broker.table := by
    intro filter
    rw [table, UpdateTopics.mailboxOf_subscribedToAll]
  have unspawned : after.task = r.task ∧ after.line = r.line := by
    rw [show after = _ from begun]
    exact ⟨rfl, rfl⟩
  refine ⟨congrArg stage begun, unspawned.1, unspawned.2, ?_, ?_, found, ?_, ?_, ?_⟩
  · rw [show after = _ from begun]
    exact unattended_abort _ _
  · rw [table, subscribing, UpdateTopics.broker_subscribe_obtained]
  · rw [table]
    exact UpdateTopics.subscribedToAll_eq_self_iff
  · intro invalid unknown
    simp only [subscribing, UpdateTopics.subscribe, unknown] at failed
    refine ⟨(Except.error.inj failed).symm, ?_⟩
    simp only [left, UpdateTopics.obtained, unknown]
  · intro topics known
    obtain ⟨topic, rest, cut, cause⟩ := UpdateTopics.obtained_of_failed known failed
    refine ⟨⟨topic, rest, cut, cause⟩, ?_⟩
    intro online
    have still : after.broker.online = true := by
      rw [show after = _ from begun]
      exact online
    obtain ⟨finished, gone⟩ := UpdateTopics.unsubscribeEach_of_online still topics
    simp only [UpdateTopics.unsubscribe, known]
    refine ⟨finished, ?_⟩
    intro filter
    refine (gone filter).trans ?_
    by_cases listed : filter ∈ topics
    · rw [if_pos listed, if_pos listed]
    · have unlisted : filter ∉ left := by
        intro obtained
        rw [cut] at listed
        exact listed (List.mem_append_left _ obtained)
      rw [if_neg listed, if_neg listed, found, if_neg unlisted]

/-- The first topic was another mailbox's. The second call fails, and the first
topic is left with a mailbox that nobody takes from. -/
theorem failed_begin_leaves_taken_topic :
    let taken : Broker := ⟨true, [⟨"$aws/things/core2/jobs/notify-next", 1⟩, ⟨"core2/", 1⟩],
      [Mailbox.empty 4, Mailbox.empty 4]⟩
    let r : UpdateRun Scripted := idle { Settings.default with thing := "core2" } (Pool.create 1 4)
      (Scripted.fresh .nothing .init) taken 0
    let after := r.begin Scripted.engine [.clear, .failing .io]
    after.stage = .over 0 (.error (.link .io)) ∧ after.Unattended ∧
      mailboxOf "$aws/things/core2/jobs/notify-next" after.broker.table = some 0 ∧
      mailboxOf "core2/" after.broker.table = some 1 ∧ after.broker.table ≠ r.broker.table := by
  intro taken r after
  have failed : (r.subscribing [.clear, .failing .io]).result = .error (.link .io) := by
    decide +kernel
  obtain ⟨stage, -, -, unattended, -, found, unchanged, -, -⟩ :=
    failed_begin_leaves_obtained Scripted.engine r failed
  refine ⟨stage, unattended, (found _).trans (by decide +kernel),
    (found _).trans (by decide +kernel), ?_⟩
  intro same
  have before := unchanged.mp same "$aws/things/core2/jobs/notify-next" (by decide +kernel)
  revert before
  decide +kernel

/-- A run that cannot subscribe does not always leave the table as it was. -/
theorem not_failed_begin_restores :
    ¬∀ (r : UpdateRun Scripted) (conditions : List Condition) (moment : Nat) (fault : Fault),
      (r.begin Scripted.engine conditions).stage = .over moment (.error fault) →
        (r.begin Scripted.engine conditions).broker.table = r.broker.table := by
  intro restores
  have restored := restores
    (idle { Settings.default with thing := "core2" } (Pool.create 1 4)
      (Scripted.fresh .nothing .init) (Broker.fresh.addMailbox (Mailbox.empty 4)).2 0)
    [.clear, .failing .io] 0 (.link .io) rfl
  revert restored
  decide +kernel

end Failed

/-! ## Runs that have subscribed -/

section Subscribed

variable {conditions : List Condition}

theorem tended_setUp (idle : r.stage = .idle) (same : r.broker.table = table)
    (queue : Mailbox Event) : Tended table (r.setUp queue) := by
  refine ⟨same, LineState.noConfusion, fun _ _ => LineState.noConfusion, ?_, ?_⟩
  · intro counters closing
    exact RunStage.noConfusion (idle.symm.trans closing)
  · intro moment counters isOver
    exact RunStage.noConfusion (idle.symm.trans isOver)

theorem tended_begin (E : Engine ε) (idle : r.stage = .idle)
    (done : (r.subscribing conditions).result = .ok ()) :
    Tended (r.subscribing conditions).broker.table (r.begin E conditions) := by
  unfold subscribing at done
  unfold UpdateRun.begin
  simp only [noting, done]
  split
  · exact ⟨rfl, fun _ => unattended_abort _ _, fun _ => RunStage.noConfusion,
      fun _ => RunStage.noConfusion, fun _ _ => RunStage.noConfusion⟩
  · next queue _ =>
      refine ((tended_setUp ?_ ?_ queue).beginWatch LineState.noConfusion).advanceTask.settle
      · exact idle
      · rfl

/-- A run that has subscribed leaves all topics of its thing in the table, with its
own mailbox and whatever comes over it, and the other subscriptions as they were.
Whether its engine is told to drop the subscriptions makes no difference. When the
run is over nobody takes from that mailbox. -/
theorem subscriptions_outlast_run (E : Engine ε) (r : UpdateRun ε) (course : List Incident)
    (idle : r.stage = .idle)
    (done : (r.subscribing conditions).result = .ok ()) :
    let after := (r.begin E conditions).incurAll E course
    ∃ topics, UpdateTopics.of r.settings.thing = .ok topics ∧
      (∀ filter, mailboxOf filter after.broker.table =
        if filter ∈ topics then some r.inbound else mailboxOf filter r.broker.table) ∧
      ∀ moment counters, after.stage = .over moment (.ok counters) → after.Unattended := by
  intro after
  have tended : Tended _ after := (tended_begin E idle done).incurAll course
  cases known : UpdateTopics.of r.settings.thing with
  | error invalid =>
      simp only [subscribing, UpdateTopics.subscribe, known] at done
      cases done
  | ok topics =>
      refine ⟨topics, rfl, ?_, tended.gone⟩
      intro filter
      rw [tended.table_eq, subscribing, UpdateTopics.broker_subscribe known done,
        UpdateTopics.mailboxOf_subscribedToAll]

/-- The engine is told to drop the subscriptions, and the bridge keeps them. -/
theorem subscriptions_outlast_run_shutdown :
    let shared : Broker :=
      ⟨true, [⟨"core2/", 1⟩], [Mailbox.empty 4, Mailbox.empty 4]⟩
    let r : UpdateRun Scripted := idle { Settings.default with thing := "core2" } (Pool.create 1 4)
      (Scripted.fresh (.activate 1) .init) shared 0
    let after := (r.begin Scripted.engine []).incurAll Scripted.engine
      [.meets (.burst [⟨"$aws/things/core2/streams/fw/data", [1]⟩]), .meets (.wait 1500)]
    after.stage = .over 1000 (.ok ⟨1, 0, 1, 0⟩) ∧
      after.engine.requests = [.activate, .shutdown true] ∧
      mailboxOf "$aws/things/core2/streams/#" after.broker.table = some 0 ∧
      mailboxOf "core2/" after.broker.table = some 1 ∧ after.Unattended := by
  intro shared r after
  have done : (r.subscribing []).result = .ok () := by decide +kernel
  obtain ⟨topics, known, found, ended⟩ := subscriptions_outlast_run Scripted.engine r
    [.meets (.burst [⟨"$aws/things/core2/streams/fw/data", [1]⟩]), .meets (.wait 1500)] rfl done
  have ends : after.stage = .over 1000 (.ok ⟨1, 0, 1, 0⟩) ∧
      after.engine.requests = [.activate, .shutdown true] := by decide +kernel
  obtain rfl : UpdateTopics.suffixes.map (Topic.underThing "core2") = topics :=
    (UpdateTopics.of_eq_ok_iff.mp known).2.2.symm
  exact ⟨ends.1, ends.2, (found _).trans (by decide +kernel), (found _).trans (by decide +kernel),
    ended _ _ ends.1⟩

/-- A run whose engine is told to drop the subscriptions does not always end
without them. -/
theorem not_subscriptions_dropped :
    ¬∀ (r : UpdateRun Scripted) (course : List Incident) (moment : Nat) (counters : Counters),
      r.stage = .idle → r.broker.online = true → r.settings.unsubscribeOnShutdown = true →
      let after := (r.begin Scripted.engine []).incurAll Scripted.engine course
      Request.shutdown true ∈ after.engine.requests → after.stage = .over moment (.ok counters) →
        ∀ topics, UpdateTopics.of r.settings.thing = .ok topics → ∀ topic ∈ topics,
          mailboxOf topic after.broker.table ≠ some r.inbound := by
  intro dropped
  let r : UpdateRun Scripted := idle { Settings.default with thing := "core2" } (Pool.create 1 4)
    (Scripted.fresh (.activate 1) .init) (Broker.fresh.addMailbox (Mailbox.empty 4)).2 0
  let course : List Incident :=
    [.meets (.burst [⟨"$aws/things/core2/streams/fw/data", [1]⟩]), .meets (.wait 1500)]
  let after := (r.begin Scripted.engine []).incurAll Scripted.engine course
  have known : UpdateTopics.of r.settings.thing = .ok ["$aws/things/core2/jobs/notify-next",
      "$aws/things/core2/jobs/$next/get/accepted", "$aws/things/core2/streams/#"] := by
    decide +kernel
  have kept : .shutdown true ∈ after.engine.requests ∧
      after.stage = .over 1000 (.ok ⟨1, 0, 1, 0⟩) ∧
      mailboxOf "$aws/things/core2/streams/#" after.broker.table = some r.inbound := by
    decide +kernel
  obtain ⟨told, ends, there⟩ := kept
  exact dropped r course 1000 ⟨1, 0, 1, 0⟩ rfl rfl rfl told ends _ known
    "$aws/things/core2/streams/#" (by decide) there

end Subscribed

end UpdateRun

end UpdateBridge
