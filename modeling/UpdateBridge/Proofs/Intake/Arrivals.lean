import UpdateBridge.Proofs.Intake.Loans

/-!
# Whatever arrives

A message that nobody has looked at before need not be for the engine, fit a
buffer, or find a place. Whatever it is, while the engine's queue is open the
pool has lent what is in the queue, and each message adds at most one loan
(`handleAll_of_lends_any`). Once the queue is closed nothing is added at all: a
message that would have been handed over is refused by the queue and gives back
the buffer that it took, and every other message takes none (`Refused`).
-/

namespace UpdateBridge

/-- Operations that leave what every handle reaches as it was leave the loans. -/
theorem Pool.Lends.run {p : Pool} {capacity size : Nat} {loans : List Loan}
    (hp : p.Lends capacity size loans) {operations : List Pool.Operation}
    (same : (p.run operations).2.contents = p.contents) :
    (p.run operations).2.Lends capacity size loans where
  consistent := hp.consistent.run operations
  capacity_eq := (hp.consistent.capacity_run operations).trans hp.capacity_eq
  size_eq := (hp.consistent.size_run operations).trans hp.size_eq
  distinct := hp.distinct
  contents_iff h payload := by
    rw [same]
    exact hp.contents_iff h payload

namespace Intake

variable {p : Pool} {capacity size : Nat} {loans : List Loan} {queue : Mailbox Event} {m : Message}

/-- A message that is not for the engine changes nothing. -/
theorem dispatch_of_not_routed {σ : Type} (unrouted : ¬m.Routed) (sink : Sink σ) (p : Pool)
    (s : σ) :
    ∃ outcome notes, dispatch sink Route.updates m.topic m.payload p s = ⟨outcome, p, s, notes⟩ ∧
      (outcome = .ignored ∨ ∃ fault, outcome = .dropped fault) := by
  rw [dispatch]
  split
  · next fault _ => exact ⟨_, _, rfl, .inr ⟨fault, rfl⟩⟩
  · exact ⟨_, _, rfl, .inl rfl⟩
  · next kind ignored found => exact absurd ⟨kind, found, fun same => ignored same⟩ unrouted

/-- A message adds one loan, or none. -/
theorem dispatch_of_lends (hp : p.Lends capacity size loans) (depth : Nat) (m : Message) :
    ∃ loans', (dispatch Sink.queue Route.updates m.topic m.payload p
        (Loan.queue depth loans)).pool.Lends capacity size loans' ∧
      (dispatch Sink.queue Route.updates m.topic m.payload p (Loan.queue depth loans)).sink =
        Loan.queue depth loans' ∧
      loans'.length ≤ loans.length + 1 := by
  by_cases routed : m.Routed
  · obtain ⟨found, notIgnored⟩ := routed.kindOf
    obtain ⟨loans', lends, sink, lent⟩ := handOver_of_lends hp depth m
    have count := congrArg List.length lent
    rw [List.length_append, List.length_map, List.length_map] at count
    rw [dispatch_of_routed found notIgnored]
    refine ⟨loans', lends, sink, ?_⟩
    rw [count]
    split
    · exact Nat.le_refl _
    · exact Nat.le_succ _
  · obtain ⟨outcome, notes, same, -⟩ :=
      dispatch_of_not_routed routed Sink.queue p (Loan.queue depth loans)
    rw [same]
    exact ⟨loans, hp, rfl, Nat.le_succ _⟩

theorem offer_of_closed (closed : queue.closed = true) (event : Event) :
    Sink.queue.offer queue event = (.error .queueClosed, queue) := by
  simp only [Sink.queue, Mailbox.post_of_closed closed]

/-- A closed queue takes nothing, and what is lent stays lent. -/
theorem dispatch_of_closed (hp : p.Lends capacity size loans) (closed : queue.closed = true)
    (m : Message) :
    (dispatch Sink.queue Route.updates m.topic m.payload p queue).pool.Lends capacity size loans ∧
      (dispatch Sink.queue Route.updates m.topic m.payload p queue).pool.contents = p.contents ∧
      (dispatch Sink.queue Route.updates m.topic m.payload p queue).sink = queue := by
  have same : (dispatch Sink.queue Route.updates m.topic m.payload p queue).pool.contents =
        p.contents ∧
      (dispatch Sink.queue Route.updates m.topic m.payload p queue).sink = queue := by
    cases dispatch_effect hp.consistent Sink.queue Route.updates m.topic m.payload queue with
    | unheld _ contents refused =>
        refine ⟨contents, ?_⟩
        obtain sink | ⟨event, fault, refused⟩ := refused
        · exact sink
        · rw [offer_of_closed closed] at refused
          exact (Prod.mk.inj refused).2.symm
    | held _ _ _ _ accepted =>
        rw [offer_of_closed closed] at accepted
        cases accepted
  refine ⟨?_, same⟩
  have contents := same.1
  rw [dispatch_pool] at contents ⊢
  exact hp.run contents

/-- What becomes of a message for which the queue is closed. -/
structure Refused (p : Pool) (m : Message) (d : Dispatched (Mailbox Event)) : Prop where
  /-- One that would be handed over gives back the buffer that it takes. -/
  returned : m.Routed → m.payload.length ≤ p.size → 0 < p.freeCount →
    d.outcome = .dropped .queueClosed ∧ d.pool.freeCount = p.freeCount ∧
      ∃ h held filled, p.acquire = (.ok h, held) ∧
        held.write h m.payload = (.ok m.payload.length, filled) ∧ d.pool = (filled.release h).2
  /-- Any other takes none. -/
  untouched : ¬(m.Routed ∧ m.payload.length ≤ p.size ∧ 0 < p.freeCount) →
    d.pool = p ∧ (d.outcome = .ignored ∨ ∃ fault, d.outcome = .dropped fault)

theorem refused_of_closed (hp : p.Lends capacity size loans) (closed : queue.closed = true)
    (m : Message) :
    Refused p m (dispatch Sink.queue Route.updates m.topic m.payload p queue) := by
  have kept := (dispatch_of_closed hp closed m).1.freeCount_add_length
  have total := hp.freeCount_add_length
  refine ⟨fun routed fits free => ?_, fun otherwise => ?_⟩
  · obtain ⟨found, notIgnored⟩ := routed.kindOf
    obtain ⟨h, held, filled, acquired, written, -⟩ :=
      hp.lend (m := m) (by omega) (by rwa [← hp.size_eq])
    have handed : handOver Sink.queue m.kind m.payload p queue = _ :=
      handOver_of_refused fits acquired written (offer_of_closed closed _)
    rw [dispatch_of_routed found notIgnored, handed] at kept ⊢
    exact ⟨rfl, by omega, h, held, filled, acquired, written, rfl⟩
  · by_cases routed : m.Routed
    · obtain ⟨found, notIgnored⟩ := routed.kindOf
      rw [dispatch_of_routed found notIgnored]
      obtain large | fits := Nat.lt_or_ge p.size m.payload.length
      · rw [handOver_of_large large]
        exact ⟨rfl, .inr ⟨_, rfl⟩⟩
      · have full : capacity ≤ loans.length := by
          have none : ¬0 < p.freeCount := fun free => otherwise ⟨routed, fits, free⟩
          omega
        rw [handOver_of_exhausted fits (hp.acquire_of_full full)]
        exact ⟨rfl, .inr ⟨_, rfl⟩⟩
    · obtain ⟨outcome, notes, same, lost⟩ := dispatch_of_not_routed routed Sink.queue p queue
      rw [same]
      exact ⟨rfl, lost⟩

end Intake

namespace Line

variable {l : Line} {capacity size depth : Nat} {loans : List Loan}

/-- What the line does when it runs: one turn, or everything. -/
inductive Work : (Line → Line × List Note) → Prop where
  | turn (count : Nat) : Work (takeMessages count)
  | settle : Work settle

/-- What the line makes of a message does not depend on what else is waiting. -/
theorem handleAll_inbound (l : Line) (inbound : Mailbox Message) (messages : List Message) :
    ({ l with inbound }.handleAll messages).1 = { (l.handleAll messages).1 with inbound } := by
  induction messages generalizing l with
  | nil => rfl
  | cons m messages ih => exact ih (l.handle m).1

theorem Work.of_not_running {work : Line → Line × List Note} (works : Work work)
    (resting : l.state ≠ .running) : (work l).1 = l := by
  cases works with
  | turn count => rw [takeMessages, if_neg resting]
  | settle => rw [Line.settle, if_neg resting]

/-- The line handles messages that were waiting, and they wait no longer. -/
theorem Work.handles {work : Line → Line × List Note} (works : Work work) (l : Line) :
    ∃ messages, (work l).1.pool = (l.handleAll messages).1.pool ∧
      (work l).1.events = (l.handleAll messages).1.events ∧
      messages.length + (work l).1.inbound.items.length ≤ l.inbound.items.length := by
  by_cases running : l.state = .running
  · cases works with
    | turn count =>
        refine ⟨l.inbound.items.take count, ?_⟩
        rw [takeMessages, if_pos running, handleAll_inbound]
        refine ⟨rfl, rfl, ?_⟩
        show (l.inbound.items.take count).length + (l.inbound.items.drop count).length ≤ _
        exact Nat.le_of_eq (by rw [← List.length_append, List.take_append_drop])
    | settle =>
        refine ⟨l.inbound.items, ?_⟩
        rcases handled : { l with inbound := l.inbound.drained }.handleAll l.inbound.items with
          ⟨after, notes⟩
        have same := handleAll_inbound l l.inbound.drained l.inbound.items
        rw [handled] at same
        change after = _ at same
        rw [Line.settle, if_pos running, handled]
        dsimp only
        rw [same]
        split
        · exact ⟨rfl, rfl, Nat.le_refl _⟩
        · split <;> exact ⟨rfl, rfl, Nat.le_refl _⟩
  · rw [works.of_not_running running]
    exact ⟨[], rfl, rfl, Nat.le_of_eq (Nat.zero_add _)⟩

theorem handleAll_frame (l : Line) (messages : List Message) :
    (l.handleAll messages).1.state = l.state ∧ (l.handleAll messages).1.stopping = l.stopping ∧
      (l.handleAll messages).1.inbound = l.inbound := by
  induction messages generalizing l with
  | nil => exact ⟨rfl, rfl, rfl⟩
  | cons m messages ih => exact ih (l.handle m).1

/-- The line goes on and leaves the inbound mailbox open or closed as it was, or it
ends and closes it. -/
theorem Work.goes_on_or_ends {work : Line → Line × List Note} (works : Work work) (l : Line) :
    (work l).1.state = l.state ∧ (work l).1.inbound.closed = l.inbound.closed ∨
      (work l).1.state = .ended ∧ (work l).1.inbound.closed = true := by
  by_cases running : l.state = .running
  · cases works with
    | turn count =>
        obtain ⟨state, -, inbound⟩ :=
          handleAll_frame { l with inbound := l.inbound.drop count } (l.inbound.items.take count)
        rw [takeMessages, if_pos running, inbound]
        exact .inl ⟨state, rfl⟩
    | settle =>
        obtain ⟨state, -, inbound⟩ :=
          handleAll_frame { l with inbound := l.inbound.drained } l.inbound.items
        rw [Line.settle, if_pos running]
        dsimp only
        split
        · exact .inr ⟨rfl, rfl⟩
        · split
          · exact .inr ⟨rfl, rfl⟩
          · rw [inbound]
            exact .inl ⟨state, rfl⟩
  · rw [works.of_not_running running]
    exact .inl ⟨rfl, rfl⟩

/-- A running line that was told to stop does all it can and ends. -/
theorem settle_of_stopping {l : Line} (running : l.state = .running)
    (stopping : l.stopping = true) :
    l.settle.1.inbound.closed = true := by
  have told := (handleAll_frame { l with inbound := l.inbound.drained } l.inbound.items).2.1
  rw [Line.settle, if_pos running]
  dsimp only
  split
  · rfl
  · rw [if_pos (told.trans stopping)]
    rfl

/-- While the queue is open the pool has lent what is in it. -/
theorem handleAll_of_lends_any (hp : l.pool.Lends capacity size loans)
    (queued : l.events = Loan.queue depth loans) (messages : List Message) :
    ∃ loans', (l.handleAll messages).1.pool.Lends capacity size loans' ∧
      (l.handleAll messages).1.events = Loan.queue depth loans' ∧
      loans'.length ≤ loans.length + messages.length := by
  induction messages generalizing l loans with
  | nil => exact ⟨loans, hp, queued, Nat.le_refl _⟩
  | cons m messages ih =>
      obtain ⟨first, lends, sink, one⟩ := Intake.dispatch_of_lends hp depth m
      rw [← queued] at lends sink
      obtain ⟨loans', lends', queued', count⟩ := @ih (l.handle m).1 first lends sink
      refine ⟨loans', lends', queued', ?_⟩
      rw [List.length_cons]
      omega

/-- When the queue is closed the line changes neither what is lent nor the queue. -/
theorem handleAll_of_closed (hp : l.pool.Lends capacity size loans)
    (closed : l.events.closed = true) (messages : List Message) :
    (l.handleAll messages).1.pool.Lends capacity size loans ∧
      (l.handleAll messages).1.pool.contents = l.pool.contents ∧
      (l.handleAll messages).1.events = l.events := by
  induction messages generalizing l with
  | nil => exact ⟨hp, rfl, rfl⟩
  | cons m messages ih =>
      obtain ⟨lends, contents, sink⟩ := Intake.dispatch_of_closed hp closed m
      have closed' : (l.handle m).1.events.closed = true :=
        (congrArg Mailbox.closed sink).trans closed
      obtain ⟨lends', contents', events⟩ := @ih (l.handle m).1 lends closed'
      exact ⟨lends', contents'.trans contents, events.trans sink⟩

end Line

end UpdateBridge
