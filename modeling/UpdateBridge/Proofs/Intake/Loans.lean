import UpdateBridge.Intake.Line
import UpdateBridge.Proofs.Intake.Dispatch

/-!
# The loans in the engine's queue

While the engine does not run, every event that the line submits lends it one
buffer with the payload of one message. `Lends` says that a pool has lent
exactly these payloads, and a pool that has lent fewer than it has buffers can
lend one more. So of the messages that the line dispatches in one go the engine
is to get those that fit a buffer, as many as there are buffers and places in
its queue, and the first of them (`handleAll_of_lends`); what does not fit costs
no buffer and no place.
-/

namespace UpdateBridge

/-- The kind of event that the update routes make of a message. -/
def Message.kind (m : Message) : EventKind :=
  match Route.kindOf m.topic Route.updates with
  | .ok kind => kind
  | .error _ => .ignored

/-- A buffer with the payload of a message, in the engine's hands. -/
structure Loan where
  handle : Handle
  message : Message

def Loan.event (l : Loan) : Event :=
  Event.lending l.message.kind l.handle l.message.payload.length

/-- The engine's queue with these loans in it. -/
def Loan.queue (depth : Nat) (loans : List Loan) : Mailbox Event :=
  ⟨depth, loans.map Loan.event, false, false⟩

/-- The pool has as many buffers of that size and has lent just these. -/
structure Pool.Lends (p : Pool) (capacity size : Nat) (loans : List Loan) : Prop where
  consistent : p.Consistent
  capacity_eq : p.capacity = capacity
  size_eq : p.size = size
  distinct : (loans.map Loan.handle).Nodup
  contents_iff : ∀ h payload, p.contents h = some payload ↔
    ∃ l ∈ loans, l.handle = h ∧ l.message.payload = payload

namespace Pool.Lends

variable {p q : Pool} {capacity size : Nat} {loans : List Loan} {l : Loan} {m : Message}

theorem create (capacity size : Nat) : (Pool.create capacity size).Lends capacity size [] where
  consistent := consistent_create capacity size
  capacity_eq := capacity_create capacity size
  size_eq := rfl
  distinct := List.nodup_nil
  contents_iff h payload := by simp [contents_create]

theorem live_iff (hp : p.Lends capacity size loans) (h : Handle) :
    p.contents h ≠ none ↔ h ∈ loans.map Loan.handle := by
  rw [Option.ne_none_iff_exists', List.mem_map]
  constructor
  · rintro ⟨payload, live⟩
    obtain ⟨l, member, rfl, -⟩ := (hp.contents_iff h payload).mp live
    exact ⟨l, member, rfl⟩
  · rintro ⟨l, member, rfl⟩
    exact ⟨l.message.payload, (hp.contents_iff l.handle _).mpr ⟨l, member, rfl, rfl⟩⟩

/-- Every buffer that is not lent is free. -/
theorem freeCount_add_length (hp : p.Lends capacity size loans) :
    p.freeCount + loans.length = capacity := by
  have total := hp.consistent.freeCount_add_takenCount
  have lent := (handles_perm_of_iff hp.distinct hp.live_iff).length_eq
  rw [length_handles, List.length_map] at lent
  rw [← lent, total, hp.capacity_eq]

theorem dimensions (hp : p.Consistent) (operation : Operation) :
    (p.apply operation).2.capacity = p.capacity ∧ (p.apply operation).2.size = p.size :=
  ⟨(hp.change operation).capacity_eq, (hp.change operation).size_eq⟩

theorem acquire_of_full (hp : p.Lends capacity size loans) (full : capacity ≤ loans.length) :
    p.acquire = (.error (.exhausted capacity), p) := by
  have total := hp.freeCount_add_length
  have none : p.free = [] := by
    rw [← List.length_eq_zero_iff]
    show p.freeCount = 0
    omega
  rw [acquire_of_free_eq_nil none, hp.capacity_eq]

/-- A new handle reaches the payload that is lent through it. -/
theorem contents_iff_concat {h : Handle} (hp : p.Lends capacity size loans)
    (new : h ∉ loans.map Loan.handle)
    (contents : q.contents = Function.update p.contents h (some m.payload)) (g : Handle)
    (payload : List UInt8) :
    q.contents g = some payload ↔
      ∃ l ∈ loans ++ [⟨h, m⟩], l.handle = g ∧ l.message.payload = payload := by
  simp only [List.mem_append, List.mem_singleton, or_and_right, exists_or, exists_eq_left,
    ← hp.contents_iff]
  rw [contents, Function.update_apply]
  by_cases same : g = h
  · have unused : p.contents g = none := by rwa [same, ← not_ne_iff, hp.live_iff]
    rw [if_pos same, unused]
    simp [same]
  · simp [same, Ne.symm same]

/-- The handle of a loan that is removed reaches nothing, the others what they
reached. -/
theorem contents_iff_erase {before after : List Loan}
    (hp : p.Lends capacity size (before ++ l :: after))
    (contents : q.contents = Function.update p.contents l.handle none) (g : Handle)
    (payload : List UInt8) :
    q.contents g = some payload ↔
      ∃ k ∈ before ++ after, k.handle = g ∧ k.message.payload = payload := by
  have distinct := hp.distinct
  rw [List.map_append, List.map_cons, List.nodup_middle, List.nodup_cons, ← List.map_append]
    at distinct
  rw [contents, Function.update_apply]
  by_cases same : g = l.handle
  · have alone : ¬∃ k ∈ before ++ after, k.handle = g ∧ k.message.payload = payload := by
      rintro ⟨k, member, equal, -⟩
      rw [← same, ← equal] at distinct
      exact distinct.1 (List.mem_map_of_mem member)
    rw [if_pos same, iff_false_right alone]
    exact Option.some_ne_none payload ∘ Eq.symm
  · rw [if_neg same, hp.contents_iff]
    simp [or_and_right, exists_or, Ne.symm same]

/-- A pool with a buffer left hands it out under a handle that no loan has. -/
theorem exists_acquire (hp : p.Lends capacity size loans) (room : loans.length < capacity) :
    ∃ h held, p.acquire = (.ok h, held) ∧ held.Consistent ∧ held.capacity = capacity ∧
      held.size = size ∧ h ∉ loans.map Loan.handle ∧
      held.contents = Function.update p.contents h (some []) := by
  have total := hp.freeCount_add_length
  obtain exhausted | ⟨h, held, acquired, consistent, size_eq, unused, contents⟩ :=
    hp.consistent.acquire_cases
  · cases top : p.free with
    | nil =>
        rw [freeCount, top, List.length_nil] at total
        omega
    | cons slot free =>
        obtain ⟨b, found, -⟩ := hp.consistent.buffer_of_free top
        rw [acquire_of_free top found] at exhausted
        cases exhausted
  · obtain ⟨capacity_eq, -⟩ := dimensions hp.consistent .acquire
    simp only [apply, acquired] at capacity_eq
    have new : h ∉ loans.map Loan.handle := by
      rw [← hp.live_iff, not_not]
      exact unused
    exact ⟨h, held, acquired, consistent, capacity_eq.trans hp.capacity_eq,
      size_eq.trans hp.size_eq, new, contents⟩

/-- A pool with a buffer left lends it with what is written into it. -/
theorem lend (hp : p.Lends capacity size loans) (room : loans.length < capacity)
    (fits : m.payload.length ≤ size) :
    ∃ h held q, p.acquire = (.ok h, held) ∧
      held.write h m.payload = (.ok m.payload.length, q) ∧
        q.Lends capacity size (loans ++ [⟨h, m⟩]) := by
  obtain ⟨h, held, acquired, consistent, rfl, rfl, new, contents⟩ := hp.exists_acquire room
  have live : held.contents h ≠ none := by
    rw [contents, Function.update_self]
    exact Option.some_ne_none _
  obtain ⟨q, written, consistent', contents'⟩ := consistent.write_of_live live fits
  obtain ⟨capacity_eq, size_eq⟩ := dimensions consistent (.write h m.payload)
  simp only [apply, written] at capacity_eq size_eq
  rw [contents, Function.update_idem] at contents'
  have distinct : (List.map Loan.handle (loans ++ [⟨h, m⟩])).Nodup := by
    rw [List.map_append, List.map_singleton, ← List.concat_eq_append, List.nodup_concat]
    exact ⟨new, hp.distinct⟩
  exact ⟨h, held, q, acquired, written, consistent', capacity_eq, size_eq, distinct,
    hp.contents_iff_concat new contents'⟩

/-- A loan that is given back is none any more. -/
theorem release {before after : List Loan} (hp : p.Lends capacity size (before ++ l :: after)) :
    ∃ q, p.release l.handle = (.ok (), q) ∧ q.Lends capacity size (before ++ after) := by
  have live : p.contents l.handle ≠ none := by
    rw [hp.live_iff]
    exact List.mem_map_of_mem (List.mem_append_right _ List.mem_cons_self)
  obtain ⟨q, released, consistent, contents⟩ := hp.consistent.release_of_live live
  obtain ⟨capacity_eq, size_eq⟩ := dimensions hp.consistent (.release l.handle)
  simp only [apply, released] at capacity_eq size_eq
  have fewer : (before ++ after).Sublist (before ++ l :: after) :=
    (List.sublist_cons_self l after).append_left before
  exact ⟨q, released, consistent, capacity_eq.trans hp.capacity_eq, size_eq.trans hp.size_eq,
    hp.distinct.sublist (fewer.map Loan.handle), hp.contents_iff_erase contents⟩

theorem release_first (hp : p.Lends capacity size (l :: loans)) :
    ∃ q, p.release l.handle = (.ok (), q) ∧ q.Lends capacity size loans := by
  rw [← List.nil_append (l :: loans)] at hp
  exact hp.release

end Pool.Lends

namespace Loan

variable {depth : Nat} {loans : List Loan} {l : Loan}

theorem offer_of_room (room : loans.length < depth) :
    Sink.queue.offer (queue depth loans) l.event = (.ok (), queue depth (loans ++ [l])) := by
  have place : (queue depth loans).items.length < depth := by rwa [queue, List.length_map]
  have posted := Mailbox.post_of_lt (m := queue depth loans) rfl rfl place l.event
  have more : queue depth (loans ++ [l]) =
      { queue depth loans with items := (queue depth loans).items ++ [l.event] } := by
    rw [queue, List.map_append]
    rfl
  simp only [Sink.queue, posted, more]

theorem offer_of_full (full : depth ≤ loans.length) (event : Event) :
    Sink.queue.offer (queue depth loans) event = (.error .queueFull, queue depth loans) := by
  have crowded : depth ≤ (queue depth loans).items.length := by rwa [queue, List.length_map]
  have posted := Mailbox.post_of_le (m := queue depth loans) rfl rfl crowded event
  simp only [Sink.queue, posted]

end Loan

namespace Intake

variable {p : Pool} {capacity size : Nat} {loans : List Loan}

/-- A payload that fits a buffer is lent while there is a buffer and a place in
the queue for it. -/
theorem handOver_of_lends (hp : p.Lends capacity size loans) (depth : Nat) (m : Message) :
    ∃ loans', (handOver Sink.queue m.kind m.payload p (Loan.queue depth loans)).pool.Lends
        capacity size loans' ∧
      (handOver Sink.queue m.kind m.payload p (Loan.queue depth loans)).sink =
        Loan.queue depth loans' ∧
      loans'.map Loan.message = loans.map Loan.message ++
        if m.payload.length ≤ size ∧ loans.length < min capacity depth then [m] else [] := by
  -- The three limits in the order in which they are met: the buffer's size, the
  -- pool, the queue. A buffer that the queue refuses goes back at once.
  have size_eq := hp.size_eq
  obtain large | fits := Nat.lt_or_ge size m.payload.length
  · rw [handOver_of_large (by omega)]
    refine ⟨loans, hp, rfl, ?_⟩
    rw [if_neg (by omega), List.append_nil]
  · obtain full | room := Nat.lt_or_ge loans.length capacity |>.symm
    · rw [handOver_of_exhausted (by omega) (hp.acquire_of_full full)]
      refine ⟨loans, hp, rfl, ?_⟩
      rw [if_neg (by omega), List.append_nil]
    · obtain ⟨h, held, q, acquired, written, hq⟩ := hp.lend room fits
      obtain crowded | place := Nat.lt_or_ge loans.length depth |>.symm
      · obtain ⟨left, released, hleft⟩ := hq.release
        rw [List.append_nil] at hleft
        rw [handOver_of_refused (by omega) acquired written (Loan.offer_of_full crowded _)]
        refine ⟨loans, ?_, rfl, ?_⟩
        · show (q.release h).2.Lends capacity size loans
          rwa [released]
        · rw [if_neg (by omega), List.append_nil]
      · rw [handOver_of_accepted (by omega) acquired written
          (Loan.offer_of_room (l := ⟨h, m⟩) place)]
        refine ⟨loans ++ [⟨h, m⟩], hq, rfl, ?_⟩
        rw [if_pos ⟨fits, by omega⟩, List.map_append, List.map_singleton]

end Intake

/-- Whether the update routes have a kind for the message. -/
def Message.Routed (m : Message) : Prop :=
  ∃ kind, Route.kindOf m.topic Route.updates = .ok kind ∧ kind ≠ .ignored

theorem Message.Routed.kindOf {m : Message} (routed : m.Routed) :
    Route.kindOf m.topic Route.updates = .ok m.kind ∧ m.kind ≠ .ignored := by
  obtain ⟨kind, found, routed⟩ := routed
  have same : m.kind = kind := by rw [Message.kind, found]
  rw [same]
  exact ⟨found, routed⟩

def Message.fitting (size : Nat) (messages : List Message) : List Message :=
  messages.filter fun m => m.payload.length ≤ size

/-- A message that fits takes one of the places left, and another takes none. -/
theorem Message.take_fitting_cons (size places used : Nat) (m : Message) (messages : List Message) :
    (fitting size (m :: messages)).take (places - used) =
      (if m.payload.length ≤ size ∧ used < places then [m] else []) ++
        (fitting size messages).take (places - (used +
          (if m.payload.length ≤ size ∧ used < places then [m] else []).length)) := by
  by_cases fits : m.payload.length ≤ size
  · have kept : fitting size (m :: messages) = m :: fitting size messages :=
      List.filter_cons_of_pos (decide_eq_true fits)
    rw [kept]
    by_cases room : used < places
    · have left : places - used = places - (used + 1) + 1 := by omega
      rw [if_pos ⟨fits, room⟩, left, List.take_succ_cons]
      rfl
    · rw [if_neg fun both => room both.2, Nat.sub_eq_zero_of_le (Nat.le_of_not_lt room)]
      simp [Nat.sub_eq_zero_of_le (Nat.le_of_not_lt room)]
  · have lost : fitting size (m :: messages) = fitting size messages :=
      List.filter_cons_of_neg fun small => fits (of_decide_eq_true small)
    rw [lost, if_neg fun both => fits both.1]
    rfl

namespace Line

variable {l : Line} {capacity size depth : Nat} {loans : List Loan} {m : Message}
  {messages : List Message}

theorem handle_of_lends (hp : l.pool.Lends capacity size loans)
    (queued : l.events = Loan.queue depth loans) (routed : m.Routed) :
    ∃ p loans' tally,
      (l.handle m).1 = { l with pool := p, events := Loan.queue depth loans', tally } ∧
      p.Lends capacity size loans' ∧
      loans'.map Loan.message = loans.map Loan.message ++
        if m.payload.length ≤ size ∧ loans.length < min capacity depth then [m] else [] := by
  obtain ⟨found, notIgnored⟩ := routed.kindOf
  obtain ⟨loans', lends, sink, lent⟩ := Intake.handOver_of_lends hp depth m
  refine ⟨_, loans', (l.handle m).1.tally, ?_, lends, lent⟩
  rw [handle, queued, Intake.dispatch_of_routed found notIgnored, ← sink]

/-- Of messages that the line dispatches in one go the first that fit are lent,
as many as there are buffers and places left. -/
theorem handleAll_of_lends (hp : l.pool.Lends capacity size loans)
    (queued : l.events = Loan.queue depth loans) (routed : ∀ m ∈ messages, m.Routed) :
    ∃ p loans' tally,
      (l.handleAll messages).1 = { l with pool := p, events := Loan.queue depth loans', tally } ∧
      p.Lends capacity size loans' ∧
      loans'.map Loan.message = loans.map Loan.message ++
        (Message.fitting size messages).take (min capacity depth - loans.length) := by
  induction messages generalizing l loans with
  | nil =>
      refine ⟨l.pool, loans, l.tally, ?_, hp, ?_⟩
      · rw [handleAll_nil, ← queued]
      · rw [Message.fitting, List.filter_nil, List.take_nil, List.append_nil]
  | cons m messages ih =>
      obtain ⟨p, first, tally, handled, lends, lent⟩ :=
        handle_of_lends hp queued (routed m List.mem_cons_self)
      have count := congrArg List.length lent
      rw [List.length_append, List.length_map, List.length_map] at count
      obtain ⟨p', others, tally', handledAll, lends', lent'⟩ :=
        @ih (l.handle m).1 first (by rwa [handled]) (by rw [handled])
          fun m member => routed m (List.mem_cons_of_mem _ member)
      refine ⟨p', others, tally', ?_, lends', ?_⟩
      · rw [handleAll_cons, handledAll, handled]
      · rw [lent', lent, List.append_assoc, Message.take_fitting_cons, count]

/-- A line that goes on empties its mailbox, and what it found there is lent as
far as it can be. -/
theorem settle_of_lends (running : l.state = .running) (going : l.stopping = false)
    (awaited : l.inbound.ended = false) (hp : l.pool.Lends capacity size loans)
    (queued : l.events = Loan.queue depth loans) (routed : ∀ m ∈ l.inbound.items, m.Routed) :
    ∃ p loans' tally, l.settle.1 = { l with
        pool := p, events := Loan.queue depth loans', tally, inbound := l.inbound.drained } ∧
      p.Lends capacity size loans' ∧
      loans'.map Loan.message = loans.map Loan.message ++
        (Message.fitting size l.inbound.items).take (min capacity depth - loans.length) := by
  obtain ⟨p, loans', tally, handled, lends, lent⟩ :=
    handleAll_of_lends (l := { l with inbound := l.inbound.drained }) hp queued routed
  refine ⟨p, loans', tally, ?_, lends, lent⟩
  have awaited' : l.inbound.drained.ended = false := awaited
  rw [settle, if_pos running]
  simp only [handled]
  simp only [awaited', going, Bool.false_eq_true, if_false]

end Line

/-! ## Dispatching any message -/

namespace Intake

variable {p : Pool} {queue : Mailbox Event} {m : Message}

/-- What dispatching a message adds to the queue and to the live handles: a loan, or
nothing. -/
inductive Added (p : Pool) (queue : Mailbox Event) (m : Message) (d : Dispatched (Mailbox Event)) :
    Prop
  | loan {h : Handle} (outcome : d.outcome = .dispatched m.kind h m.payload.length)
      (routed : m.kind ≠ .ignored) (opened : queue.closed = false)
      (sink : d.sink = { queue with items := queue.items ++ [Loan.event ⟨h, m⟩] })
      (unused : p.contents h = none)
      (contents : d.pool.contents = Function.update p.contents h (some m.payload))
  | nothing (outcome : d.outcome = .ignored ∨ ∃ fault, d.outcome = .dropped fault)
      (sink : d.sink = queue) (contents : d.pool.contents = p.contents)

theorem dispatch_adds (hp : p.Consistent) (queue : Mailbox Event) (m : Message) :
    Added p queue m (dispatch Sink.queue Route.updates m.topic m.payload p queue) := by
  cases dispatch_effect hp Sink.queue Route.updates m.topic m.payload queue with
  | unheld outcome contents refused =>
      refine .nothing outcome ?_ contents
      obtain same | ⟨event, fault, refused⟩ := refused
      · exact same
      · obtain ⟨accepted, -⟩ | ⟨fault', kept⟩ := Sink.queue_offer_cases queue event
        · cases accepted.symm.trans refused
        · exact (Prod.mk.inj (kept.symm.trans refused)).2.symm
  | @held kind h outcome acquired unused contents accepted =>
      obtain ⟨found, routed⟩ := kindOf_of_dispatched outcome
      obtain rfl : m.kind = kind := by rw [Message.kind, found]
      obtain ⟨offered, opened⟩ | ⟨fault, refused⟩ := Sink.queue_offer_cases queue _
      · exact .loan outcome routed opened (Prod.mk.inj (accepted.symm.trans offered)).2 unused
          contents
      · cases accepted.symm.trans refused

end Intake

end UpdateBridge
