import UpdateBridge.Proofs.Intake.Decision
import UpdateBridge.Proofs.Intake.Loans
import UpdateBridge.Proofs.Route.Exclusive

/-!
# More messages than there are buffers or places

Messages are dispatched one after another while nobody takes from the queue or
gives a buffer back. Those that are for the engine and fit a buffer compete for
two things, the free buffers and the places in the queue, and whichever runs out
first decides what is said to those that come too late (`Verdict`).

`Loaded` is the state in the middle of that: from the pool and the queue at the
start so many buffers are gone, from the top of the stack, and so many events
are waiting, namely one for each message that was dispatched. A message that the
queue refuses leaves this state as it is, so the next one is refused as well.
-/

namespace UpdateBridge

namespace Message

variable {size : Nat} {m : Message} {kind : EventKind}

/-- The message is for the engine and fits a buffer. -/
structure Admissible (m : Message) (size : Nat) : Prop where
  routed : m.kind ≠ .ignored
  fits : m.payload.length ≤ size

instance (m : Message) (size : Nat) : Decidable (m.Admissible size) :=
  decidable_of_iff (m.kind ≠ .ignored ∧ m.payload.length ≤ size)
    ⟨fun ⟨routed, fits⟩ => ⟨routed, fits⟩, fun ⟨routed, fits⟩ => ⟨routed, fits⟩⟩

def admissible (size : Nat) (messages : List Message) : List Message :=
  messages.filter fun m => m.Admissible size

/-- The message in the buffer in which it was dispatched, if it was. -/
def loans (m : Message) : Outcome → List Loan
  | .dispatched _ h _ => [⟨h, m⟩]
  | _ => []

@[simp] theorem loans_ignored (m : Message) : m.loans .ignored = [] := rfl

@[simp] theorem loans_dropped (m : Message) (fault : Fault) : m.loans (.dropped fault) = [] := rfl

@[simp] theorem loans_dispatched (m : Message) (kind : EventKind) (h : Handle) (length : Nat) :
    m.loans (.dispatched kind h length) = [⟨h, m⟩] := rfl

theorem admissible_concat (admissible : m.Admissible size) (messages : List Message) :
    Message.admissible size (messages ++ [m]) = Message.admissible size messages ++ [m] := by
  simp [Message.admissible, admissible]

theorem admissible_concat_of_not (other : ¬m.Admissible size) (messages : List Message) :
    Message.admissible size (messages ++ [m]) = Message.admissible size messages := by
  simp [Message.admissible, other]

theorem kind_of_wants (wants : Route.Wants m.topic Route.updates kind) : m.kind = kind := by
  rw [Message.kind, wants.kindOf]

theorem routed_of_wants (wants : Route.Wants m.topic Route.updates kind) : m.kind ≠ .ignored := by
  rw [kind_of_wants wants]
  exact wants.routed

theorem kind_of_stuck (stuck : Route.Stuck m.topic Route.updates) : m.kind = .ignored := by
  rw [Message.kind, Route.kindOf_of_stuck stuck]

theorem kind_of_unrouted (clear : ¬Route.Stuck m.topic Route.updates)
    (unrouted : Route.PassedBy m.topic Route.updates ∨
      Route.Leads m.topic Route.updates .ignored) : m.kind = .ignored := by
  obtain passed | leads := unrouted
  · rw [Message.kind, Route.kindOf_of_passedBy clear passed]
  · rw [Message.kind, Route.kindOf_of_leads clear leads]

end Message

namespace Route

variable {topic : String}

/-- By the update routes the search gets stuck at once or not at all. -/
theorem stuck_updates_iff : Stuck topic updates ↔ topic = "" := by
  have filters : ∀ r ∈ updates, r.filter ≠ "" := fun _ => filter_ne_empty_of_mem_updates
  exact (stuck_iff filters).trans (and_iff_left nofun)

end Route

namespace Intake

/-- What dispatching messages leaves behind. -/
structure Batch where
  /-- What became of each message. -/
  outcomes : List Outcome
  pool : Pool
  queue : Mailbox Event

def dispatchAll (p : Pool) (queue : Mailbox Event) : List Message → Batch
  | [] => ⟨[], p, queue⟩
  | m :: messages =>
    let d := dispatch Sink.queue Route.updates m.topic m.payload p queue
    let rest := dispatchAll d.pool d.sink messages
    { rest with outcomes := d.outcome :: rest.outcomes }

theorem length_outcomes (p : Pool) (queue : Mailbox Event) (messages : List Message) :
    (dispatchAll p queue messages).outcomes.length = messages.length := by
  induction messages generalizing p queue with
  | nil => rfl
  | cons m messages ih => exact congrArg Nat.succ (ih _ _)

/-- The messages that were dispatched, each in its buffer. -/
def lent (messages : List Message) (outcomes : List Outcome) : List Loan :=
  (List.zipWith Message.loans messages outcomes).flatten

/-- What becomes of a message, given the pool and the places in the queue at the
start, if `used` messages before it were for the engine and fitted a buffer. -/
inductive Verdict (p : Pool) (room used : Nat) (m : Message) : Outcome → Prop
  | nameless (empty : m.topic = "") :
      Verdict p room used m (.dropped (.invalidArgument "topic name is empty"))
  | ignored (named : m.topic ≠ "") (unrouted : m.kind = .ignored) :
      Verdict p room used m .ignored
  | tooLarge (routed : m.kind ≠ .ignored) (large : p.size < m.payload.length) :
      Verdict p room used m (.dropped (.tooLarge p.size m.payload.length))
  | dispatched {h : Handle} (routed : m.kind ≠ .ignored) (fits : m.payload.length ≤ p.size)
      (early : used < min p.freeCount room) (slot : p.free[used]? = some h.slot) :
      Verdict p room used m (.dispatched m.kind h m.payload.length)
  | exhausted (routed : m.kind ≠ .ignored) (fits : m.payload.length ≤ p.size)
      (late : p.freeCount ≤ used) (scarce : p.freeCount ≤ room) :
      Verdict p room used m (.dropped (.exhausted p.capacity))
  | queueFull (routed : m.kind ≠ .ignored) (fits : m.payload.length ≤ p.size)
      (late : room ≤ used) (scarce : room < p.freeCount) :
      Verdict p room used m (.dropped .queueFull)

/-- Whatever becomes of a message, the pool is changed by its operations only. -/
theorem dispatch_keeps {σ : Type} {p : Pool} (hp : p.Consistent) (blank : p.Blank)
    (sink : Sink σ) (routes : List Route) (topic : String) (payload : List UInt8) (s : σ) :
    let q := (dispatch sink routes topic payload p s).pool
    q.Consistent ∧ q.Blank ∧ q.capacity = p.capacity ∧ q.size = p.size := by
  intro q
  simp only [q, dispatch_pool]
  exact ⟨hp.run _, blank.run hp _, hp.capacity_run _, hp.size_run _⟩

/-- The pool and the queue after these messages were dispatched, of which these
loans came, given the pool and the queue at the start. -/
structure Loaded (initial : Pool) (opening : Mailbox Event) (messages : List Message)
    (loans : List Loan) (p : Pool) (queue : Mailbox Event) : Prop where
  consistent : p.Consistent
  blank : p.Blank
  capacity_eq : p.capacity = initial.capacity
  size_eq : p.size = initial.size
  free_eq : p.free = initial.free.drop loans.length
  queue_eq : queue = { opening with items := opening.items ++ loans.map Loan.event }
  slots : (loans.map fun l => l.handle.slot) = initial.free.take loans.length
  messages_eq : loans.map Loan.message =
    (Message.admissible initial.size messages).take (min initial.freeCount opening.room)

namespace Loaded

variable {initial p q : Pool} {opening queue : Mailbox Event} {messages : List Message}
variable {loans : List Loan} {m : Message}

theorem start (consistent : p.Consistent) (blank : p.Blank) (queue : Mailbox Event) :
    Loaded p queue [] [] p queue where
  consistent := consistent
  blank := blank
  capacity_eq := rfl
  size_eq := rfl
  free_eq := rfl
  queue_eq := by simp
  slots := rfl
  messages_eq := by simp [Message.admissible]

/-- As many loans as places, or as messages that compete for them. -/
theorem length_loans (loaded : Loaded initial opening messages loans p queue) :
    loans.length = min (min initial.freeCount opening.room)
      (Message.admissible initial.size messages).length := by
  have same := congrArg List.length loaded.messages_eq
  rwa [List.length_map, List.length_take] at same

/-- A message that does not compete, or comes too late, changes nothing. -/
theorem keep (loaded : Loaded initial opening messages loans p queue) (consistent : q.Consistent)
    (blank : q.Blank) (capacity_eq : q.capacity = p.capacity) (size_eq : q.size = p.size)
    (free_eq : q.free = p.free)
    (passed : ¬m.Admissible initial.size ∨ min initial.freeCount opening.room ≤
      (Message.admissible initial.size messages).length) :
    Loaded initial opening (messages ++ [m]) loans q queue where
  consistent := consistent
  blank := blank
  capacity_eq := capacity_eq.trans loaded.capacity_eq
  size_eq := size_eq.trans loaded.size_eq
  free_eq := free_eq.trans loaded.free_eq
  queue_eq := loaded.queue_eq
  slots := loaded.slots
  messages_eq := by
    rw [loaded.messages_eq]
    obtain other | late := passed
    · rw [Message.admissible_concat_of_not other]
    · by_cases admissible : m.Admissible initial.size
      · rw [Message.admissible_concat admissible, List.take_append_of_le_length late]
      · rw [Message.admissible_concat_of_not admissible]

/-- While a buffer is free, there were more of them than loans, and the next to be
handed out is the next that was on the stack. -/
theorem next_slot {slot : Nat} {free : List Nat}
    (loaded : Loaded initial opening messages loans p queue) (top : p.free = slot :: free) :
    loans.length < initial.freeCount ∧ initial.free[loans.length]? = some slot := by
  have next : initial.free[loans.length]? = some slot := by
    rw [← List.head?_drop, ← loaded.free_eq, top, List.head?_cons]
  obtain ⟨below, -⟩ := List.getElem?_eq_some_iff.mp next
  exact ⟨below, next⟩

/-- A message that competes and comes in time is lent the buffer on top of the
stack and takes a place. -/
theorem lend {slot : Nat} {free : List Nat} {b : Buffer}
    (loaded : Loaded initial opening messages loans p queue)
    (admissible : m.Admissible initial.size)
    (early : (Message.admissible initial.size messages).length <
      min initial.freeCount opening.room)
    (top : p.free = slot :: free) (blank : (p.lendingOut slot b free m.payload).Blank)
    (consistent : (p.lendingOut slot b free m.payload).Consistent) :
    Loaded initial opening (messages ++ [m]) (loans ++ [⟨⟨slot, b.generation⟩, m⟩])
      (p.lendingOut slot b free m.payload)
      { queue with items := queue.items ++ [Loan.event ⟨⟨slot, b.generation⟩, m⟩] } where
  consistent := consistent
  blank := blank
  capacity_eq := by
    rw [← loaded.capacity_eq]
    exact List.length_set
  size_eq := loaded.size_eq
  free_eq := by
    have rest := congrArg List.tail (loaded.free_eq.symm.trans top)
    rw [List.tail_drop] at rest
    rw [Pool.free_lendingOut, List.length_append, List.length_singleton, rest, List.tail_cons]
  queue_eq := by
    rw [loaded.queue_eq]
    simp
  slots := by
    simp [List.take_add_one, loaded.slots, (loaded.next_slot top).2]
  messages_eq := by
    rw [List.map_append, List.map_singleton, loaded.messages_eq,
      Message.admissible_concat admissible, List.take_append,
      List.take_of_length_le (l := [m])]
    simp only [List.length_singleton]
    omega

/-- No buffer is free once there are as many loans as there were buffers. -/
theorem free_eq_nil_iff (loaded : Loaded initial opening messages loans p queue) :
    p.free = [] ↔ initial.freeCount ≤ loans.length := by
  rw [loaded.free_eq, List.drop_eq_nil_iff, Pool.freeCount]

/-- The queue refuses once there are as many loans as there were places. -/
theorem offer_cases (loaded : Loaded initial opening messages loans p queue)
    (opened : opening.closed = false) (awaited : opening.ended = false) (event : Event) :
    loans.length < opening.room ∧
        Sink.queue.offer queue event = (.ok (), { queue with items := queue.items ++ [event] }) ∨
      opening.room ≤ loans.length ∧
        Sink.queue.offer queue event = (.error .queueFull, queue) := by
  have same := loaded.queue_eq
  have room : opening.room = opening.capacity - opening.items.length := by
    simp [Mailbox.room, opened, awaited]
  have waiting : queue.items.length = opening.items.length + loans.length := by simp [same]
  have places : queue.capacity = opening.capacity := by rw [same]
  have here : queue.closed = false := by rw [same, opened]
  have more : queue.ended = false := by rw [same, awaited]
  obtain ⟨vacant, offered⟩ | ⟨full, offered⟩ := Sink.queue_offer_of_open here more event
  · exact .inl ⟨by omega, offered⟩
  · exact .inr ⟨by omega, offered⟩

/-- One more message is decided by how many before it competed for the buffers
and the places, and leaves what the next is decided by. -/
theorem step (loaded : Loaded initial opening messages loans p queue)
    (opened : opening.closed = false) (awaited : opening.ended = false) (m : Message) :
    let d := dispatch Sink.queue Route.updates m.topic m.payload p queue
    Verdict initial opening.room (Message.admissible initial.size messages).length m d.outcome ∧
      Loaded initial opening (messages ++ [m]) (loans ++ m.loans d.outcome) d.pool d.sink := by
  have count := loaded.length_loans
  obtain ⟨consistent, blank, capacity_eq, size_eq⟩ := dispatch_keeps loaded.consistent
    loaded.blank Sink.queue Route.updates m.topic m.payload queue
  obtain ⟨outcome, q, t, offered, decision⟩ :=
    exists_decision loaded.consistent Sink.queue Route.updates m.topic m.payload queue
  obtain ⟨notes, done⟩ := decision.dispatch loaded.consistent loaded.blank
  rw [done] at consistent blank capacity_eq size_eq
  intro d
  simp only [d, done]
  cases decision with
  | unclassified stuck =>
      have empty := Route.stuck_updates_iff.mp stuck
      rw [Topic.emptyFault, if_pos empty, Message.loans_dropped, List.append_nil]
      refine ⟨.nameless empty, loaded.keep consistent blank rfl rfl rfl (.inl ?_)⟩
      intro admissible
      exact admissible.routed (Message.kind_of_stuck stuck)
  | ignored clear unrouted =>
      have named : m.topic ≠ "" := fun empty => clear (Route.stuck_updates_iff.mpr empty)
      have ignored : m.kind = .ignored := Message.kind_of_unrouted clear unrouted
      rw [Message.loans_ignored, List.append_nil]
      refine ⟨.ignored named ignored, loaded.keep consistent blank rfl rfl rfl (.inl ?_)⟩
      intro admissible
      exact admissible.routed ignored
  | tooLarge wants large =>
      have routed := Message.routed_of_wants wants
      rw [loaded.size_eq] at large ⊢
      rw [Message.loans_dropped, List.append_nil]
      refine ⟨.tooLarge routed large, loaded.keep consistent blank rfl rfl rfl (.inl ?_)⟩
      intro admissible
      exact absurd admissible.fits (Nat.not_le.mpr large)
  | exhausted wants fits none =>
      have routed := Message.routed_of_wants wants
      have gone := loaded.free_eq_nil_iff.mp none
      rw [loaded.size_eq] at fits
      rw [loaded.capacity_eq, Message.loans_dropped, List.append_nil]
      refine ⟨.exhausted routed fits (by omega) (by omega), ?_⟩
      exact loaded.keep consistent blank rfl rfl rfl (.inr (by omega))
  | refused wants fits top found refused =>
      have routed := Message.routed_of_wants wants
      obtain ⟨left, -⟩ := loaded.next_slot top
      rw [loaded.size_eq] at fits
      obtain ⟨vacant, offered⟩ | ⟨full, offered⟩ := loaded.offer_cases opened awaited _
      · rw [offered] at refused
        cases refused
      · rw [offered] at refused
        cases refused
        rw [Message.loans_dropped, List.append_nil]
        refine ⟨.queueFull routed fits (by omega) (by omega), ?_⟩
        exact loaded.keep consistent blank capacity_eq size_eq rfl (.inr (by omega))
  | @dispatched kind slot free b t wants fits top found accepted =>
      have same := Message.kind_of_wants wants
      have routed := Message.routed_of_wants wants
      obtain ⟨left, next⟩ := loaded.next_slot top
      rw [loaded.size_eq] at fits
      obtain ⟨vacant, offered⟩ | ⟨full, offered⟩ := loaded.offer_cases opened awaited _
      · rw [offered] at accepted
        cases accepted
        have used : loans.length = (Message.admissible initial.size messages).length := by omega
        subst same
        rw [Message.loans_dispatched]
        refine ⟨.dispatched routed fits (by omega) (used ▸ next), ?_⟩
        exact loaded.lend ⟨routed, fits⟩ (by omega) top blank consistent
      · rw [offered] at accepted
        cases accepted

/-- What holds in the middle holds after the remaining messages as well, and each
of them gets its verdict. -/
theorem run (loaded : Loaded initial opening messages loans p queue)
    (opened : opening.closed = false) (awaited : opening.ended = false)
    (remaining : List Message) :
    let b := dispatchAll p queue remaining
    (∀ i m, remaining[i]? = some m → ∃ outcome, b.outcomes[i]? = some outcome ∧
      Verdict initial opening.room
        (Message.admissible initial.size (messages ++ remaining.take i)).length m outcome) ∧
      Loaded initial opening (messages ++ remaining) (loans ++ lent remaining b.outcomes)
        b.pool b.queue := by
  induction remaining generalizing messages loans p queue with
  | nil =>
      refine ⟨nofun, ?_⟩
      simpa [dispatchAll, lent] using loaded
  | cons m remaining ih =>
      obtain ⟨verdict, loaded⟩ := loaded.step opened awaited m
      obtain ⟨verdicts, loaded⟩ := ih loaded
      refine ⟨?_, ?_⟩
      · rintro (_ | i) m' at_
        · obtain rfl := Option.some.inj at_
          refine ⟨_, rfl, ?_⟩
          simpa using verdict
        · obtain ⟨outcome, found, verdict⟩ := verdicts i m' at_
          refine ⟨outcome, found, ?_⟩
          simpa using verdict
      · simpa [dispatchAll, lent] using loaded

end Loaded

/-- Of messages that come one after another while nothing is taken from the
queue and nothing given back, those are dispatched that are for the engine and
fit a buffer, in order, from the first on and as many as there are buffers and
places. They are lent the buffers on the stack from the top, each another. Every
message gets the verdict of its place in the list, and nothing but what was
dispatched takes a buffer or a place. -/
theorem overload_drops_suffix (capacity size : Nat) (before : List Pool.Operation)
    {queue : Mailbox Event} (opened : queue.closed = false) (awaited : queue.ended = false)
    (messages : List Message) :
    let p := ((Pool.create capacity size).run before).2
    let b := dispatchAll p queue messages
    let loans := lent messages b.outcomes
    (p.capacity = capacity ∧ p.size = size) ∧
      b.outcomes.length = messages.length ∧
      (∀ i m, messages[i]? = some m → ∃ outcome, b.outcomes[i]? = some outcome ∧
        Verdict p queue.room (Message.admissible size (messages.take i)).length m outcome) ∧
      (loans.map Loan.message =
          (Message.admissible size messages).take (min p.freeCount queue.room) ∧
        (loans.map fun l => l.handle.slot) = p.free.take loans.length ∧
        (loans.map fun l => l.handle.slot).Nodup) ∧
      b.pool.free = p.free.drop loans.length ∧
      b.queue = { queue with items := queue.items ++ loans.map Loan.event } := by
  intro p b loans
  have start := Pool.consistent_create capacity size
  have hp : p.Consistent := start.run before
  have size_eq : p.size = size := start.size_run before
  have capacity_eq : p.capacity = capacity :=
    (start.capacity_run before).trans (Pool.capacity_create capacity size)
  obtain ⟨verdicts, loaded⟩ :=
    (Loaded.start hp (Pool.blank_run_create capacity size before) queue).run opened awaited messages
  simp only [List.nil_append, size_eq] at verdicts
  have dispatched := loaded.messages_eq
  simp only [List.nil_append, size_eq] at dispatched
  have slots : (loans.map fun l => l.handle.slot) = p.free.take loans.length := loaded.slots
  refine ⟨⟨capacity_eq, size_eq⟩, length_outcomes p queue messages, verdicts,
    ⟨dispatched, slots, ?_⟩, loaded.free_eq, loaded.queue_eq⟩
  rw [slots]
  exact hp.nodup_free.sublist (List.take_sublist _ _)

/-- A pool of two and a queue that is open and has three places left: the third
message that is for the engine and fits is too late, whatever came in between. -/
theorem overload_of_two :
    let block : List UInt8 → Message := fun payload =>
      ⟨"$aws/things/core2/streams/fw/data", payload⟩
    let messages := [block [1], ⟨"core2/", [2]⟩, block [3, 3, 3], block [4], ⟨"", []⟩, block [5]]
    let queue : Mailbox Event := ⟨4, [Event.start], false, false⟩
    (lent messages (dispatchAll (Pool.create 2 2) queue messages).outcomes).map Loan.message =
        [block [1], block [4]] ∧
      (dispatchAll (Pool.create 2 2) queue messages).outcomes[5]? =
        some (.dropped (.exhausted 2)) := by
  intro block messages queue
  obtain ⟨-, -, verdicts, ⟨dispatched, -, -⟩, -, -⟩ :=
    @overload_drops_suffix 2 2 [] queue rfl rfl messages
  have first : (Message.admissible 2 messages).take 2 = [block [1], block [4]] := by
    decide +kernel
  have used : (Message.admissible 2 (messages.take 5)).length = 2 := by decide +kernel
  refine ⟨dispatched.trans first, ?_⟩
  obtain ⟨outcome, found, verdict⟩ := verdicts 5 (block [5]) rfl
  rw [used] at verdict
  refine found.trans ?_
  cases verdict with
  | exhausted => rfl
  | nameless empty => exact absurd empty (by decide)
  | ignored named unrouted => exact absurd unrouted (by decide +kernel)
  | tooLarge routed large => exact absurd large (by decide)
  | dispatched routed fits early => exact absurd early (by decide)
  | queueFull routed fits late => exact absurd late (by decide)

/-- It is not so that a message that is not for the engine is always ignored:
one without a topic is dropped. -/
theorem not_unrouted_ignored :
    ¬∀ m : Message, m.kind = .ignored →
      (dispatchAll (Pool.create 2 16) (Mailbox.empty 2) [m]).outcomes = [.ignored] := by
  intro all
  have ignored := all ⟨"", [120]⟩ (by decide)
  have dropped : (dispatchAll (Pool.create 2 16) (Mailbox.empty 2) [⟨"", [120]⟩]).outcomes =
      [.dropped (.invalidArgument "topic name is empty")] := by
    decide
  rw [dropped] at ignored
  cases ignored

end Intake

end UpdateBridge
