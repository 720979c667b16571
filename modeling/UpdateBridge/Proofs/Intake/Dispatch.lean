import UpdateBridge.Intake.Dispatch
import UpdateBridge.Proofs.Pool.Generation

/-!
# What dispatching does to the pool and the sink

Dispatching uses the pool through its operations only: `operations` says which
ones a message leads to, and `dispatch_pool` that they are all that happens to
the pool. `Effect` says what they amount to. A message that is not dispatched
leaves what every handle reaches as it was, whatever was taken and given back
on the way; one that is dispatched makes one more handle live, which reaches
its payload, and the sink has accepted the event that lends this handle.
-/

namespace UpdateBridge

namespace Intake

variable {σ : Type} {sink : Sink σ} {kind : EventKind} {payload : List UInt8} {pool : Pool} {s : σ}

/-- The operations on the pool that handing a payload over consists of. -/
def handOverOperations (sink : Sink σ) (kind : EventKind) (payload : List UInt8) (pool : Pool)
    (s : σ) : List Pool.Operation :=
  if payload.length > pool.size then []
  else match pool.acquire with
    | (.error _, _) => [.acquire]
    | (.ok h, held) =>
      match held.write h payload with
      | (.error _, _) => [.acquire, .write h payload, .release h]
      | (.ok length, _) =>
        match sink.offer s (Event.lending kind h length) with
        | (.ok (), _) => [.acquire, .write h payload]
        | (.error _, _) => [.acquire, .write h payload, .release h]

/-- The operations on the pool that dispatching a message consists of. -/
def operations (sink : Sink σ) (routes : List Route) (topic : String) (payload : List UInt8)
    (pool : Pool) (s : σ) : List Pool.Operation :=
  match Route.kindOf topic routes with
  | .error _ => []
  | .ok .ignored => []
  | .ok kind => handOverOperations sink kind payload pool s

theorem handOver_pool (sink : Sink σ) (kind : EventKind) (payload : List UInt8) (pool : Pool)
    (s : σ) :
    (handOver sink kind payload pool s).pool =
      (pool.run (handOverOperations sink kind payload pool s)).2 := by
  unfold handOver handOverOperations
  split
  · rfl
  · rcases acquired : pool.acquire with ⟨fault | h, held⟩
    · simp [Pool.apply, acquired]
    · rcases written : held.write h payload with ⟨fault | length, filled⟩
      · simp [Pool.apply, acquired, written]
      · rcases offered : sink.offer s (Event.lending kind h length) with ⟨fault | ⟨⟩, s'⟩ <;>
          simp [Pool.apply, acquired, written, offered]

theorem dispatch_of_routed {routes : List Route} {topic : String}
    (found : Route.kindOf topic routes = .ok kind) (routed : kind ≠ .ignored) (sink : Sink σ)
    (payload : List UInt8) (pool : Pool) (s : σ) :
    dispatch sink routes topic payload pool s =
      let handed := handOver sink kind payload pool s
      { handed with notes := handed.notes ++ outcomeNotes kind topic handed.outcome } := by
  rw [dispatch, found]
  cases kind with
  | ignored => exact absurd rfl routed
  | _ => rfl

theorem outcome_handOver (sink : Sink σ) (kind : EventKind) (payload : List UInt8) (pool : Pool)
    (s : σ) : (handOver sink kind payload pool s).outcome ≠ .ignored := by
  unfold handOver
  split
  · exact Outcome.noConfusion
  · split
    · exact Outcome.noConfusion
    · split
      · exact Outcome.noConfusion
      · dsimp only
        split <;> exact Outcome.noConfusion

/-! What becomes of a payload, by the place where it fails. -/

theorem handOver_of_large (large : pool.size < payload.length) :
    handOver sink kind payload pool s =
      ⟨.dropped (.tooLarge pool.size payload.length), pool, s, []⟩ := by
  rw [handOver, if_pos large]

theorem handOver_of_exhausted {left : Pool} {fault : Fault} (fits : payload.length ≤ pool.size)
    (acquired : pool.acquire = (.error fault, left)) :
    handOver sink kind payload pool s = ⟨.dropped fault, left, s, []⟩ := by
  rw [handOver, if_neg (Nat.not_lt.mpr fits), acquired]

theorem handOver_of_accepted {held filled : Pool} {h : Handle} {length : Nat} {s' : σ}
    (fits : payload.length ≤ pool.size) (acquired : pool.acquire = (.ok h, held))
    (written : held.write h payload = (.ok length, filled))
    (offered : sink.offer s (Event.lending kind h length) = (.ok (), s')) :
    handOver sink kind payload pool s =
      ⟨.dispatched kind h length, filled, s',
        sink.notes (Event.lending kind h length) (.ok ())⟩ := by
  rw [handOver, if_neg (Nat.not_lt.mpr fits), acquired]
  simp only [written, offered]

theorem handOver_of_refused {held filled : Pool} {h : Handle} {length : Nat} {fault : Fault}
    {s' : σ} (fits : payload.length ≤ pool.size) (acquired : pool.acquire = (.ok h, held))
    (written : held.write h payload = (.ok length, filled))
    (offered : sink.offer s (Event.lending kind h length) = (.error fault, s')) :
    handOver sink kind payload pool s =
      ⟨.dropped fault, (filled.release h).2, s',
        sink.notes (Event.lending kind h length) (.error fault)⟩ := by
  rw [handOver, if_neg (Nat.not_lt.mpr fits), acquired]
  simp only [written, offered]

/-- Dispatching changes the pool by its operations and in no other way. -/
theorem dispatch_pool (sink : Sink σ) (routes : List Route) (topic : String)
    (payload : List UInt8) (pool : Pool) (s : σ) :
    (dispatch sink routes topic payload pool s).pool =
      (pool.run (operations sink routes topic payload pool s)).2 := by
  unfold dispatch operations
  rcases Route.kindOf topic routes with fault | kind
  · rfl
  · cases kind with
    | ignored => rfl
    | _ => exact handOver_pool sink _ payload pool s

theorem consistent_dispatch (hp : pool.Consistent) (sink : Sink σ) (routes : List Route)
    (topic : String) (payload : List UInt8) (s : σ) :
    (dispatch sink routes topic payload pool s).pool.Consistent := by
  rw [dispatch_pool]
  exact hp.run _

theorem size_dispatch (hp : pool.Consistent) (sink : Sink σ) (routes : List Route)
    (topic : String) (payload : List UInt8) (s : σ) :
    (dispatch sink routes topic payload pool s).pool.size = pool.size := by
  rw [dispatch_pool]
  exact hp.size_run _

/-- What is handed over is handed over as what it is. -/
theorem kind_of_handOver {kind' : EventKind} {h : Handle} {length : Nat}
    (dispatched : (handOver sink kind payload pool s).outcome = .dispatched kind' h length) :
    kind' = kind := by
  unfold handOver at dispatched
  split at dispatched
  · cases dispatched
  · split at dispatched
    · cases dispatched
    · split at dispatched
      · cases dispatched
      · dsimp only at dispatched
        split at dispatched
        · exact (Outcome.dispatched.inj dispatched).1.symm
        · cases dispatched

/-- A message is dispatched as what the routes make of it. -/
theorem kindOf_of_dispatched {routes : List Route} {topic : String} {h : Handle} {length : Nat}
    (dispatched : (dispatch sink routes topic payload pool s).outcome =
      .dispatched kind h length) : Route.kindOf topic routes = .ok kind ∧ kind ≠ .ignored := by
  unfold dispatch at dispatched
  split at dispatched
  · cases dispatched
  · cases dispatched
  · next routed found =>
      obtain rfl := kind_of_handOver dispatched
      exact ⟨found, routed⟩

/-- What dispatching a payload can come to. -/
inductive Effect (sink : Sink σ) (payload : List UInt8) (pool : Pool) (s : σ) (d : Dispatched σ) :
    Prop
  | unheld (outcome : d.outcome = .ignored ∨ ∃ fault, d.outcome = .dropped fault)
      (contents : d.pool.contents = pool.contents)
      (refused : d.sink = s ∨ ∃ event fault, sink.offer s event = (.error fault, d.sink))
  | held {kind : EventKind} {h : Handle}
      (outcome : d.outcome = .dispatched kind h payload.length)
      (acquired : ∃ held, pool.acquire = (.ok h, held)) (unused : pool.contents h = none)
      (contents : d.pool.contents = Function.update pool.contents h (some payload))
      (accepted : sink.offer s (Event.lending kind h payload.length) = (.ok (), d.sink))

/-- A message that is not dispatched leaves what every handle reaches. -/
theorem Effect.contents_of_undispatched {d : Dispatched σ} (effect : Effect sink payload pool s d)
    (undispatched : ∀ kind h length, d.outcome ≠ .dispatched kind h length) :
    d.pool.contents = pool.contents := by
  cases effect with
  | unheld outcome contents refused => exact contents
  | held outcome => exact absurd outcome (undispatched _ _ _)

/-- A message that is dispatched is lent a buffer under a handle that was not live. -/
theorem Effect.of_dispatched {d : Dispatched σ} {h : Handle} {length : Nat}
    (effect : Effect sink payload pool s d) (dispatched : d.outcome = .dispatched kind h length) :
    (∃ held, pool.acquire = (.ok h, held)) ∧ pool.contents h = none ∧
      d.pool.contents h = some payload := by
  cases effect with
  | unheld outcome =>
      rw [dispatched] at outcome
      obtain ignored | ⟨fault, dropped⟩ := outcome
      · cases ignored
      · cases dropped
  | held outcome acquired unused contents accepted =>
      obtain ⟨rfl, rfl, rfl⟩ := Outcome.dispatched.inj (dispatched.symm.trans outcome)
      refine ⟨acquired, unused, ?_⟩
      rw [contents, Function.update_self]

theorem handOver_effect (hp : pool.Consistent) (sink : Sink σ) (kind : EventKind)
    (payload : List UInt8) (s : σ) :
    Effect sink payload pool s (handOver sink kind payload pool s) := by
  unfold handOver
  by_cases large : payload.length > pool.size
  · rw [if_pos large]
    exact .unheld (.inr ⟨_, rfl⟩) rfl (.inl rfl)
  · rw [if_neg large]
    rcases hp.acquire_cases with exhausted | ⟨h, taken, acquired, ht, size, unused, contents⟩
    · rw [exhausted]
      exact .unheld (.inr ⟨_, rfl⟩) rfl (.inl rfl)
    · have live : taken.contents h ≠ none := by
        rw [contents, Function.update_self]
        exact Option.some_ne_none _
      obtain ⟨filled, written, hf, contents'⟩ :=
        ht.write_of_live live (Nat.le_of_not_lt (size ▸ large))
      rw [contents, Function.update_idem] at contents'
      rw [acquired]
      simp only [written]
      rcases offered : sink.offer s (Event.lending kind h payload.length) with ⟨fault | ⟨⟩, s'⟩
      · have live' : filled.contents h ≠ none := by
          rw [contents', Function.update_self]
          exact Option.some_ne_none _
        obtain ⟨left, released, -, contents''⟩ := hf.release_of_live live'
        rw [contents', Function.update_idem] at contents''
        rw [← unused, Function.update_eq_self] at contents''
        refine .unheld (.inr ⟨fault, rfl⟩) ?_ (.inr ⟨_, _, offered⟩)
        simp only [released, contents'']
      · exact .held rfl ⟨taken, acquired⟩ unused contents' offered

/-- Dispatching a message on a consistent pool has one of these effects. -/
theorem dispatch_effect (hp : pool.Consistent) (sink : Sink σ) (routes : List Route)
    (topic : String) (payload : List UInt8) (s : σ) :
    Effect sink payload pool s (dispatch sink routes topic payload pool s) := by
  unfold dispatch
  split
  · exact .unheld (.inr ⟨_, rfl⟩) rfl (.inl rfl)
  · exact .unheld (.inl rfl) rfl (.inl rfl)
  · next kind _ _ =>
      cases handOver_effect hp sink kind payload s with
      | unheld outcome contents refused => exact .unheld outcome contents refused
      | held outcome acquired unused contents accepted =>
          exact .held outcome acquired unused contents accepted

end Intake

/-- The engine's queue accepts an event behind all others, or refuses it and
stays as it was. -/
theorem Sink.queue_offer_cases (queue : Mailbox Event) (event : Event) :
    (Sink.queue.offer queue event =
        (.ok (), { queue with items := queue.items ++ [event] }) ∧ queue.closed = false) ∨
      ∃ fault, Sink.queue.offer queue event = (.error fault, queue) := by
  unfold Sink.queue
  dsimp only
  rcases Bool.eq_false_or_eq_true queue.closed with closed | opened
  · exact .inr ⟨.queueClosed, by rw [Mailbox.post_of_closed closed]⟩
  · rcases Bool.eq_false_or_eq_true queue.ended with ended | awaited
    · exact .inr ⟨.queueClosed, by rw [Mailbox.post_of_ended ended]⟩
    · rcases Nat.lt_or_ge queue.items.length queue.capacity with room | full
      · exact .inl ⟨by rw [Mailbox.post_of_lt opened awaited room], opened⟩
      · exact .inr ⟨.queueFull, by rw [Mailbox.post_of_le opened awaited full]⟩

/-- An open queue accepts an event if it has a place for it. -/
theorem Sink.queue_offer_of_open {queue : Mailbox Event} (opened : queue.closed = false)
    (awaited : queue.ended = false) (event : Event) :
    queue.items.length < queue.capacity ∧
        Sink.queue.offer queue event = (.ok (), { queue with items := queue.items ++ [event] }) ∨
      queue.capacity ≤ queue.items.length ∧
        Sink.queue.offer queue event = (.error .queueFull, queue) := by
  obtain vacant | full := Nat.lt_or_ge queue.items.length queue.capacity
  · refine .inl ⟨vacant, ?_⟩
    simp only [Sink.queue, Mailbox.post_of_lt opened awaited vacant]
  · refine .inr ⟨full, ?_⟩
    simp only [Sink.queue, Mailbox.post_of_le opened awaited full]

end UpdateBridge
