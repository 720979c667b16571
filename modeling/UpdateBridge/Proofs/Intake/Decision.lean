import UpdateBridge.Proofs.Intake.Dispatch
import UpdateBridge.Proofs.Pool.Lifetime
import UpdateBridge.Proofs.Route.Search

/-!
# What becomes of one message

`Decision` lists what can become of a message: the first thing that stands in
its way, if there is one. Each case says what the pool and the sink are
afterwards, and which events the sink was offered. Its conditions exclude each
other, and `dispatch_decides` says that dispatching decides exactly so, in every
pool that can come about and for any table of routes and any sink.

A message that is not dispatched leaves no buffer taken and the stack as it was.
If the sink refuses its event, a trace remains in one free buffer, which has
been used and given back (`Buffer.withdrawn`); otherwise there is none at all.
-/

namespace UpdateBridge

/-- A free buffer after a payload was written into it that nobody took: one
generation on, and with other octets. -/
def Buffer.withdrawn (b : Buffer) (payload : List UInt8) : Buffer :=
  { b with
    octets := payload ++ b.octets.drop payload.length
    generation := b.generation + 1 }

namespace Pool

variable {p q : Pool} {b : Buffer} {slot : Nat} {free : List Nat} {payload : List UInt8}

/-- The pool after the buffer in `slot`, the top of the stack, was handed out
and written. -/
def lendingOut (p : Pool) (slot : Nat) (b : Buffer) (free : List Nat) (payload : List UInt8) :
    Pool :=
  { p.setBuffer slot (b.take.write payload) with free }

/-- The pool after the buffer in `slot`, the top of the stack, was handed out,
written and given back. -/
def withdrawing (p : Pool) (slot : Nat) (b : Buffer) (payload : List UInt8) : Pool :=
  p.setBuffer slot (b.withdrawn payload)

@[simp] theorem free_lendingOut (p : Pool) (slot : Nat) (b : Buffer) (free : List Nat)
    (payload : List UInt8) : (p.lendingOut slot b free payload).free = free := rfl

/-- A free buffer has no payload. -/
def Blank (p : Pool) : Prop :=
  ∀ b ∈ p.buffers, b.taken = false → b.length = 0

theorem blank_create (capacity size : Nat) : (create capacity size).Blank := by
  intro b member _
  obtain ⟨-, rfl⟩ := List.mem_replicate.mp member
  rfl

theorem Change.blank {operation : Operation} {answer : Answer}
    (change : Change p operation answer q) (hp : p.Blank) : q.Blank := by
  intro b member untaken
  cases change with
  | acquired top found =>
      obtain old | rfl := List.mem_or_eq_of_mem_set member
      · exact hp b old untaken
      · cases untaken
  | written fits held =>
      obtain old | rfl := List.mem_or_eq_of_mem_set member
      · exact hp b old untaken
      · exact absurd (held?_iff.mp held).2.1 (ne_true_of_eq_false untaken)
  | released held =>
      obtain old | rfl := List.mem_or_eq_of_mem_set member
      · exact hp b old untaken
      · rfl
  | _ => exact hp b member untaken

theorem Blank.run (blank : p.Blank) (hp : p.Consistent) (operations : List Operation) :
    (p.run operations).2.Blank :=
  (run_induction (fun _ change hp => change.blank hp) hp blank operations).2

theorem blank_run_create (capacity size : Nat) (operations : List Operation) :
    ((create capacity size).run operations).2.Blank :=
  (blank_create capacity size).run (consistent_create capacity size) operations

theorem held?_handingOut (found : p.buffers[slot]? = some b) (free : List Nat) :
    (p.handingOut slot b free).held? ⟨slot, b.generation⟩ = some b.take := by
  rw [held?_iff, buffers_handingOut, getElem?_set_of_found found, if_pos rfl]
  exact ⟨rfl, rfl, rfl⟩

/-- The buffer that is handed out next can be written. -/
theorem write_handingOut (found : p.buffers[slot]? = some b) (free : List Nat)
    (fits : payload.length ≤ p.size) :
    (p.handingOut slot b free).write ⟨slot, b.generation⟩ payload =
      (.ok payload.length, p.lendingOut slot b free payload) := by
  have room : payload.length ≤ (p.handingOut slot b free).size := fits
  rw [write_of_held room (held?_handingOut found free)]
  simp [handingOut, setBuffer, lendingOut]

theorem consistent_lendingOut (hp : p.Consistent) (top : p.free = slot :: free)
    (found : p.buffers[slot]? = some b) (untaken : b.taken = false)
    (fits : payload.length ≤ p.size) : (p.lendingOut slot b free payload).Consistent := by
  have taken : Change p .acquire _ (p.handingOut slot b free) := .acquired top found untaken
  have written := (taken.consistent hp).change (.write ⟨slot, b.generation⟩ payload)
  rw [apply, write_handingOut found free fits] at written
  exact written.consistent (taken.consistent hp)

/-- The buffer that was handed out and written can be given back. All that
remains of it is in the buffer itself. -/
theorem release_lendingOut (hp : p.Consistent) (blank : p.Blank) (top : p.free = slot :: free)
    (found : p.buffers[slot]? = some b) (fits : payload.length ≤ p.size) :
    (p.lendingOut slot b free payload).release ⟨slot, b.generation⟩ =
      (.ok (), p.withdrawing slot b payload) := by
  obtain ⟨b', found', untaken⟩ := hp.buffer_of_free top
  obtain rfl := Option.some.inj (found.symm.trans found')
  have empty : b.length = 0 := blank b (List.mem_of_getElem? found) untaken
  have held : (p.lendingOut slot b free payload).held? ⟨slot, b.generation⟩ =
      some (b.take.write payload) := by
    rw [held?_iff]
    refine ⟨?_, rfl, rfl⟩
    show (p.buffers.set slot _)[slot]? = _
    rw [getElem?_set_of_found found, if_pos rfl]
  have same : (b.take.write payload).giveBack = b.withdrawn payload := by
    simp [Buffer.take, Buffer.write, Buffer.giveBack, Buffer.withdrawn, untaken, empty]
  rw [(consistent_lendingOut hp top found untaken fits).release_of_held held]
  simp [takingBack, lendingOut, withdrawing, setBuffer, same, top]

end Pool

/-- The sink together with a record of the events that it was offered. -/
def Sink.watched {σ : Type} (sink : Sink σ) : Sink (σ × List Event) where
  offer s event := ((sink.offer s.1 event).1, (sink.offer s.1 event).2, s.2 ++ [event])
  notes := sink.notes

namespace Intake

variable {σ : Type} {sink : Sink σ} {routes : List Route} {topic : String} {payload : List UInt8}
variable {p q : Pool} {s t : σ} {outcome : Outcome} {offered : List Event}

/-- What becomes of a message: its outcome, and then the pool, the sink and the
events that the sink was offered. -/
inductive Decision (sink : Sink σ) (routes : List Route) (topic : String) (payload : List UInt8)
    (p : Pool) (s : σ) : Outcome → Pool → σ → List Event → Prop
  /-- The search for a route comes to something that cannot be compared. -/
  | unclassified (stuck : Route.Stuck topic routes) :
      Decision sink routes topic payload p s (.dropped (Topic.emptyFault topic)) p s []
  /-- No route takes the topic, or the first that does says so. -/
  | ignored (clear : ¬Route.Stuck topic routes)
      (unrouted : Route.PassedBy topic routes ∨ Route.Leads topic routes .ignored) :
      Decision sink routes topic payload p s .ignored p s []
  | tooLarge {kind : EventKind} (wants : Route.Wants topic routes kind)
      (large : p.size < payload.length) :
      Decision sink routes topic payload p s (.dropped (.tooLarge p.size payload.length)) p s []
  | exhausted {kind : EventKind} (wants : Route.Wants topic routes kind)
      (fits : payload.length ≤ p.size) (none : p.free = []) :
      Decision sink routes topic payload p s (.dropped (.exhausted p.capacity)) p s []
  | refused {kind : EventKind} {slot : Nat} {free : List Nat} {b : Buffer} {fault : Fault} {t : σ}
      (wants : Route.Wants topic routes kind) (fits : payload.length ≤ p.size)
      (top : p.free = slot :: free) (found : p.buffers[slot]? = some b)
      (refused : sink.offer s (.lending kind ⟨slot, b.generation⟩ payload.length) =
        (.error fault, t)) :
      Decision sink routes topic payload p s (.dropped fault) (p.withdrawing slot b payload) t
        [.lending kind ⟨slot, b.generation⟩ payload.length]
  | dispatched {kind : EventKind} {slot : Nat} {free : List Nat} {b : Buffer} {t : σ}
      (wants : Route.Wants topic routes kind) (fits : payload.length ≤ p.size)
      (top : p.free = slot :: free) (found : p.buffers[slot]? = some b)
      (accepted : sink.offer s (.lending kind ⟨slot, b.generation⟩ payload.length) =
        (.ok (), t)) :
      Decision sink routes topic payload p s
        (.dispatched kind ⟨slot, b.generation⟩ payload.length)
        (p.lendingOut slot b free payload) t
        [.lending kind ⟨slot, b.generation⟩ payload.length]

/-- One of the cases always applies. -/
theorem exists_decision (hp : p.Consistent) (sink : Sink σ) (routes : List Route) (topic : String)
    (payload : List UInt8) (s : σ) :
    ∃ outcome q t offered, Decision sink routes topic payload p s outcome q t offered := by
  by_cases stuck : Route.Stuck topic routes
  · exact ⟨_, _, _, _, .unclassified stuck⟩
  obtain passed | ⟨kind, leads⟩ := Route.passedBy_or_leads topic routes
  · exact ⟨_, _, _, _, .ignored stuck (.inl passed)⟩
  by_cases routed : kind = .ignored
  · subst routed
    exact ⟨_, _, _, _, .ignored stuck (.inr leads)⟩
  have wants : Route.Wants topic routes kind := ⟨stuck, leads, routed⟩
  obtain large | fits := Nat.lt_or_ge p.size payload.length
  · exact ⟨_, _, _, _, .tooLarge wants large⟩
  cases top : p.free with
  | nil => exact ⟨_, _, _, _, .exhausted wants fits top⟩
  | cons slot free =>
      obtain ⟨b, found, -⟩ := hp.buffer_of_free top
      rcases offered : sink.offer s (.lending kind ⟨slot, b.generation⟩ payload.length) with
        ⟨fault | ⟨⟩, t⟩
      · exact ⟨_, _, _, _, .refused wants fits top found offered⟩
      · exact ⟨_, _, _, _, .dispatched wants fits top found offered⟩

namespace Decision

/-- Dispatching does what the case says. -/
theorem dispatch (decision : Decision sink routes topic payload p s outcome q t offered)
    (hp : p.Consistent) (blank : p.Blank) :
    ∃ notes, Intake.dispatch sink routes topic payload p s = ⟨outcome, q, t, notes⟩ := by
  cases decision with
  | unclassified stuck =>
      rw [Intake.dispatch, Route.kindOf_of_stuck stuck]
      exact ⟨_, rfl⟩
  | ignored clear unrouted =>
      have found : Route.kindOf topic routes = .ok .ignored := by
        obtain passed | leads := unrouted
        · exact Route.kindOf_of_passedBy clear passed
        · exact Route.kindOf_of_leads clear leads
      rw [Intake.dispatch, found]
      exact ⟨_, rfl⟩
  | tooLarge wants large =>
      rw [dispatch_of_routed wants.kindOf wants.routed, handOver_of_large large]
      exact ⟨_, rfl⟩
  | exhausted wants fits none =>
      rw [dispatch_of_routed wants.kindOf wants.routed,
        handOver_of_exhausted fits (Pool.acquire_of_free_eq_nil none)]
      exact ⟨_, rfl⟩
  | refused wants fits top found refused =>
      rw [dispatch_of_routed wants.kindOf wants.routed,
        handOver_of_refused fits (Pool.acquire_of_free top found)
          (Pool.write_handingOut found _ fits) refused,
        Pool.release_lendingOut hp blank top found fits]
      exact ⟨_, rfl⟩
  | dispatched wants fits top found accepted =>
      rw [dispatch_of_routed wants.kindOf wants.routed,
        handOver_of_accepted fits (Pool.acquire_of_free top found)
          (Pool.write_handingOut found _ fits) accepted]
      exact ⟨_, rfl⟩

/-- Watching a sink changes no decision, and shows the events that it was
offered. -/
theorem watched (decision : Decision sink routes topic payload p s outcome q t offered)
    (before : List Event) :
    Decision sink.watched routes topic payload p (s, before) outcome q (t, before ++ offered)
      offered := by
  cases decision with
  | unclassified stuck =>
      rw [List.append_nil]
      exact .unclassified stuck
  | ignored clear unrouted =>
      rw [List.append_nil]
      exact .ignored clear unrouted
  | tooLarge wants large =>
      rw [List.append_nil]
      exact .tooLarge wants large
  | exhausted wants fits none =>
      rw [List.append_nil]
      exact .exhausted wants fits none
  | refused wants fits top found refused =>
      exact .refused wants fits top found (by simp [Sink.watched, refused])
  | dispatched wants fits top found accepted =>
      exact .dispatched wants fits top found (by simp [Sink.watched, accepted])

/-- What dispatching leaves, and what the sink was offered, is what the case says. -/
theorem decides (decision : Decision sink routes topic payload p s outcome q t offered)
    (hp : p.Consistent) (blank : p.Blank) :
    let d := Intake.dispatch sink routes topic payload p s
    d.outcome = outcome ∧ d.pool = q ∧ d.sink = t ∧
      (Intake.dispatch sink.watched routes topic payload p (s, [])).sink.2 = offered := by
  obtain ⟨notes, done⟩ := decision.dispatch hp blank
  obtain ⟨notes', watched⟩ := (decision.watched []).dispatch hp blank
  simp [done, watched]

/-- Only a message that is dispatched takes from the stack. -/
theorem free_eq (decision : Decision sink routes topic payload p s outcome q t offered)
    (undispatched : ∀ kind h length, outcome ≠ .dispatched kind h length) : q.free = p.free := by
  cases decision with
  | dispatched => exact absurd rfl (undispatched _ _ _)
  | _ => rfl

/-- What becomes of a message that the engine does not want, or that fits no
buffer. -/
theorem outcome_cases (decision : Decision sink routes topic payload p s outcome q t offered)
    (unwanted : ∀ kind, Route.Wants topic routes kind → p.size < payload.length) :
    outcome = .ignored ∨ outcome = .dropped (Topic.emptyFault topic) ∨
      outcome = .dropped (.tooLarge p.size payload.length) := by
  cases decision with
  | unclassified => exact .inr (.inl rfl)
  | ignored => exact .inl rfl
  | tooLarge => exact .inr (.inr rfl)
  | exhausted wants fits => exact absurd fits (Nat.not_le.mpr (unwanted _ wants))
  | refused wants fits => exact absurd fits (Nat.not_le.mpr (unwanted _ wants))
  | dispatched wants fits => exact absurd fits (Nat.not_le.mpr (unwanted _ wants))

/-- No live handle has the slot of the buffer that is handed out. -/
theorem slot_apart {kind : EventKind} {h : Handle} {length : Nat}
    (decision : Decision sink routes topic payload p s (.dispatched kind h length) q t offered)
    (hp : p.Consistent) (g : Handle) (live : p.contents g ≠ none) : g.slot ≠ h.slot := by
  cases decision with
  | dispatched wants fits top found accepted =>
      obtain ⟨b', found', untaken⟩ := hp.buffer_of_free top
      intro same
      exact live (Pool.contents_eq_none_iff.mpr
        (Pool.held?_eq_none_of_untaken found' untaken same))

end Decision

/-- A message that the engine does not want, or that fits no buffer, meets a fate
that depends neither on what else is in the buffers nor on the sink. -/
theorem outcome_of_unwanted {τ : Type} {sink' : Sink τ} {s' : τ}
    (unwanted : ∀ kind, Route.Wants topic routes kind → p.size < payload.length)
    (same : q.size = p.size) :
    (dispatch sink routes topic payload p s).outcome =
      (dispatch sink' routes topic payload q s').outcome := by
  cases found : Route.kindOf topic routes with
  | error fault => simp only [dispatch, found]
  | ok kind =>
      by_cases routed : kind = .ignored
      · simp only [dispatch, found, routed]
      · have large := unwanted kind (Route.wants_iff.mpr ⟨found, routed⟩)
        rw [dispatch_of_routed found routed, dispatch_of_routed found routed,
          handOver_of_large large, handOver_of_large (same ▸ large), same]

/-- What becomes of such a message has nothing to do with a queue that is full. -/
theorem ne_queueFull_of_unwanted (hp : p.Consistent) (blank : p.Blank) (sink : Sink σ) (s : σ)
    (unwanted : ∀ kind, Route.Wants topic routes kind → p.size < payload.length) :
    (dispatch sink routes topic payload p s).outcome ≠ .dropped .queueFull := by
  obtain ⟨outcome, q, t, offered, decision⟩ := exists_decision hp sink routes topic payload s
  rw [(decision.decides hp blank).1]
  obtain ignored | unclassified | large := decision.outcome_cases unwanted
  · rw [ignored]
    exact Outcome.noConfusion
  · simp [unclassified, Topic.emptyFault]
  · simp [large]

/-- Whatever was done to the pool before, dispatching a message decides it by
the first of the cases that applies, and offers the sink what that case says. A
message that is not dispatched changes neither the live handles with what they
reach nor the stack. One that is dispatched is lent through a handle that is not
live, has no live handle's slot and, unless a slot came back 2^32 times, was
never handed out before; its payload can be read through it. -/
theorem dispatch_decides (capacity size : Nat) (before : List Pool.Operation) (sink : Sink σ)
    (routes : List Route) (topic : String) (payload : List UInt8) (s : σ) :
    let history := (Pool.create capacity size).run before
    let p := history.2
    let d := dispatch sink routes topic payload p s
    let offers := (dispatch sink.watched routes topic payload p (s, [])).sink.2
    (p.capacity = capacity ∧ p.size = size) ∧
      (∀ outcome q t offered,
        Decision sink routes topic payload p s outcome q t offered ↔
          d.outcome = outcome ∧ d.pool = q ∧ d.sink = t ∧ offers = offered) ∧
      ((∀ kind h length, d.outcome ≠ .dispatched kind h length) →
        d.pool.contents = p.contents ∧ d.pool.free = p.free) ∧
      ∀ kind h length, d.outcome = .dispatched kind h length →
        (p.contents h = none ∧ ∀ g, p.contents g ≠ none → g.slot ≠ h.slot) ∧
          (Pool.WithinGenerations (Pool.returned before history.1) →
            h ∉ Pool.issued history.1) ∧
          d.pool.read h = .ok payload := by
  intro history p d offers
  have start := Pool.consistent_create capacity size
  have hp : p.Consistent := start.run before
  have blank : p.Blank := Pool.blank_run_create capacity size before
  obtain ⟨outcome, q, t, offered, decision⟩ := exists_decision hp sink routes topic payload s
  have decides := decision.decides hp blank
  change d.outcome = _ ∧ d.pool = _ ∧ d.sink = _ ∧ offers = _ at decides
  obtain ⟨sameOutcome, samePool, sameSink, sameOffers⟩ := decides
  have effect := dispatch_effect hp sink routes topic payload s
  refine ⟨⟨?_, start.size_run before⟩, ?_, ?_, ?_⟩
  · exact (start.capacity_run before).trans (Pool.capacity_create capacity size)
  · intro outcome' q' t' offered'
    constructor
    · intro other
      exact other.decides hp blank
    · rintro ⟨rfl, rfl, rfl, rfl⟩
      rw [sameOutcome, samePool, sameSink, sameOffers]
      exact decision
  · intro undispatched
    refine ⟨effect.contents_of_undispatched undispatched, ?_⟩
    rw [samePool]
    exact decision.free_eq (sameOutcome ▸ undispatched)
  · intro kind h length dispatched
    obtain rfl := sameOutcome.symm.trans dispatched
    obtain ⟨⟨held, acquired⟩, unused, reached⟩ := effect.of_dispatched dispatched
    refine ⟨⟨unused, decision.slot_apart hp⟩, ?_, Pool.read_of_contents reached⟩
    intro bounded
    exact Pool.notMem_issued_of_acquire bounded acquired unused

end Intake

end UpdateBridge
