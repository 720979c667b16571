import UpdateBridge.Proofs.Pool.Atomic
import UpdateBridge.Proofs.Pool.Generation

/-!
# Nested use leaves the pool as it was

A word says how buffers are used when the one taken last is always given back
first: a step takes a buffer, writes through one of the handles still held, or
gives back the handle taken last. Which handles these are only the pool can say;
`spelled` gives the operations that a word comes to. A word is `balanced` if it
gives back what it takes and never holds more than there is room for, which is
a matter of the word alone.

In the middle of a word the slots that are held, the last one first, are what is
missing on the stack, and the generations have grown by what came back
(`Nested`). Slots that were in use before are as they were. When nothing is held
any more the stack is whole again.
-/

namespace UpdateBridge

/-- A step of nested use. -/
inductive Pool.Step where
  | acquire
  /-- Write through the handle after which so many others were taken that are
  still held. -/
  | write (above : Nat) (payload : List UInt8)
  /-- Give back the handle that was taken last. -/
  | release
  deriving DecidableEq, Repr, Inhabited

namespace Pool

variable {start p q : Pool} {h : Handle} {held back : List Handle} {room slot : Nat}
variable {word : List Step}

/-- Whether a word that begins with so many handles held ends with none and
never holds more than there is room for. -/
def balanced (room : Nat) : Nat → List Step → Bool
  | held, [] => held == 0
  | held, .acquire :: word => decide (held < room) && balanced room (held + 1) word
  | held, .write above _ :: word => decide (above < held) && balanced room held word
  | held + 1, .release :: word => balanced room held word
  | 0, .release :: _ => false

/-- The operation that a step comes to when these handles are held, the last one
taken first. -/
def Step.operation? (held : List Handle) : Step → Option Operation
  | .acquire => some .acquire
  | .write above payload => held[above]?.map fun h => .write h payload
  | .release => held.head?.map .release

/-- The handles held after a step that was answered so. -/
def Step.heldAfter (held : List Handle) (answer : Answer) : Step → List Handle
  | .acquire => issuedBy answer ++ held
  | .write .. => held
  | .release => held.tail

/-- The operations that a word comes to, up to a step that needs a handle where
none is held. -/
def spelled (p : Pool) (held : List Handle) : List Step → List Operation
  | [] => []
  | step :: word =>
    match step.operation? held with
    | none => []
    | some operation =>
      operation :: (p.apply operation).2.spelled (step.heldAfter held (p.apply operation).1) word

section

variable {step : Step} {operation : Operation} {answer : Answer}

theorem spelled_cons (comes : step.operation? held = some operation)
    (applied : p.apply operation = (answer, q)) (word : List Step) :
    p.spelled held (step :: word) =
      operation :: q.spelled (step.heldAfter held answer) word := by
  simp only [spelled, comes, applied]

theorem run_spelled_cons (step : Step) (comes : step.operation? held = some operation)
    (applied : p.apply operation = (answer, q)) (word : List Step) :
    p.run (p.spelled held (step :: word)) =
      (answer :: (q.run (q.spelled (step.heldAfter held answer) word)).1,
        (q.run (q.spelled (step.heldAfter held answer) word)).2) := by
  rw [spelled_cons comes applied, run_cons, applied]

end

/-- Take a buffer, write into it and give it back, once with each payload. -/
def rounds (payloads : List (List UInt8)) : List Step :=
  payloads.flatMap fun payload => [.acquire, .write 0 payload, .release]

theorem balanced_rounds (payloads : List (List UInt8)) :
    balanced (room + 1) 0 (rounds payloads) = true := by
  induction payloads with
  | nil => rfl
  | cons payload payloads ih => simpa [rounds, balanced] using ih

/-- The generation of the buffer in the slot. -/
def generation? (p : Pool) (slot : Nat) : Option UInt32 :=
  p.buffers[slot]?.map Buffer.generation

theorem generation?_set {old new : Buffer} (found : p.buffers[slot]? = some old)
    (replaced : q.buffers = p.buffers.set slot new) (other : Nat) :
    q.generation? other = if other = slot then some new.generation else p.generation? other := by
  rw [generation?, replaced, getElem?_set_of_found found]
  split <;> rfl

/-- A buffer that is taken or written keeps its generation. -/
theorem generation?_set_of_eq {old new : Buffer} (found : p.buffers[slot]? = some old)
    (replaced : q.buffers = p.buffers.set slot new) (same : new.generation = old.generation)
    (other : Nat) : q.generation? other = p.generation? other := by
  rw [generation?_set found replaced]
  split
  · next equal => rw [equal, generation?, found, Option.map_some, same]
  · rfl

theorem timesOn_cons (slot : Nat) (h : Handle) (handles : List Handle) :
    timesOn slot (h :: handles) = timesOn slot [h] + timesOn slot handles :=
  timesOn_append slot [h] handles

/-- The pool in the middle of a word, with the handles that are held, the last
one taken first, and those that came back. -/
structure Nested (start p : Pool) (held back : List Handle) : Prop where
  consistent : p.Consistent
  size_eq : p.size = start.size
  free_eq : start.free = (held.map Handle.slot).reverse ++ p.free
  live : ∀ h ∈ held, p.contents h ≠ none
  frame : ∀ slot ∉ start.free, p.buffers[slot]? = start.buffers[slot]?
  generation : ∀ slot, p.generation? slot =
    (start.generation? slot).map (· + UInt32.ofNat (timesOn slot back))

theorem nested_start (consistent : start.Consistent) : Nested start start [] [] where
  consistent
  size_eq := rfl
  free_eq := rfl
  live _ member := absurd member List.not_mem_nil
  frame _ _ := rfl
  generation slot := by
    have nothing : (· + UInt32.ofNat (timesOn slot [])) = (id : UInt32 → UInt32) :=
      funext UInt32.add_zero
    rw [nothing, Option.map_id, id]

namespace Nested

theorem mem_free (hp : Nested start p held back) (member : h ∈ held) : h.slot ∈ start.free := by
  rw [hp.free_eq]
  exact List.mem_append_left _ (List.mem_reverse.mpr (List.mem_map_of_mem member))

/-- Only slots that were free at the start are touched. -/
theorem frame_set {old new : Buffer} (hp : Nested start p held back) (free : slot ∈ start.free)
    (found : p.buffers[slot]? = some old) (other : Nat) (kept : other ∉ start.free) :
    (p.buffers.set slot new)[other]? = start.buffers[other]? := by
  have apart : other ≠ slot := fun equal => kept (equal ▸ free)
  rw [getElem?_set_of_found found, if_neg apart]
  exact hp.frame other kept

/-- As long as there is room a buffer can be taken. -/
theorem acquire (hp : Nested start p held back) (room : held.length < start.freeCount) :
    ∃ h q, p.apply .acquire = (.acquired (.ok h), q) ∧ Nested start q (h :: held) back := by
  have count := congrArg List.length hp.free_eq
  simp only [List.length_append, List.length_reverse, List.length_map] at count
  cases top : p.free with
  | nil =>
      rw [top, List.length_nil] at count
      exact absurd room (Nat.not_lt.mpr (Nat.le_of_eq count))
  | cons slot free =>
      obtain ⟨b, found, untaken⟩ := hp.consistent.buffer_of_free top
      have step : Change p .acquire (.acquired (.ok ⟨slot, b.generation⟩)) _ :=
        .acquired top found untaken
      have member : slot ∈ start.free := by
        rw [hp.free_eq, top]
        exact List.mem_append_right _ List.mem_cons_self
      refine ⟨⟨slot, b.generation⟩, p.handingOut slot b free,
        by rw [apply, acquire_of_free top found], ?_⟩
      exact {
        consistent := step.consistent hp.consistent
        size_eq := hp.size_eq
        free_eq := by simpa [top] using hp.free_eq
        live := by
          intro g among
          rw [contents_handingOut found untaken, Function.update_apply]
          split
          · exact Option.some_ne_none _
          · next other => exact hp.live g ((List.mem_cons.mp among).resolve_left other)
        frame := hp.frame_set member found
        generation := fun other =>
          (generation?_set_of_eq found (buffers_handingOut p slot b free) rfl other).trans
            (hp.generation other) }

/-- Writing through a handle that is held fails only for the size of the payload. -/
theorem write (hp : Nested start p held back) (member : h ∈ held) (payload : List UInt8) :
    ∃ answer q, p.apply (.write h payload) = (answer, q) ∧ issuedBy answer = [] ∧
      (answer.fault? ≠ none → start.size < payload.length) ∧ Nested start q held back := by
  obtain large | fits := Nat.lt_or_ge p.size payload.length
  · refine ⟨_, p, by rw [apply, write_of_size_lt large], rfl, fun _ => ?_, hp⟩
    exact hp.size_eq ▸ large
  · obtain ⟨b, reached⟩ := contents_ne_none_iff.mp (hp.live h member)
    have found := getElem?_of_held reached
    have step : Change p (.write h payload) _ _ := .written fits reached
    refine ⟨.length (.ok payload.length), p.setBuffer h.slot (b.write payload),
      by rw [apply, write_of_held fits reached], rfl, fun failed => absurd rfl failed, ?_⟩
    exact {
      consistent := step.consistent hp.consistent
      size_eq := hp.size_eq
      free_eq := hp.free_eq
      live := by
        intro g among
        rw [contents_written reached, Function.update_apply]
        split
        · exact Option.some_ne_none _
        · exact hp.live g among
      frame := hp.frame_set (hp.mem_free member) found
      generation := fun other =>
        (generation?_set_of_eq (q := p.setBuffer h.slot (b.write payload)) found rfl rfl
          other).trans (hp.generation other) }

/-- The handle that was taken last can be given back, and its slot is then where
it was on the stack. -/
theorem release (hp : Nested start p (h :: held) back) (distinct : start.free.Nodup) :
    ∃ q, p.apply (.release h) = (.released (.ok ()), q) ∧ Nested start q held (back ++ [h]) := by
  obtain ⟨b, reached⟩ := contents_ne_none_iff.mp (hp.live h List.mem_cons_self)
  have found := getElem?_of_held reached
  have step : Change p (.release h) _ _ := .released reached
  -- No other handle that is held has its slot, since the stack holds no slot twice.
  have once : h.slot ∉ held.map Handle.slot := by
    rw [hp.free_eq] at distinct
    have apart := distinct.of_append_left
    rw [List.nodup_reverse, List.map_cons, List.nodup_cons] at apart
    exact apart.1
  refine ⟨p.takingBack h.slot b, by rw [apply, hp.consistent.release_of_held reached], ?_⟩
  exact {
    consistent := step.consistent hp.consistent
    size_eq := hp.size_eq
    free_eq := by simpa using hp.free_eq
    live := by
      intro g among
      have other : g ≠ h := fun equal => once (equal ▸ List.mem_map_of_mem among)
      rw [contents_takingBack reached, Function.update_of_ne other]
      exact hp.live g (List.mem_cons_of_mem _ among)
    frame := hp.frame_set (hp.mem_free List.mem_cons_self) found
    generation := by
      intro other
      have before := hp.generation other
      rw [generation?_set found (buffers_takingBack p h.slot b), timesOn_append]
      split
      · next same =>
          subst same
          rw [generation?, found, Option.map_some] at before
          obtain ⟨g, began, grown⟩ := Option.map_eq_some_iff.mp before.symm
          rw [began, Option.map_some, timesOn_singleton_self, UInt32.ofNat_add,
            ← UInt32.add_assoc, grown]
          rfl
      · next apart => rw [before, timesOn_singleton_of_ne apart, Nat.add_zero] }

end Nested

/-- Done to its end, the word comes to one operation for each step, all that it
takes is given, all that it gives back is accepted, and nothing is held any
more. -/
structure Unwinds (start p : Pool) (held back : List Handle) (word : List Step) : Prop where
  length : (p.spelled held word).length = word.length
  faults : ∀ entry ∈ (p.spelled held word).zip (p.run (p.spelled held word)).1,
    entry.2.fault? ≠ none → ∃ h payload, entry.1 = .write h payload ∧ start.size < payload.length
  nested : ∃ later, Nested start (p.run (p.spelled held word)).2 [] (back ++ later) ∧
    ∀ slot, timesOn slot later =
      timesOn slot held + timesOn slot (issued (p.run (p.spelled held word)).1)

/-- What gives back `given` at the first step and unwinds from there on unwinds. -/
theorem Unwinds.cons (step : Step) {operation : Operation} {answer : Answer} {given : List Handle}
    (comes : step.operation? held = some operation) (applied : p.apply operation = (answer, q))
    (later : Unwinds start q (step.heldAfter held answer) (back ++ given) word)
    (fault : answer.fault? ≠ none →
      ∃ h payload, operation = .write h payload ∧ start.size < payload.length)
    (count : ∀ slot, timesOn slot given + timesOn slot (step.heldAfter held answer) =
      timesOn slot held + timesOn slot (issuedBy answer)) :
    Unwinds start p held back (step :: word) := by
  have spelled := spelled_cons comes applied word
  have ran := run_spelled_cons step comes applied word
  obtain ⟨others, nested, total⟩ := later.nested
  refine ⟨?_, ?_, given ++ others, ?_, fun slot => ?_⟩
  · rw [spelled, List.length_cons, later.length, List.length_cons]
  · rw [ran, spelled, List.zip_cons_cons]
    exact List.forall_mem_cons.mpr ⟨fault, later.faults⟩
  · rw [ran, ← List.append_assoc]
    exact nested
  · have first := count slot
    rw [ran, issued_cons, timesOn_append, timesOn_append, total]
    omega

/-- A balanced word unwinds. -/
theorem Nested.run (hp : Nested start p held back) (distinct : start.free.Nodup)
    (nested : balanced start.freeCount held.length word = true) :
    Unwinds start p held back word := by
  induction word generalizing p held back with
  | nil =>
      obtain rfl : held = [] := by simpa [balanced] using nested
      refine ⟨rfl, fun entry member => absurd member List.not_mem_nil, [], ?_, fun _ => rfl⟩
      rwa [List.append_nil]
  | cons step word ih =>
      cases step with
      | acquire =>
          simp only [balanced, Bool.and_eq_true, decide_eq_true_eq] at nested
          obtain ⟨h, q, acquired, hq⟩ := hp.acquire nested.1
          rw [← List.append_nil back] at hq
          refine Unwinds.cons .acquire rfl acquired (ih hq nested.2)
            (fun failed => absurd rfl failed) fun slot => ?_
          show timesOn slot [] + timesOn slot (h :: held) = timesOn slot held + timesOn slot [h]
          rw [timesOn_cons, Nat.add_comm (timesOn slot held)]
          exact Nat.zero_add _
      | write above payload =>
          simp only [balanced, Bool.and_eq_true, decide_eq_true_eq] at nested
          obtain ⟨answer, q, written, nothing, large, hq⟩ :=
            hp.write (List.getElem_mem nested.1 : held[above] ∈ held) payload
          rw [← List.append_nil back] at hq
          refine Unwinds.cons (.write above payload) ?_ written (ih hq nested.2)
            (fun failed => ⟨_, _, rfl, large failed⟩) fun slot => ?_
          · rw [Step.operation?, List.getElem?_eq_getElem nested.1, Option.map_some]
          · rw [nothing]
            exact Nat.add_comm _ _
      | release =>
          cases held with
          | nil => cases nested
          | cons h held =>
              obtain ⟨q, released, hq⟩ := hp.release distinct
              refine Unwinds.cons .release rfl released (ih hq nested)
                (fun failed => absurd rfl failed) fun slot => ?_
              exact (timesOn_cons slot h held).symm

/-- Any number of rounds uses the slot that is next, with one generation after the
other. -/
theorem Consistent.issued_rounds (hp : p.Consistent) {free : List Nat} {b : Buffer}
    (top : p.free = slot :: free) (found : p.buffers[slot]? = some b)
    (payloads : List (List UInt8)) :
    issued (p.run (p.spelled [] (rounds payloads))).1 =
      (List.range payloads.length).map fun n => ⟨slot, b.generation + UInt32.ofNat n⟩ := by
  induction payloads generalizing p b with
  | nil => rfl
  | cons payload payloads ih =>
      have room : 0 < p.freeCount := by simp [freeCount, top]
      obtain ⟨h, taking, acquired, hTaking⟩ := (nested_start hp).acquire room
      obtain ⟨answer, writing, written, nothing, -, hWriting⟩ :=
        hTaking.write List.mem_cons_self payload
      obtain ⟨q, released, hq⟩ := hWriting.release hp.nodup_free
      obtain rfl : h = ⟨slot, b.generation⟩ := by
        rw [apply, acquire_of_free top found] at acquired
        cases acquired
        rfl
      have top' : q.free = slot :: free := hq.free_eq.symm.trans top
      have grown := hq.generation slot
      rw [generation?, generation?, found] at grown
      obtain ⟨b', found', generation⟩ := Option.map_eq_some_iff.mp grown
      rw [show rounds (payload :: payloads) =
          .acquire :: .write 0 payload :: .release :: rounds payloads from rfl,
        run_spelled_cons .acquire rfl acquired,
        run_spelled_cons (.write 0 payload) rfl written,
        run_spelled_cons .release rfl released, issued_cons, issued_cons, issued_cons,
        nothing]
      change [⟨slot, b.generation⟩] ++ issued (q.run (q.spelled [] (rounds payloads))).1 = _
      have next : b'.generation = b.generation + 1 := by
        have once : timesOn slot [⟨slot, b.generation⟩] = 1 :=
          timesOn_singleton_self ⟨slot, b.generation⟩
        rw [generation, List.nil_append, once]
        rfl
      have step : ∀ n, b'.generation + UInt32.ofNat n = b.generation + UInt32.ofNat (n + 1) := by
        intro n
        rw [next, Nat.add_comm, UInt32.ofNat_add, ← UInt32.add_assoc]
        rfl
      have first : b.generation + UInt32.ofNat 0 = b.generation := UInt32.add_zero _
      simp only [ih hq.consistent top' found', step, List.length_cons, List.range_succ_eq_map,
        List.map_cons, List.map_map, first]
      rfl

/-- From every pool that can come about and for every balanced word that holds no
more buffers at a time than are free: each step can be done, only writing too much
fails, and then the stack is as it was, the generation of every buffer has grown by
the number of times the word took it, and what was in use before is as it was. So
taking a buffer, writing into it and giving it back, again and again, uses one slot
with one generation after the other. -/
theorem nested_use_restores (capacity size : Nat) (before : List Operation) (word : List Step)
    (nested : balanced ((create capacity size).run before).2.freeCount 0 word = true) :
    let p := ((create capacity size).run before).2
    let operations := p.spelled [] word
    let q := (p.run operations).2
    operations.length = word.length ∧
    (∀ entry ∈ operations.zip (p.run operations).1, entry.2.fault? ≠ none →
      ∃ h payload, entry.1 = .write h payload ∧ size < payload.length) ∧
    q.free = p.free ∧
    (∀ slot b, p.buffers[slot]? = some b → ∃ b', q.buffers[slot]? = some b' ∧
      b'.generation =
        b.generation + UInt32.ofNat (timesOn slot (issued (p.run operations).1)) ∧
      (b.taken = true → b' = b)) ∧
    ∀ slot free b, p.free = slot :: free → p.buffers[slot]? = some b → ∀ payloads,
      balanced p.freeCount 0 (rounds payloads) = true ∧
        issued (p.run (p.spelled [] (rounds payloads))).1 =
          (List.range payloads.length).map fun n => ⟨slot, b.generation + UInt32.ofNat n⟩ := by
  intro p operations q
  have begun := consistent_create capacity size
  have hp : p.Consistent := begun.run before
  have same : p.size = size := begun.size_run before
  obtain ⟨length, faults, later, ended, count⟩ := (nested_start hp).run hp.nodup_free nested
  rw [List.nil_append] at ended
  refine ⟨length, ?_, ended.free_eq.symm, ?_, ?_⟩
  · rwa [same] at faults
  · intro slot b found
    have grown := ended.generation slot
    have counted : timesOn slot later = timesOn slot (issued (p.run operations).1) :=
      (count slot).trans (Nat.zero_add _)
    rw [counted, generation?, generation?, found] at grown
    obtain ⟨b', now, generation⟩ := Option.map_eq_some_iff.mp grown
    refine ⟨b', now, generation, fun taken => ?_⟩
    have kept : slot ∉ p.free := fun free => by
      obtain ⟨b'', found', untaken⟩ := (hp.mem_free_iff slot).mp free
      rw [found] at found'
      cases found'
      exact absurd taken (Bool.not_eq_true _ ▸ untaken)
    have still := ended.frame slot kept
    rw [now, found] at still
    exact Option.some.inj still
  · intro slot free b top found payloads
    have room : p.freeCount = free.length + 1 := congrArg List.length top
    exact ⟨room ▸ balanced_rounds payloads, hp.issued_rounds top found payloads⟩

/-- Slot 0 is in use beforehand. The word holds the other two at once, and takes the
inner one twice; what it writes last through the outer one is too long. -/
theorem nested_use_restores_two_deep :
    let before : List Operation := [.acquire, .write ⟨0, 0⟩ [9]]
    let word : List Step := [.acquire, .acquire, .write 1 [1, 2], .release, .acquire, .release,
      .write 0 [1, 2, 3, 4, 5], .release]
    let p := ((create 3 4).run before).2
    let operations := p.spelled [] word
    let q := (p.run operations).2
    balanced p.freeCount 0 word = true ∧
      operations = [.acquire, .acquire, .write ⟨1, 0⟩ [1, 2], .release ⟨2, 0⟩, .acquire,
        .release ⟨2, 1⟩, .write ⟨1, 0⟩ [1, 2, 3, 4, 5], .release ⟨1, 0⟩] ∧
      p.free = [1, 2] ∧ q.free = p.free ∧
      (∃ b, q.buffers[2]? = some b ∧ b.generation = 2) ∧ q.buffers[0]? = p.buffers[0]? := by
  intro before word
  -- The pools are written out, so that what the theorem says matches without evaluation.
  dsimp only
  have nested : balanced ((create 3 4).run before).2.freeCount 0 word = true := by decide +kernel
  obtain ⟨-, -, free, buffers, -⟩ := nested_use_restores 3 4 before word nested
  have inner : ((create 3 4).run before).2.buffers[2]? = some (.fresh 4) := by decide +kernel
  have outside : ((create 3 4).run before).2.buffers[0]? = some ⟨[9, 0, 0, 0], 1, true, 0⟩ := by
    decide +kernel
  obtain ⟨b, found, generation, -⟩ := buffers 2 _ inner
  obtain ⟨b', found', -, kept⟩ := buffers 0 _ outside
  refine ⟨nested, by decide +kernel, by decide +kernel, free, ⟨b, found, ?_⟩, ?_⟩
  · rw [generation]
    decide +kernel
  · rw [found', outside, kept rfl]

end Pool

end UpdateBridge
