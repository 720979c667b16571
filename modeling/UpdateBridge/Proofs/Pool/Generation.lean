import UpdateBridge.Proofs.Pool.Contents

/-!
# Generations tell handles apart

While no slot comes back 2^32 times, the generation of a buffer is the number
of times it came back. So a handle that was given back is behind its buffer for
good (`Spent`), a live handle is level with it, and a handle about to be issued
is neither live nor spent. That is all that freshness rests on: nothing records
which handles were issued.

`returned` reads off the answers of a run which handles were given back, and
`issued` which handles were handed out. The bound on a run is about `returned`
alone, so releases that fail do not count.
-/

namespace UpdateBridge

namespace Pool

variable {p q : Pool} {g h : Handle} {b : Buffer} {back : List Handle}
variable {operation : Operation} {answer : Answer}

/-- The handle that an operation gave back, by its answer. -/
def returnedBy : Operation → Answer → List Handle
  | .release h, .released (.ok ()) => [h]
  | _, _ => []

/-- The handle that an answer hands out. -/
def issuedBy : Answer → List Handle
  | .acquired (.ok h) => [h]
  | _ => []

/-- The handles that operations gave back, in order, by their answers. -/
def returned (operations : List Operation) (answers : List Answer) : List Handle :=
  (List.zipWith returnedBy operations answers).flatten

/-- The handles that answers hand out, in order. -/
def issued (answers : List Answer) : List Handle :=
  answers.flatMap issuedBy

/-- How many of the handles are on that slot. -/
def timesOn (slot : Nat) (handles : List Handle) : Nat :=
  (handles.map Handle.slot).count slot

/-- No slot came back so often that a generation could return. -/
def WithinGenerations (back : List Handle) : Prop :=
  ∀ slot, timesOn slot back < UInt32.size

/-- The slot of the handle came back more often than the handle's generation
says. -/
def Spent (back : List Handle) (h : Handle) : Prop :=
  h.generation.toNat < timesOn h.slot back

/-- A consistent pool whose generations count how often each slot came back. -/
structure Aged (p : Pool) (back : List Handle) : Prop where
  consistent : p.Consistent
  generation_eq : ∀ {slot : Nat} {b : Buffer}, p.buffers[slot]? = some b →
    b.generation.toNat = timesOn slot back

@[simp] theorem returned_nil (answers : List Answer) : returned [] answers = [] := rfl

@[simp] theorem returned_cons (operation : Operation) (operations : List Operation)
    (answer : Answer) (answers : List Answer) :
    returned (operation :: operations) (answer :: answers) =
      returnedBy operation answer ++ returned operations answers := rfl

theorem returned_release (hp : p.Consistent) (live : p.contents h ≠ none) :
    returned [.release h] (p.run [.release h]).1 = [h] := by
  obtain ⟨q, released, -⟩ := hp.release_of_live live
  simp [apply, released, returnedBy]

@[simp] theorem issued_nil : issued [] = [] := rfl

@[simp] theorem issued_cons (answer : Answer) (answers : List Answer) :
    issued (answer :: answers) = issuedBy answer ++ issued answers := rfl

theorem nodup_issuedBy (answer : Answer) : (issuedBy answer).Nodup := by
  unfold issuedBy
  split <;> simp

theorem nodup_returnedBy (operation : Operation) (answer : Answer) :
    (returnedBy operation answer).Nodup := by
  unfold returnedBy
  split <;> simp

@[simp] theorem timesOn_append (slot : Nat) (first second : List Handle) :
    timesOn slot (first ++ second) = timesOn slot first + timesOn slot second := by
  rw [timesOn, List.map_append, List.count_append, timesOn, timesOn]

@[simp] theorem timesOn_singleton_self (h : Handle) : timesOn h.slot [h] = 1 := by
  simp [timesOn]

theorem timesOn_singleton_of_ne {slot : Nat} (other : slot ≠ h.slot) : timesOn slot [h] = 0 := by
  simp [timesOn, Ne.symm other]

/-- A run that gives back fewer than 2^32 handles in all is within bounds. -/
theorem withinGenerations_of_length_lt (few : back.length < UInt32.size) :
    WithinGenerations back := by
  intro slot
  have most := List.count_le_length (a := slot) (l := back.map Handle.slot)
  rw [List.length_map] at most
  exact Nat.lt_of_le_of_lt most few

theorem withinGenerations_of_append {first second : List Handle}
    (bounded : WithinGenerations (first ++ second)) : WithinGenerations first := by
  intro slot
  have both := bounded slot
  rw [timesOn_append] at both
  omega

/-- What is spent stays spent. -/
theorem Spent.append (spent : Spent back h) (more : List Handle) : Spent (back ++ more) h := by
  rw [Spent, timesOn_append]
  exact Nat.lt_add_right _ spent

theorem aged_create (capacity size : Nat) : (create capacity size).Aged [] where
  consistent := consistent_create capacity size
  generation_eq found := by
    obtain ⟨-, rfl⟩ := List.mem_replicate.mp (List.mem_of_getElem? found)
    rfl

/-- Replacing a buffer by one of its generation keeps the generation of every
slot. -/
theorem generation_of_set {buffers : List Buffer} {slot other : Nat} {old : Buffer}
    (found : buffers[slot]? = some old) (new : Buffer) (kept : new.generation = old.generation)
    (now : (buffers.set slot new)[other]? = some b) :
    ∃ b', buffers[other]? = some b' ∧ b'.generation = b.generation := by
  rw [getElem?_set_of_found found] at now
  split at now
  next same =>
    obtain rfl := Option.some.inj now
    exact ⟨old, by rw [same, found], kept.symm⟩
  next => exact ⟨b, now, rfl⟩

namespace Aged

/-- A live handle is level with its buffer. -/
theorem generation_of_live (hp : p.Aged back) (live : p.contents h ≠ none) :
    h.generation.toNat = timesOn h.slot back := by
  obtain ⟨b, held⟩ := contents_ne_none_iff.mp live
  obtain ⟨found, -, generation⟩ := held?_iff.mp held
  rw [← generation, hp.generation_eq found]

theorem contents_of_spent (hp : p.Aged back) (spent : Spent back h) : p.contents h = none := by
  by_contra live
  exact absurd (hp.generation_of_live live) (Nat.ne_of_lt spent)

/-- A live handle that is given back is spent. -/
theorem spent_of_released (hp : p.Aged back) (live : p.contents h ≠ none) :
    Spent (back ++ [h]) h := by
  rw [Spent, timesOn_append, timesOn_singleton_self, hp.generation_of_live live]
  exact Nat.lt_succ_self _

/-- A handle about to be issued was not given back before. -/
theorem not_spent_of_found (hp : p.Aged back) {slot : Nat} (found : p.buffers[slot]? = some b) :
    ¬Spent back ⟨slot, b.generation⟩ := by
  rw [Spent, hp.generation_eq found]
  exact Nat.lt_irrefl _

theorem not_spent_of_acquire (hp : p.Aged back) (acquired : p.acquire = (.ok h, q)) :
    ¬Spent back h := by
  cases top : p.free with
  | nil =>
      rw [acquire_of_free_eq_nil top] at acquired
      cases acquired
  | cons slot free =>
      obtain ⟨b, found, -⟩ := hp.consistent.buffer_of_free top
      rw [acquire_of_free top found] at acquired
      cases acquired
      exact hp.not_spent_of_found found

/-- Generations keep counting through a change. -/
theorem change (hp : p.Aged back) (step : Change p operation answer q)
    (bounded : WithinGenerations (back ++ returnedBy operation answer)) :
    q.Aged (back ++ returnedBy operation answer) where
  consistent := step.consistent hp.consistent
  generation_eq {slot b} found := by
    cases step with
    | acquired top found' untaken =>
        change b.generation.toNat = timesOn slot (back ++ [])
        obtain ⟨b', was, kept⟩ := generation_of_set found' (Buffer.take _) rfl found
        rw [List.append_nil, ← kept]
        exact hp.generation_eq was
    | @written h payload b' fits held =>
        change b.generation.toNat = timesOn slot (back ++ [])
        obtain ⟨b', was, kept⟩ :=
          generation_of_set (getElem?_of_held held) (b'.write payload) rfl found
        rw [List.append_nil, ← kept]
        exact hp.generation_eq was
    | @released h b' held =>
        change WithinGenerations (back ++ [h]) at bounded
        change b.generation.toNat = timesOn slot (back ++ [h])
        have found' := getElem?_of_held held
        rw [timesOn_append]
        rw [buffers_takingBack, getElem?_set_of_found found'] at found
        split at found
        next same =>
          have room := bounded h.slot
          rw [timesOn_append, timesOn_singleton_self, ← hp.generation_eq found'] at room
          obtain rfl := Option.some.inj found
          rw [same, timesOn_singleton_self, ← hp.generation_eq found']
          exact Nat.mod_eq_of_lt room
        next other =>
          rw [timesOn_singleton_of_ne other, Nat.add_zero]
          exact hp.generation_eq found
    | _ =>
        change b.generation.toNat = timesOn slot (back ++ [])
        rw [List.append_nil]
        exact hp.generation_eq found

/-- Generations keep counting through a run. -/
theorem run (hp : p.Aged back) (operations : List Operation)
    (bounded : WithinGenerations (back ++ returned operations (p.run operations).1)) :
    (p.run operations).2.Aged (back ++ returned operations (p.run operations).1) := by
  induction operations generalizing p back with
  | nil => simpa using hp
  | cons operation operations ih =>
      rw [run_cons, returned_cons, ← List.append_assoc] at bounded ⊢
      have step := hp.consistent.change operation
      exact ih (hp.change step (withinGenerations_of_append bounded)) bounded

end Aged

end Pool

end UpdateBridge
