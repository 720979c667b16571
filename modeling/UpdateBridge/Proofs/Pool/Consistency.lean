import Mathlib.Data.List.Nodup
import UpdateBridge.Pool.Operation

/-!
# The free stack agrees with the marks

A pool records twice which of its buffers are free: in the stack of free slots
and in the mark on each buffer. The operations trust one record or the other
and never compare them. `Consistent` says that the two agree and that every
payload lies inside its buffer. A new pool is consistent, and every operation
with any handle keeps it so.

`Change` lists, once for all invariants of pools, what an operation on a
consistent pool answers and leaves behind. There is no case for a slot without
a buffer on the stack, and none for a buffer that cannot go back onto it.
-/

namespace UpdateBridge

namespace Pool

variable {p q : Pool} {h : Handle} {b : Buffer}

/-- The two records of what is free agree, and payloads lie inside their
buffers. -/
structure Consistent (p : Pool) : Prop where
  nodup_free : p.free.Nodup
  mem_free_iff : ∀ slot, slot ∈ p.free ↔ ∃ b, p.buffers[slot]? = some b ∧ b.taken = false
  length_octets : ∀ b ∈ p.buffers, b.octets.length = p.size
  length_le : ∀ b ∈ p.buffers, b.length ≤ p.size

/-- The pool after the buffer in `slot`, the top of the stack, was handed out. -/
def handingOut (p : Pool) (slot : Nat) (b : Buffer) (free : List Nat) : Pool :=
  { p.setBuffer slot b.take with free }

/-- The pool after the buffer in `slot` came back to the top of the stack. -/
def takingBack (p : Pool) (slot : Nat) (b : Buffer) : Pool :=
  { p.setBuffer slot b.giveBack with free := slot :: p.free }

@[simp] theorem buffers_setBuffer (p : Pool) (slot : Nat) (b : Buffer) :
    (p.setBuffer slot b).buffers = p.buffers.set slot b := rfl

@[simp] theorem free_setBuffer (p : Pool) (slot : Nat) (b : Buffer) :
    (p.setBuffer slot b).free = p.free := rfl

@[simp] theorem size_setBuffer (p : Pool) (slot : Nat) (b : Buffer) :
    (p.setBuffer slot b).size = p.size := rfl

@[simp] theorem buffers_handingOut (p : Pool) (slot : Nat) (b : Buffer) (free : List Nat) :
    (p.handingOut slot b free).buffers = p.buffers.set slot b.take := rfl

@[simp] theorem free_handingOut (p : Pool) (slot : Nat) (b : Buffer) (free : List Nat) :
    (p.handingOut slot b free).free = free := rfl

@[simp] theorem size_handingOut (p : Pool) (slot : Nat) (b : Buffer) (free : List Nat) :
    (p.handingOut slot b free).size = p.size := rfl

@[simp] theorem capacity_handingOut (p : Pool) (slot : Nat) (b : Buffer) (free : List Nat) :
    (p.handingOut slot b free).capacity = p.capacity := by
  simp [capacity]

@[simp] theorem buffers_takingBack (p : Pool) (slot : Nat) (b : Buffer) :
    (p.takingBack slot b).buffers = p.buffers.set slot b.giveBack := rfl

@[simp] theorem free_takingBack (p : Pool) (slot : Nat) (b : Buffer) :
    (p.takingBack slot b).free = slot :: p.free := rfl

@[simp] theorem size_takingBack (p : Pool) (slot : Nat) (b : Buffer) :
    (p.takingBack slot b).size = p.size := rfl

@[simp] theorem capacity_takingBack (p : Pool) (slot : Nat) (b : Buffer) :
    (p.takingBack slot b).capacity = p.capacity := by
  simp [capacity]

/-- Replacing a buffer that is there changes what is found in its slot only. -/
theorem getElem?_set_of_found {buffers : List Buffer} {slot : Nat} {old : Buffer}
    (found : buffers[slot]? = some old) (new : Buffer) (other : Nat) :
    (buffers.set slot new)[other]? = if other = slot then some new else buffers[other]? := by
  have inside := (List.getElem?_eq_some_iff.mp found).1
  rw [List.getElem?_set]
  by_cases same : other = slot
  · subst same
    simp [inside]
  · simp [same, Ne.symm same]

/-- A handle is good for a buffer only in its own slot, taken, and of its
generation. -/
theorem held?_iff :
    p.held? h = some b ↔
      p.buffers[h.slot]? = some b ∧ b.taken = true ∧ b.generation = h.generation := by
  rw [held?_eq_some_iff, Buffer.heldBy_iff]

theorem getElem?_of_held (held : p.held? h = some b) : p.buffers[h.slot]? = some b :=
  (held?_iff.mp held).1

theorem acquire_of_free_eq_nil (none : p.free = []) :
    p.acquire = (.error (.exhausted p.capacity), p) := by
  simp only [acquire, none]

/-- The handle of the slot on top of the stack has the generation that its
buffer got when it last came back. -/
theorem acquire_of_free {slot : Nat} {free : List Nat} (top : p.free = slot :: free)
    (found : p.buffers[slot]? = some b) :
    p.acquire = (.ok ⟨slot, b.generation⟩, p.handingOut slot b free) := by
  simp only [acquire, top, found, handingOut]

theorem write_of_size_lt {payload : List UInt8} (large : p.size < payload.length) :
    p.write h payload = (.error (.tooLarge p.size payload.length), p) := by
  simp only [write, gt_iff_lt, large, if_true]

theorem write_of_not_held {payload : List UInt8} (fits : payload.length ≤ p.size)
    (stale : p.held? h = none) : p.write h payload = (.error (.staleHandle h.slot), p) := by
  simp only [write, gt_iff_lt, Nat.not_lt.mpr fits, if_false, stale]

theorem write_of_held {payload : List UInt8} (fits : payload.length ≤ p.size)
    (held : p.held? h = some b) :
    p.write h payload = (.ok payload.length, p.setBuffer h.slot (b.write payload)) := by
  simp only [write, gt_iff_lt, Nat.not_lt.mpr fits, if_false, held]

/-- What an operation on a consistent pool can answer and leave behind. -/
inductive Change (p : Pool) : Operation → Answer → Pool → Prop
  | exhausted (none : p.free = []) :
      Change p .acquire (.acquired (.error (.exhausted p.capacity))) p
  | acquired {slot : Nat} {free : List Nat} {b : Buffer} (top : p.free = slot :: free)
      (found : p.buffers[slot]? = some b) (untaken : b.taken = false) :
      Change p .acquire (.acquired (.ok ⟨slot, b.generation⟩)) (p.handingOut slot b free)
  | tooLarge {h : Handle} {payload : List UInt8} (large : p.size < payload.length) :
      Change p (.write h payload) (.length (.error (.tooLarge p.size payload.length))) p
  | unwritten {h : Handle} {payload : List UInt8} (fits : payload.length ≤ p.size)
      (stale : p.held? h = none) :
      Change p (.write h payload) (.length (.error (.staleHandle h.slot))) p
  | written {h : Handle} {payload : List UInt8} {b : Buffer} (fits : payload.length ≤ p.size)
      (held : p.held? h = some b) :
      Change p (.write h payload) (.length (.ok payload.length))
        (p.setBuffer h.slot (b.write payload))
  | read {h : Handle} : Change p (.read h) (.payload (p.read h)) p
  | measured {h : Handle} : Change p (.payloadLength h) (.length (p.payloadLength h)) p
  | copied {h : Handle} {out : List UInt8} :
      Change p (.copy h out) (.copied (p.copy h out).1 (p.copy h out).2) p
  | unreleased {h : Handle} (stale : p.held? h = none) :
      Change p (.release h) (.released (.error (.doubleRelease h.slot))) p
  | released {h : Handle} {b : Buffer} (held : p.held? h = some b) :
      Change p (.release h) (.released (.ok ())) (p.takingBack h.slot b)

theorem consistent_create (capacity size : Nat) : (create capacity size).Consistent where
  nodup_free := List.nodup_range
  mem_free_iff slot := by
    simp [create, Buffer.fresh, List.getElem?_replicate]
  length_octets b hb := by
    obtain ⟨-, rfl⟩ := List.mem_replicate.mp hb
    simp [Buffer.fresh, create]
  length_le b hb := by
    obtain ⟨-, rfl⟩ := List.mem_replicate.mp hb
    exact Nat.zero_le _

namespace Consistent

/-- Every slot on the stack has a buffer, which is not taken. -/
theorem buffer_of_free (hp : p.Consistent) {slot : Nat} {free : List Nat}
    (top : p.free = slot :: free) :
    ∃ b, p.buffers[slot]? = some b ∧ b.taken = false :=
  (hp.mem_free_iff slot).mp (by simp [top])

theorem free_lt (hp : p.Consistent) {slot : Nat} (free : slot ∈ p.free) : slot < p.capacity := by
  obtain ⟨b, found, -⟩ := (hp.mem_free_iff slot).mp free
  exact (List.getElem?_eq_some_iff.mp found).1

/-- A slot whose buffer is held is not on the stack. -/
theorem notMem_free_of_held (hp : p.Consistent) (held : p.held? h = some b) :
    h.slot ∉ p.free := by
  intro free
  obtain ⟨found, taken, -⟩ := held?_iff.mp held
  obtain ⟨b', found', untaken⟩ := (hp.mem_free_iff h.slot).mp free
  rw [found, Option.some.injEq] at found'
  rw [← found', taken] at untaken
  exact absurd untaken (by decide)

/-- The slots on the stack are those whose buffers are not taken. -/
theorem free_perm (hp : p.Consistent) :
    p.free.Perm ((p.buffers.zipIdx.filter fun entry => !entry.1.taken).map Prod.snd) := by
  have slots : ((p.buffers.zipIdx.filter fun entry => !entry.1.taken).map Prod.snd).Nodup := by
    apply List.Nodup.sublist (List.Sublist.map _ List.filter_sublist)
    rw [List.zipIdx_map_snd]
    exact List.nodup_range'
  rw [List.perm_ext_iff_of_nodup hp.nodup_free slots]
  intro slot
  rw [hp.mem_free_iff slot]
  simp [List.mem_zipIdx_iff_getElem?]

/-- Every buffer is counted as free or as taken, and none twice. -/
theorem freeCount_add_takenCount (hp : p.Consistent) :
    p.freeCount + p.takenCount = p.capacity := by
  have free : p.freeCount = p.buffers.countP fun b => !b.taken := by
    rw [freeCount, hp.free_perm.length_eq, List.length_map, ← List.countP_eq_length_filter]
    conv_rhs => rw [← List.zipIdx_map_fst 0 p.buffers, List.countP_map]
    rfl
  have split := List.length_eq_countP_add_countP Buffer.taken (l := p.buffers)
  have same : (fun b : Buffer => decide ¬b.taken = true) = fun b => !b.taken := by
    funext b
    cases b.taken <;> rfl
  rw [same] at split
  rw [free, takenCount, capacity, split, Nat.add_comm]

/-- While a buffer is held, the stack has room for its slot. -/
theorem room_of_held (hp : p.Consistent) (held : p.held? h = some b) :
    p.free.length < p.capacity := by
  obtain ⟨found, taken, -⟩ := held?_iff.mp held
  have counted : 0 < p.takenCount :=
    List.countP_pos_iff.mpr ⟨b, List.mem_of_getElem? found, taken⟩
  have total := hp.freeCount_add_takenCount
  rw [freeCount] at total
  omega

/-- A held buffer can always be given back. -/
theorem release_of_held (hp : p.Consistent) (held : p.held? h = some b) :
    p.release h = (.ok (), p.takingBack h.slot b) := by
  have room := hp.room_of_held held
  simp [release, held, room, takingBack]

/-- The cases of `Change` are all that an operation can do. -/
theorem change (hp : p.Consistent) (operation : Operation) :
    Change p operation (p.apply operation).1 (p.apply operation).2 := by
  cases operation with
  | acquire =>
      cases top : p.free with
      | nil =>
          rw [apply, acquire_of_free_eq_nil top]
          exact .exhausted top
      | cons slot free =>
          obtain ⟨b, found, untaken⟩ := hp.buffer_of_free top
          rw [apply, acquire_of_free top found]
          exact .acquired top found untaken
  | write h payload =>
      rcases Nat.lt_or_ge p.size payload.length with large | fits
      · rw [apply, write_of_size_lt large]
        exact .tooLarge large
      · cases held : p.held? h with
        | none =>
            rw [apply, write_of_not_held fits held]
            exact .unwritten fits held
        | some b =>
            rw [apply, write_of_held fits held]
            exact .written fits held
  | read h => exact .read
  | payloadLength h => exact .measured
  | copy h out => exact .copied
  | release h =>
      cases held : p.held? h with
      | none =>
          rw [apply, release_of_not_held held]
          exact .unreleased held
      | some b =>
          rw [apply, hp.release_of_held held]
          exact .released held

end Consistent

namespace Change

variable {operation : Operation} {answer : Answer}

theorem size_eq (change : Change p operation answer q) : q.size = p.size := by
  cases change <;> rfl

theorem capacity_eq (change : Change p operation answer q) : q.capacity = p.capacity := by
  cases change <;> simp

/-- A buffer of the new pool is one of the old pool as it was, or one of the
old pool taken, written or given back. -/
theorem buffer_cases (change : Change p operation answer q) (member : b ∈ q.buffers) :
    b ∈ p.buffers ∨ ∃ b' ∈ p.buffers, b = b'.take ∨ b = b'.giveBack ∨
      ∃ payload : List UInt8, payload.length ≤ p.size ∧ b = b'.write payload := by
  cases change with
  | acquired top found untaken =>
      rcases List.mem_or_eq_of_mem_set member with old | rfl
      · exact .inl old
      · exact .inr ⟨_, List.mem_of_getElem? found, .inl rfl⟩
  | @written h payload b' fits held =>
      rcases List.mem_or_eq_of_mem_set member with old | rfl
      · exact .inl old
      · exact .inr ⟨b', List.mem_of_getElem? (getElem?_of_held held),
          .inr (.inr ⟨payload, fits, rfl⟩)⟩
  | released held =>
      rcases List.mem_or_eq_of_mem_set member with old | rfl
      · exact .inl old
      · exact .inr ⟨_, List.mem_of_getElem? (getElem?_of_held held), .inr (.inl rfl)⟩
  | _ => exact .inl member

/-- What is free after a change, slot by slot. -/
theorem mem_free_iff (change : Change p operation answer q) (hp : p.Consistent) (slot : Nat) :
    slot ∈ q.free ↔ ∃ b, q.buffers[slot]? = some b ∧ b.taken = false := by
  have before := hp.mem_free_iff slot
  cases change with
  | @acquired top free b onTop found untaken =>
      have distinct := hp.nodup_free
      rw [onTop, List.nodup_cons] at distinct
      rw [buffers_handingOut, free_handingOut, getElem?_set_of_found found]
      by_cases same : slot = top
      · subst same
        simp [distinct.1, Buffer.take]
      · rw [onTop, List.mem_cons, or_iff_right same] at before
        rw [if_neg same]
        exact before
  | @written h payload b fits held =>
      have found := getElem?_of_held held
      rw [buffers_setBuffer, free_setBuffer, getElem?_set_of_found found]
      by_cases same : slot = h.slot
      · subst same
        simpa [found, Buffer.write] using before
      · rw [if_neg same]
        exact before
  | @released h b held =>
      rw [buffers_takingBack, free_takingBack, getElem?_set_of_found (getElem?_of_held held)]
      by_cases same : slot = h.slot
      · subst same
        simp [Buffer.giveBack]
      · rw [if_neg same, List.mem_cons, or_iff_right same]
        exact before
  | _ => exact before

theorem nodup_free (change : Change p operation answer q) (hp : p.Consistent) :
    q.free.Nodup := by
  have distinct := hp.nodup_free
  cases change with
  | acquired top found untaken =>
      rw [top] at distinct
      exact (List.nodup_cons.mp distinct).2
  | released held => exact List.nodup_cons.mpr ⟨hp.notMem_free_of_held held, distinct⟩
  | _ => exact distinct

/-- No operation breaks consistency. -/
theorem consistent (change : Change p operation answer q) (hp : p.Consistent) :
    q.Consistent where
  nodup_free := change.nodup_free hp
  mem_free_iff := change.mem_free_iff hp
  length_octets b member := by
    rw [change.size_eq]
    rcases change.buffer_cases member with old | ⟨b', old, rfl | rfl | ⟨payload, fits, rfl⟩⟩
    · exact hp.length_octets b old
    · exact hp.length_octets b' old
    · exact hp.length_octets b' old
    · rw [← hp.length_octets b' old] at fits ⊢
      exact Buffer.length_octets_write fits
  length_le b member := by
    rw [change.size_eq]
    rcases change.buffer_cases member with old | ⟨b', old, rfl | rfl | ⟨payload, fits, rfl⟩⟩
    · exact hp.length_le b old
    · exact Nat.zero_le _
    · exact Nat.zero_le _
    · exact fits

end Change

/-- What every single operation keeps, a sequence of operations keeps: an
invariant needs only the cases of `Change`. -/
theorem run_induction {P : Pool → Prop}
    (step : ∀ {p q operation answer}, p.Consistent → Change p operation answer q → P p → P q)
    (hp : p.Consistent) (start : P p) (operations : List Operation) :
    (p.run operations).2.Consistent ∧ P (p.run operations).2 := by
  induction operations generalizing p with
  | nil => exact ⟨hp, start⟩
  | cons operation operations ih =>
      have change := hp.change operation
      exact ih (change.consistent hp) (step hp change start)

theorem Consistent.run (hp : p.Consistent) (operations : List Operation) :
    (p.run operations).2.Consistent :=
  (run_induction (P := fun _ => True) (fun _ _ _ => trivial) hp trivial operations).1

theorem Consistent.capacity_run (hp : p.Consistent) (operations : List Operation) :
    (p.run operations).2.capacity = p.capacity :=
  (run_induction (P := fun q => q.capacity = p.capacity)
    (fun _ change same => change.capacity_eq.trans same) hp rfl operations).2

theorem Consistent.size_run (hp : p.Consistent) (operations : List Operation) :
    (p.run operations).2.size = p.size :=
  (run_induction (P := fun q => q.size = p.size)
    (fun _ change same => change.size_eq.trans same) hp rfl operations).2

/-- Whatever is done to a new pool through whatever handles, the stack holds
each slot whose buffer is not in use once and nothing else, every payload fits
its buffer, and every buffer is free or in use. So a slot from the stack always
has a buffer, the payload of a held buffer is a part of its octets, and giving
a held buffer back never finds the stack full. -/
theorem consistent_run_create (capacity size : Nat) (operations : List Operation) :
    let p := ((create capacity size).run operations).2
    p.Consistent ∧ p.capacity = capacity ∧ p.size = size ∧
      p.freeCount + p.takenCount = capacity ∧
      (∀ slot ∈ p.free, slot < capacity) ∧
      (∀ slot free, p.free = slot :: free →
        ∃ b, p.buffers[slot]? = some b ∧
          p.acquire = (.ok ⟨slot, b.generation⟩, p.handingOut slot b free)) ∧
      (∀ h b, p.held? h = some b → b.length ≤ b.octets.length ∧ b.payload.length = b.length) ∧
      (∀ h b, p.held? h = some b →
        (p.setBuffer h.slot b.giveBack).free.length < (p.setBuffer h.slot b.giveBack).capacity ∧
          p.release h = (.ok (), p.takingBack h.slot b)) := by
  intro p
  have start := consistent_create capacity size
  have hp : p.Consistent := start.run operations
  have same : p.capacity = capacity := by
    rw [start.capacity_run operations, capacity_create]
  have total := hp.freeCount_add_takenCount
  rw [same] at total
  refine ⟨hp, same, start.size_run operations, total, ?_, ?_, ?_, ?_⟩
  · intro slot free
    rw [← same]
    exact hp.free_lt free
  · intro slot free top
    obtain ⟨b, found, -⟩ := hp.buffer_of_free top
    exact ⟨b, found, acquire_of_free top found⟩
  · intro h b held
    have member := List.mem_of_getElem? (getElem?_of_held held)
    have within : b.length ≤ b.octets.length := by
      rw [hp.length_octets b member]
      exact hp.length_le b member
    exact ⟨within, by rw [Buffer.payload, List.length_take, Nat.min_eq_left within]⟩
  · intro h b held
    refine ⟨?_, hp.release_of_held held⟩
    rw [free_setBuffer, capacity_setBuffer]
    exact hp.room_of_held held

end Pool

end UpdateBridge
