import Mathlib.Order.Bounds.Defs
import UpdateBridge.Proofs.Pool.Generation

/-!
# No more slots are used than have to be

The slots that were ever handed out are those below a frontier. On the stack of
free slots the ones that came back lie on top, and below them, in ascending
order, those that were never used (`Frontier`). So the frontier moves only when
nothing below it is free, and then by one: it is the largest number of buffers
that were in use at one time (`peak`).

This says nothing about which of the slots below the frontier goes next, and no
bound on generations is needed, since slots are counted and not handles.
-/

namespace UpdateBridge

namespace Pool

variable {p q : Pool} {used : List Nat} {frontier : Nat}
variable {operation : Operation} {answer : Answer}

/-- The most buffers in use at one time, before, between and after the
operations. -/
def peak (p : Pool) : List Operation → Nat
  | [] => p.takenCount
  | operation :: operations => max p.takenCount ((p.apply operation).2.peak operations)

@[simp] theorem peak_nil (p : Pool) : p.peak [] = p.takenCount := rfl

@[simp] theorem peak_cons (p : Pool) (operation : Operation) (operations : List Operation) :
    p.peak (operation :: operations) =
      max p.takenCount ((p.apply operation).2.peak operations) := rfl

theorem takenCount_le_peak (p : Pool) (operations : List Operation) :
    p.takenCount ≤ p.peak operations := by
  cases operations with
  | nil => exact Nat.le_refl _
  | cons operation operations => exact Nat.le_max_left _ _

/-- The peak is reached, and nothing above it is. -/
theorem isGreatest_peak (p : Pool) (operations : List Operation) :
    IsGreatest {taken | ∃ before, before <+: operations ∧ (p.run before).2.takenCount = taken}
      (p.peak operations) := by
  induction operations generalizing p with
  | nil =>
      refine ⟨⟨[], List.nil_prefix, rfl⟩, ?_⟩
      rintro taken ⟨before, start, rfl⟩
      obtain rfl := List.prefix_nil.mp start
      exact Nat.le_refl _
  | cons operation operations ih =>
      obtain ⟨⟨before, start, reached⟩, most⟩ := ih (p.apply operation).2
      constructor
      · obtain low | high := Nat.le_total p.takenCount ((p.apply operation).2.peak operations)
        · refine ⟨operation :: before, List.cons_prefix_cons.mpr ⟨rfl, start⟩, ?_⟩
          simpa [Nat.max_eq_right low] using reached
        · exact ⟨[], List.nil_prefix, (Nat.max_eq_left high).symm⟩
      · rintro taken ⟨earlier, start', rfl⟩
        obtain rfl | ⟨later, rfl, after⟩ := List.prefix_cons_iff.mp start'
        · exact Nat.le_max_left _ _
        · exact Nat.le_trans (most ⟨later, after, rfl⟩) (Nat.le_max_right _ _)

/-- The slots that were used are those below the frontier, first used in
ascending order. Of the free slots those that came back lie on top, and the
others below them in ascending order. -/
structure Frontier (p : Pool) (used : List Nat) (frontier : Nat) : Prop where
  consistent : p.Consistent
  within : frontier ≤ p.capacity
  free_eq : ∃ back, (∀ slot ∈ back, slot < frontier) ∧
    p.free = back ++ List.range' frontier (p.capacity - frontier)
  used_eq : used.eraseDups = List.range frontier

theorem frontier_create (capacity size : Nat) : (create capacity size).Frontier [] 0 where
  consistent := consistent_create capacity size
  within := Nat.zero_le _
  free_eq := by
    refine ⟨[], fun slot member => absurd member List.not_mem_nil, ?_⟩
    rw [capacity_create]
    exact List.range_eq_range'
  used_eq := rfl

/-- A slot that was used already does not count again. -/
theorem eraseDups_concat_of_mem {slot : Nat} (member : slot ∈ used) :
    (used ++ [slot]).eraseDups = used.eraseDups := by
  simp [List.eraseDups_append, List.removeAll, member]

theorem eraseDups_concat_of_notMem {slot : Nat} (new : slot ∉ used) :
    (used ++ [slot]).eraseDups = used.eraseDups ++ [slot] := by
  simp [List.eraseDups_append, List.eraseDups_cons, List.removeAll, new]

namespace Frontier

theorem mem_used_iff (hp : p.Frontier used frontier) {slot : Nat} :
    slot ∈ used ↔ slot < frontier := by
  rw [← List.mem_eraseDups, hp.used_eq, List.mem_range]

/-- What is below the frontier and did not come back is in use. -/
theorem takenCount_add_length (hp : p.Frontier used frontier) (back : List Nat)
    (shape : p.free = back ++ List.range' frontier (p.capacity - frontier)) :
    p.takenCount + back.length = frontier := by
  have total := hp.consistent.freeCount_add_takenCount
  have within := hp.within
  simp only [freeCount, shape, List.length_append, List.length_range'] at total
  omega

theorem takenCount_le (hp : p.Frontier used frontier) : p.takenCount ≤ frontier := by
  obtain ⟨back, -, shape⟩ := hp.free_eq
  have total := hp.takenCount_add_length _ shape
  omega

/-- A slot below the frontier is free only if it came back. -/
theorem taken_of_notMem (hp : p.Frontier used frontier) {back : List Nat}
    (shape : p.free = back ++ List.range' frontier (p.capacity - frontier)) {slot : Nat}
    (below : slot < frontier) (kept : slot ∉ back) :
    ∃ b, p.buffers[slot]? = some b ∧ b.taken = true := by
  have inside : slot < p.buffers.length := Nat.lt_of_lt_of_le below hp.within
  refine ⟨_, List.getElem?_eq_getElem inside, ?_⟩
  by_contra untaken
  have free : slot ∈ p.free := (hp.consistent.mem_free_iff slot).mpr
    ⟨_, List.getElem?_eq_getElem inside, by simpa using untaken⟩
  rw [shape, List.mem_append, List.mem_range'_1] at free
  obtain member | ⟨beyond, -⟩ := free
  · exact kept member
  · exact absurd below (Nat.not_lt.mpr beyond)

/-- A slot goes out for the first time only if it is the one at the frontier and
every slot that was used before is in use. -/
theorem first_use (hp : p.Frontier used frontier) {slot : Nat} {free : List Nat}
    (top : p.free = slot :: free) (new : slot ∉ used) :
    slot = frontier ∧ free = List.range' (frontier + 1) (p.capacity - (frontier + 1)) ∧
      frontier < p.capacity ∧ p.takenCount = frontier ∧
      ∀ other ∈ used, ∃ b, p.buffers[other]? = some b ∧ b.taken = true := by
  obtain ⟨back, below, shape⟩ := hp.free_eq
  cases back with
  | nil =>
      have total := hp.takenCount_add_length _ shape
      have others : ∀ other ∈ used, ∃ b, p.buffers[other]? = some b ∧ b.taken = true :=
        fun other member => hp.taken_of_notMem shape (hp.mem_used_iff.mp member) List.not_mem_nil
      rw [shape, List.nil_append, List.range'_eq_cons_iff] at top
      obtain ⟨first, room, rest⟩ := top
      refine ⟨first.symm, ?_, by omega, by simpa using total, others⟩
      rw [rest, ← first, Nat.sub_sub]
  | cons recent back =>
      rw [shape] at top
      obtain ⟨rfl, -⟩ := List.cons.inj top
      exact absurd (hp.mem_used_iff.mpr (below _ List.mem_cons_self)) new

/-- Whatever else an operation does, it leaves the frontier where it is, or moves
it by one when everything below it is in use. -/
theorem change (hp : p.Frontier used frontier) (step : Change p operation answer q) :
    q.Frontier (used ++ (issuedBy answer).map Handle.slot) (max frontier q.takenCount) := by
  have consistent := step.consistent hp.consistent
  have capacity := step.capacity_eq
  have keep : (∃ back, (∀ slot ∈ back, slot < frontier) ∧
        q.free = back ++ List.range' frontier (p.capacity - frontier)) →
      (used ++ (issuedBy answer).map Handle.slot).eraseDups = List.range frontier →
      q.Frontier (used ++ (issuedBy answer).map Handle.slot) (max frontier q.takenCount) := by
    intro shape used_eq
    have same : q.Frontier (used ++ (issuedBy answer).map Handle.slot) frontier :=
      ⟨consistent, capacity ▸ hp.within, capacity ▸ shape, used_eq⟩
    rwa [Nat.max_eq_left same.takenCount_le]
  have used_eq : (used ++ []).eraseDups = List.range frontier := by
    rw [List.append_nil, hp.used_eq]
  cases step with
  | @acquired slot free b top found untaken =>
      by_cases old : slot ∈ used
      · refine keep ?_ ((eraseDups_concat_of_mem old).trans hp.used_eq)
        obtain ⟨back, below, shape⟩ := hp.free_eq
        cases back with
        | nil =>
            rw [shape, List.nil_append, List.range'_eq_cons_iff] at top
            have before := hp.mem_used_iff.mp old
            omega
        | cons recent back =>
            rw [shape] at top
            obtain ⟨-, rest⟩ := List.cons.inj top
            exact ⟨back, fun slot member => below slot (List.mem_cons_of_mem _ member), rest.symm⟩
      · obtain ⟨rfl, rest, room, -⟩ := hp.first_use top old
        have moved : (p.handingOut slot b free).Frontier (used ++ [slot]) (slot + 1) := by
          refine ⟨consistent, capacity ▸ room, ⟨[], nofun, ?_⟩, ?_⟩
          · rw [free_handingOut, capacity]
            exact rest
          · rw [eraseDups_concat_of_notMem old, hp.used_eq, List.range_succ]
        have total := moved.takenCount_add_length [] (by
          rw [free_handingOut, capacity]
          exact rest)
        rw [List.length_nil, Nat.add_zero] at total
        rw [total, Nat.max_eq_right (Nat.le_succ slot)]
        exact moved
  | @released h b held =>
      refine keep ?_ used_eq
      obtain ⟨back, below, shape⟩ := hp.free_eq
      refine ⟨h.slot :: back, List.forall_mem_cons.mpr ⟨?_, below⟩, by
        rw [free_takingBack, shape, List.cons_append]⟩
      -- A held slot is in the pool and not on the stack, so it is not beyond the frontier.
      have inside := (List.getElem?_eq_some_iff.mp (getElem?_of_held held)).1
      have off := hp.consistent.notMem_free_of_held held
      rw [shape, List.mem_append, List.mem_range'_1, not_or] at off
      change h.slot < p.capacity at inside
      omega
  | _ => exact keep hp.free_eq used_eq

/-- The frontier follows the number of buffers in use through a run. -/
theorem run (hp : p.Frontier used frontier) (operations : List Operation) :
    (p.run operations).2.Frontier
      (used ++ (issued (p.run operations).1).map Handle.slot)
      (max frontier (p.peak operations)) := by
  induction operations generalizing p used frontier with
  | nil => simpa [Nat.max_eq_left hp.takenCount_le] using hp
  | cons operation operations ih =>
      have later := ih (hp.change (hp.consistent.change operation))
      have least := takenCount_le_peak (p.apply operation).2 operations
      have before := hp.takenCount_le
      have most : max (max frontier (p.apply operation).2.takenCount)
          ((p.apply operation).2.peak operations) =
          max frontier (p.peak (operation :: operations)) := by
        rw [peak_cons]
        omega
      rw [most, List.append_assoc, ← List.map_append] at later
      exact later

end Frontier

/-- After any operations on a new pool through any handles, the slots that were
handed out are those below the largest number of buffers that were in use at one
time. They were first used in ascending order, and the next one that was never
used goes out only when all of them are in use. -/
theorem slots_used_sparingly (capacity size : Nat) (operations : List Operation) :
    let start := create capacity size
    let p := (start.run operations).2
    let used := (issued (start.run operations).1).map Handle.slot
    let most := start.peak operations
    IsGreatest {taken | ∃ before, before <+: operations ∧
      (start.run before).2.takenCount = taken} most ∧
    (∀ slot, slot ∈ used ↔ slot < most) ∧
    used.eraseDups = List.range most ∧
    ∀ h q, p.acquire = (.ok h, q) → h.slot ∉ used →
      h.slot = most ∧ ∀ slot ∈ used, ∃ b, p.buffers[slot]? = some b ∧ b.taken = true := by
  intro start p used most
  have hp : p.Frontier used most := by
    have ran := (frontier_create capacity size).run operations
    rwa [List.nil_append, Nat.max_eq_right (Nat.zero_le _)] at ran
  refine ⟨isGreatest_peak start operations, fun slot => hp.mem_used_iff, hp.used_eq, ?_⟩
  intro h q acquired new
  cases top : p.free with
  | nil =>
      rw [acquire_of_free_eq_nil top] at acquired
      cases acquired
  | cons slot free =>
      obtain ⟨b, found, -⟩ := hp.consistent.buffer_of_free top
      rw [acquire_of_free top found] at acquired
      cases acquired
      obtain ⟨first, -, -, -, others⟩ := hp.first_use top new
      exact ⟨first, others⟩

/-- Slot 0 came back and went out again before slot 2 is used, and a handle that
was given back twice changes nothing of this. -/
theorem slots_used_sparingly_third :
    let start := create 3 4
    let operations : List Operation :=
      [.acquire, .acquire, .release ⟨0, 0⟩, .release ⟨0, 0⟩, .acquire]
    let p := (start.run operations).2
    p.acquire.1 = .ok ⟨2, 0⟩ ∧
      (issued (start.run operations).1).map Handle.slot = [0, 1, 0] ∧
      start.peak operations = 2 ∧
      ∀ slot ∈ [0, 1, 0], ∃ b, p.buffers[slot]? = some b ∧ b.taken = true := by
  intro start operations p
  have next : p.acquire.1 = .ok ⟨2, 0⟩ := by decide +kernel
  have used : (issued (start.run operations).1).map Handle.slot = [0, 1, 0] := by decide +kernel
  obtain ⟨-, -, -, sparing⟩ := slots_used_sparingly 3 4 operations
  obtain ⟨most, taken⟩ := sparing ⟨2, 0⟩ _ (Prod.ext next rfl) (by
    change 2 ∉ (issued (start.run operations).1).map Handle.slot
    rw [used]
    decide)
  refine ⟨next, used, most.symm, fun slot member => taken slot ?_⟩
  change slot ∈ (issued (start.run operations).1).map Handle.slot
  rwa [used]

end Pool

end UpdateBridge
