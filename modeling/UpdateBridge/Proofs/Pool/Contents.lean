import Mathlib.Logic.Function.Basic
import UpdateBridge.Proofs.Pool.Consistency

/-!
# Live handles and what they reach

A handle is live in a pool while its buffer is held under it. `contents` gives
the payload that a live handle reaches and `handles` lists the live handles,
one for each buffer in use. Every answer of a pool is a matter of `contents`,
and every operation changes it at one handle at most: acquiring adds a handle
with nothing behind it, writing replaces what one handle reaches, and giving
back removes one handle.
-/

namespace UpdateBridge

namespace Pool

variable {p q : Pool} {g h : Handle} {b : Buffer}

/-- The payload that a live handle reaches. -/
def contents (p : Pool) (h : Handle) : Option (List UInt8) :=
  (p.held? h).map Buffer.payload

def handles (p : Pool) : List Handle :=
  (p.buffers.zipIdx.filter fun entry => entry.1.taken).map fun entry =>
    ⟨entry.2, entry.1.generation⟩

theorem contents_eq_none_iff : p.contents h = none ↔ p.held? h = none :=
  Option.map_eq_none_iff

theorem contents_ne_none_iff : p.contents h ≠ none ↔ ∃ b, p.held? h = some b := by
  rw [ne_eq, contents_eq_none_iff, ← ne_eq, Option.ne_none_iff_exists']

/-- Reading answers what the handle reaches. -/
theorem read_eq (p : Pool) (h : Handle) :
    p.read h = match p.contents h with
      | none => .error (.staleHandle h.slot)
      | some payload => .ok payload := by
  cases held : p.held? h with
  | none => simp [read_of_not_held held, contents, held]
  | some b => simp [read_of_held held, contents, held]

theorem read_of_contents {payload : List UInt8} (live : p.contents h = some payload) :
    p.read h = .ok payload := by
  rw [read_eq, live]

theorem read_of_contents_eq_none (stale : p.contents h = none) :
    p.read h = .error (.staleHandle h.slot) := by
  rw [read_eq, stale]

/-- A payload that fits the place it is copied to arrives there whole. -/
theorem copy_of_contents {payload out : List UInt8} (live : p.contents h = some payload)
    (fits : payload.length ≤ out.length) :
    p.copy h out = (.ok payload.length, payload ++ out.drop payload.length) := by
  simp only [copy, read_of_contents live, gt_iff_lt, Nat.not_lt.mpr fits, if_false]

theorem copy_of_contents_of_lt {payload out : List UInt8} (live : p.contents h = some payload)
    (large : out.length < payload.length) :
    p.copy h out = (.error (.tooLarge out.length payload.length), out) := by
  simp only [copy, read_of_contents live, gt_iff_lt, large, if_true]

theorem copy_of_contents_eq_none {out : List UInt8} (stale : p.contents h = none) :
    p.copy h out = (.error (.staleHandle h.slot), out) := by
  simp only [copy, read_of_contents_eq_none stale]

theorem Consistent.length_le_of_contents (hp : p.Consistent) {payload : List UInt8}
    (live : p.contents h = some payload) : payload.length ≤ p.size := by
  obtain ⟨b, held, rfl⟩ := Option.map_eq_some_iff.mp live
  have member : b ∈ p.buffers := List.mem_of_getElem? (getElem?_of_held held)
  exact Nat.le_trans (List.length_take_le _ _) (hp.length_le b member)

theorem contents_create (capacity size : Nat) (h : Handle) :
    (create capacity size).contents h = none := by
  rw [contents_eq_none_iff, Option.eq_none_iff_forall_ne_some]
  intro b held
  obtain ⟨found, taken, -⟩ := held?_iff.mp held
  obtain ⟨-, rfl⟩ := List.mem_replicate.mp (List.mem_of_getElem? found)
  exact Bool.false_ne_true taken

/-- Replacing one buffer changes what is held in its slot only. -/
theorem held?_of_set {slot : Nat} {old new : Buffer} (found : p.buffers[slot]? = some old)
    (replaced : q.buffers = p.buffers.set slot new) (g : Handle) :
    q.held? g = if g.slot = slot then (some new).filter (·.heldBy g) else p.held? g := by
  rw [held?, held?, replaced, getElem?_set_of_found found]
  split <;> rfl

/-- A handle on the slot of a held buffer is live only if it is the one. -/
theorem held?_eq_none_of_ne (held : p.held? h = some b) (same : g.slot = h.slot) (other : g ≠ h) :
    p.held? g = none := by
  rw [Option.eq_none_iff_forall_ne_some]
  intro b' held'
  obtain ⟨found, -, generation⟩ := held?_iff.mp held
  obtain ⟨found', -, generation'⟩ := held?_iff.mp held'
  rw [same, found, Option.some.injEq] at found'
  subst found'
  exact other (Handle.ext same (generation'.symm.trans generation))

/-- No handle on the slot of a free buffer is live. -/
theorem held?_eq_none_of_untaken {slot : Nat} (found : p.buffers[slot]? = some b)
    (untaken : b.taken = false) (same : g.slot = slot) : p.held? g = none := by
  rw [held?, same, found]
  simp [Buffer.heldBy, untaken]

theorem contents_handingOut {slot : Nat} {free : List Nat} (found : p.buffers[slot]? = some b)
    (untaken : b.taken = false) :
    (p.handingOut slot b free).contents =
      Function.update p.contents ⟨slot, b.generation⟩ (some []) := by
  funext g
  rw [Function.update_apply, contents, held?_of_set found (buffers_handingOut p slot b free)]
  by_cases same : g.slot = slot
  · have before : p.contents g = none :=
      contents_eq_none_iff.mpr (held?_eq_none_of_untaken found untaken same)
    rw [if_pos same, before]
    by_cases generation : g.generation = b.generation
    · have good : b.take.heldBy g = true := by simp [Buffer.heldBy, Buffer.take, generation]
      rw [if_pos (Handle.ext same generation), Option.filter_some, if_pos good, Option.map_some,
        Buffer.payload_take]
    · have bad : ¬b.take.heldBy g = true := by
        simp [Buffer.heldBy, Buffer.take, Ne.symm generation]
      have other : g ≠ ⟨slot, b.generation⟩ := fun equal => generation (by rw [equal])
      rw [if_neg other, Option.filter_some, if_neg bad, Option.map_none]
  · have other : g ≠ ⟨slot, b.generation⟩ := fun equal => same (by rw [equal])
    rw [if_neg same, if_neg other, contents]

theorem contents_written (held : p.held? h = some b) (payload : List UInt8) :
    (p.setBuffer h.slot (b.write payload)).contents =
      Function.update p.contents h (some payload) := by
  funext g
  have found := getElem?_of_held held
  rw [Function.update_apply, contents, held?_of_set found (buffers_setBuffer p h.slot _)]
  by_cases equal : g = h
  · subst equal
    have good : (b.write payload).heldBy g = true := (held?_eq_some_iff.mp held).2
    rw [if_pos rfl, if_pos rfl, Option.filter_some, if_pos good, Option.map_some,
      Buffer.payload_write]
  · rw [if_neg equal]
    by_cases same : g.slot = h.slot
    · have bad : ¬(b.write payload).heldBy g = true := by
        intro good
        have generation := (Buffer.heldBy_iff.mp good).2
        exact equal (Handle.ext same (generation.symm.trans (held?_iff.mp held).2.2))
      rw [if_pos same, Option.filter_some, if_neg bad, Option.map_none,
        contents_eq_none_iff.mpr (held?_eq_none_of_ne held same equal)]
    · rw [if_neg same, contents]

theorem contents_takingBack (held : p.held? h = some b) :
    (p.takingBack h.slot b).contents = Function.update p.contents h none := by
  funext g
  have found := getElem?_of_held held
  rw [Function.update_apply, contents, held?_of_set found (buffers_takingBack p h.slot b)]
  by_cases same : g.slot = h.slot
  · have bad : ¬b.giveBack.heldBy g = true := by simp [Buffer.heldBy, Buffer.giveBack]
    rw [if_pos same, Option.filter_some, if_neg bad, Option.map_none]
    by_cases equal : g = h
    · rw [if_pos equal]
    · rw [if_neg equal, contents_eq_none_iff.mpr (held?_eq_none_of_ne held same equal)]
  · have other : g ≠ h := fun equal => same (by rw [equal])
    rw [if_neg same, if_neg other, contents]

namespace Consistent

/-- Acquiring fails and changes nothing, or adds a handle that was not live and
has nothing behind it. -/
theorem acquire_cases (hp : p.Consistent) :
    p.acquire = (.error (.exhausted p.capacity), p) ∨
      ∃ h q, p.acquire = (.ok h, q) ∧ q.Consistent ∧ q.size = p.size ∧ p.contents h = none ∧
        q.contents = Function.update p.contents h (some []) := by
  cases top : p.free with
  | nil => exact .inl (acquire_of_free_eq_nil top)
  | cons slot free =>
      obtain ⟨b, found, untaken⟩ := hp.buffer_of_free top
      have change : Change p .acquire _ (p.handingOut slot b free) := .acquired top found untaken
      exact .inr ⟨⟨slot, b.generation⟩, p.handingOut slot b free, acquire_of_free top found,
        change.consistent hp, rfl,
        contents_eq_none_iff.mpr (held?_eq_none_of_untaken found untaken rfl),
        contents_handingOut found untaken⟩

/-- Writing what fits through a live handle replaces what it reaches. -/
theorem write_of_live (hp : p.Consistent) (live : p.contents h ≠ none) {payload : List UInt8}
    (fits : payload.length ≤ p.size) :
    ∃ q, p.write h payload = (.ok payload.length, q) ∧ q.Consistent ∧
      q.contents = Function.update p.contents h (some payload) := by
  obtain ⟨b, held⟩ := contents_ne_none_iff.mp live
  have change : Change p (.write h payload) _ _ := .written fits held
  exact ⟨_, write_of_held fits held, change.consistent hp, contents_written held payload⟩

/-- A live handle can be given back and is then no longer live. -/
theorem release_of_live (hp : p.Consistent) (live : p.contents h ≠ none) :
    ∃ q, p.release h = (.ok (), q) ∧ q.Consistent ∧
      q.contents = Function.update p.contents h none := by
  obtain ⟨b, held⟩ := contents_ne_none_iff.mp live
  have change : Change p (.release h) _ _ := .released held
  exact ⟨_, hp.release_of_held held, change.consistent hp, contents_takingBack held⟩

end Consistent

theorem release_of_contents_eq_none (stale : p.contents h = none) :
    p.release h = (.error (.doubleRelease h.slot), p) :=
  release_of_not_held (contents_eq_none_iff.mp stale)

/-- Whether or not it was live, a handle that was given back reaches nothing. -/
theorem Consistent.contents_release (hp : p.Consistent) (h : Handle) :
    (p.release h).2.contents = Function.update p.contents h none := by
  by_cases stale : p.contents h = none
  · rw [release_of_contents_eq_none stale, ← stale, Function.update_eq_self]
  · obtain ⟨q, released, -, contents⟩ := hp.release_of_live stale
    rw [released, contents]

/-- What a live handle reaches changes only by writing through it or giving it
back. -/
theorem Change.contents_eq {operation : Operation} {answer : Answer} {payload : List UInt8}
    (change : Change p operation answer q) (live : p.contents h = some payload)
    (unwritten : ∀ octets, operation ≠ .write h octets) (unreleased : operation ≠ .release h) :
    q.contents h = some payload := by
  cases change with
  | @acquired slot free b top found untaken =>
      have other : h ≠ ⟨slot, b.generation⟩ := by
        rintro rfl
        rw [contents_eq_none_iff.mpr (held?_eq_none_of_untaken found untaken rfl)] at live
        cases live
      rw [contents_handingOut found untaken, Function.update_of_ne other, live]
  | @written g octets b fits held =>
      have other : h ≠ g := fun equal => unwritten octets (by rw [equal])
      rw [contents_written held, Function.update_of_ne other, live]
  | @released g b held =>
      have other : h ≠ g := fun equal => unreleased (by rw [equal])
      rw [contents_takingBack held, Function.update_of_ne other, live]
  | _ => exact live

/-- What a live handle reaches outlasts operations that neither write through
it nor give it back. -/
theorem contents_run (hp : p.Consistent) {operations : List Operation} {payload : List UInt8}
    (live : p.contents h = some payload)
    (untouched : ∀ operation ∈ operations,
      operation ≠ .release h ∧ ∀ octets, operation ≠ .write h octets) :
    (p.run operations).2.contents h = some payload := by
  induction operations generalizing p with
  | nil => exact live
  | cons operation operations ih =>
      have change := hp.change operation
      obtain ⟨unreleased, unwritten⟩ := untouched operation List.mem_cons_self
      exact ih (change.consistent hp) (change.contents_eq live unwritten unreleased)
        fun later member => untouched later (List.mem_cons_of_mem operation member)

theorem mem_handles_iff : h ∈ p.handles ↔ ∃ b, p.held? h = some b := by
  simp only [handles, List.mem_map, List.mem_filter, List.mem_zipIdx_iff_getElem?, held?_iff]
  constructor
  · rintro ⟨entry, ⟨found, taken⟩, rfl⟩
    exact ⟨entry.1, found, taken, rfl⟩
  · rintro ⟨b, found, taken, generation⟩
    exact ⟨(b, h.slot), ⟨found, taken⟩, Handle.ext rfl generation⟩

theorem mem_handles_iff_contents : h ∈ p.handles ↔ p.contents h ≠ none := by
  rw [mem_handles_iff, contents_ne_none_iff]

theorem nodup_handles (p : Pool) : p.handles.Nodup := by
  have slots : (p.handles.map Handle.slot).Nodup := by
    rw [handles, List.map_map]
    apply List.Nodup.sublist (List.Sublist.map _ List.filter_sublist)
    change (p.buffers.zipIdx.map Prod.snd).Nodup
    rw [List.zipIdx_map_snd]
    exact List.nodup_range'
  exact slots.of_map

/-- There is one live handle for each buffer in use. -/
theorem length_handles (p : Pool) : p.handles.length = p.takenCount := by
  rw [handles, List.length_map, ← List.countP_eq_length_filter, takenCount]
  conv_rhs => rw [← List.zipIdx_map_fst 0 p.buffers, List.countP_map]
  rfl

theorem handles_perm_of_iff {handles : List Handle} (distinct : handles.Nodup)
    (same : ∀ h, p.contents h ≠ none ↔ h ∈ handles) : p.handles.Perm handles := by
  rw [List.perm_ext_iff_of_nodup p.nodup_handles distinct]
  intro h
  rw [mem_handles_iff_contents, same]

end Pool

end UpdateBridge
