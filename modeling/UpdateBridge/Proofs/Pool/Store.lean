import Mathlib.Data.Finmap
import UpdateBridge.Proofs.Pool.Generation

/-!
# A pool is a map from live handles to payloads

`Store` is all that callers can know of a pool: its two sizes, a finite map
from live handles to payloads, and the handles that were ever handed out.
`Store.Step` gives the rules of a store, operation by operation. They leave
one thing open, namely which new handle is handed out; it was never handed out
before and its slot is that of no live handle.

`run_refines_store` says that a pool answers as these rules allow for as long
as no slot comes back 2^32 times, and that the map is then what the pool holds.
Slots, marks, the stack and generations are gone from the rules, so nothing
callers see depends on them.
-/

namespace UpdateBridge

open Pool (Operation Answer)

/-- What callers can know of a pool. -/
structure Store where
  capacity : Nat
  size : Nat
  /-- What each live handle reaches. -/
  live : Finmap fun _ : Handle => List UInt8
  /-- The handles that were ever handed out. -/
  issued : Finset Handle

namespace Store

variable {s t u : Store} {g h : Handle} {operation : Operation} {answer : Answer}
variable {operations : List Operation} {answers : List Answer}

/-- A store in which nothing is live and nothing was handed out. -/
def create (capacity size : Nat) : Store :=
  ⟨capacity, size, ∅, ∅⟩

/-- The rules of a store. -/
inductive Step : Store → Operation → Answer → Store → Prop
  | exhausted {s : Store} (full : s.live.keys.card = s.capacity) :
      Step s .acquire (.acquired (.error (.exhausted s.capacity))) s
  | acquire {s : Store} {h : Handle} (room : s.live.keys.card < s.capacity)
      (fresh : h ∉ s.issued) (apart : ∀ g ∈ s.live, g.slot ≠ h.slot) :
      Step s .acquire (.acquired (.ok h))
        { s with live := s.live.insert h [], issued := insert h s.issued }
  | writeTooLarge {s : Store} {h : Handle} {payload : List UInt8}
      (large : s.size < payload.length) :
      Step s (.write h payload) (.length (.error (.tooLarge s.size payload.length))) s
  | writeStale {s : Store} {h : Handle} {payload : List UInt8}
      (fits : payload.length ≤ s.size) (stale : h ∉ s.live) :
      Step s (.write h payload) (.length (.error (.staleHandle h.slot))) s
  | write {s : Store} {h : Handle} {payload : List UInt8}
      (fits : payload.length ≤ s.size) (live : h ∈ s.live) :
      Step s (.write h payload) (.length (.ok payload.length))
        { s with live := s.live.insert h payload }
  | readStale {s : Store} {h : Handle} (stale : h ∉ s.live) :
      Step s (.read h) (.payload (.error (.staleHandle h.slot))) s
  | read {s : Store} {h : Handle} {payload : List UInt8}
      (live : s.live.lookup h = some payload) :
      Step s (.read h) (.payload (.ok payload)) s
  | lengthStale {s : Store} {h : Handle} (stale : h ∉ s.live) :
      Step s (.payloadLength h) (.length (.error (.staleHandle h.slot))) s
  | length {s : Store} {h : Handle} {payload : List UInt8}
      (live : s.live.lookup h = some payload) :
      Step s (.payloadLength h) (.length (.ok payload.length)) s
  | copyStale {s : Store} {h : Handle} {out : List UInt8} (stale : h ∉ s.live) :
      Step s (.copy h out) (.copied (.error (.staleHandle h.slot)) out) s
  | copyTooLarge {s : Store} {h : Handle} {payload out : List UInt8}
      (live : s.live.lookup h = some payload) (large : out.length < payload.length) :
      Step s (.copy h out) (.copied (.error (.tooLarge out.length payload.length)) out) s
  | copy {s : Store} {h : Handle} {payload out : List UInt8}
      (live : s.live.lookup h = some payload) (fits : payload.length ≤ out.length) :
      Step s (.copy h out) (.copied (.ok payload.length) (payload ++ out.drop payload.length)) s
  | releaseStale {s : Store} {h : Handle} (stale : h ∉ s.live) :
      Step s (.release h) (.released (.error (.doubleRelease h.slot))) s
  | release {s : Store} {h : Handle} (live : h ∈ s.live) :
      Step s (.release h) (.released (.ok ())) { s with live := s.live.erase h }

/-- Operations in order, each answered by the rules. -/
inductive Run : Store → List Operation → List Answer → Store → Prop
  | nil {s : Store} : Run s [] [] s
  | cons {s t u : Store} {operation : Operation} {answer : Answer}
      {operations : List Operation} {answers : List Answer}
      (first : Step s operation answer t) (others : Run t operations answers u) :
      Run s (operation :: operations) (answer :: answers) u

/-- The store shows a pool of which these handles came back: the map is what
the pool holds, and what was handed out is live or spent. -/
structure Shows (s : Store) (p : Pool) (back : List Handle) : Prop where
  capacity_eq : s.capacity = p.capacity
  size_eq : s.size = p.size
  lookup_eq : ∀ h, s.live.lookup h = p.contents h
  known : ∀ h ∈ s.issued, h ∈ s.live ∨ Pool.Spent back h

theorem shows_create (capacity size : Nat) :
    (create capacity size).Shows (Pool.create capacity size) [] where
  capacity_eq := (Pool.capacity_create capacity size).symm
  size_eq := rfl
  lookup_eq h := by
    rw [Pool.contents_create]
    exact Finmap.lookup_empty h
  known h issued := absurd issued (Finset.notMem_empty h)

namespace Shows

variable {p q : Pool} {b : Buffer} {back : List Handle}

theorem mem_live_iff (shows : s.Shows p back) : h ∈ s.live ↔ p.contents h ≠ none := by
  rw [← shows.lookup_eq, ne_eq, Finmap.lookup_eq_none, not_not]

theorem notMem_live_iff (shows : s.Shows p back) : h ∉ s.live ↔ p.held? h = none := by
  rw [shows.mem_live_iff, not_not, Pool.contents_eq_none_iff]

/-- There are as many live handles as buffers in use. -/
theorem card_live (shows : s.Shows p back) : s.live.keys.card = p.takenCount := by
  have same : s.live.keys = p.handles.toFinset := by
    ext h
    rw [Finmap.mem_keys, shows.mem_live_iff, List.mem_toFinset, Pool.mem_handles_iff_contents]
  rw [same, List.toFinset_card_of_nodup p.nodup_handles, Pool.length_handles]

theorem mem_live_of_held (shows : s.Shows p back) (held : p.held? h = some b) : h ∈ s.live :=
  shows.mem_live_iff.mpr (Pool.contents_ne_none_iff.mpr ⟨b, held⟩)

theorem notMem_live_of_contents (shows : s.Shows p back) (stale : p.contents h = none) :
    h ∉ s.live := by
  rw [shows.mem_live_iff, stale]
  exact not_not.mpr rfl

/-- No live handle is on the slot of a free buffer. -/
theorem slot_ne_of_untaken (shows : s.Shows p back) {slot : Nat} (found : p.buffers[slot]? = some b)
    (untaken : b.taken = false) : ∀ g ∈ s.live, g.slot ≠ slot := by
  intro g live same
  exact shows.mem_live_iff.mp live
    (Pool.contents_eq_none_iff.mpr (Pool.held?_eq_none_of_untaken found untaken same))

/-- The handle that a free buffer is given out under was never given out. -/
theorem notMem_issued (shows : s.Shows p back) (hp : p.Aged back) {slot : Nat}
    (found : p.buffers[slot]? = some b) (untaken : b.taken = false) :
    (⟨slot, b.generation⟩ : Handle) ∉ s.issued := by
  intro issued
  rcases shows.known _ issued with live | spent
  · exact shows.slot_ne_of_untaken found untaken _ live rfl
  · exact hp.not_spent_of_found found spent

theorem handingOut (shows : s.Shows p back) {slot : Nat} {free : List Nat}
    (found : p.buffers[slot]? = some b) (untaken : b.taken = false) :
    Shows { s with live := s.live.insert ⟨slot, b.generation⟩ [],
                   issued := insert ⟨slot, b.generation⟩ s.issued }
      (p.handingOut slot b free) back where
  capacity_eq := shows.capacity_eq.trans (Pool.capacity_handingOut p slot b free).symm
  size_eq := shows.size_eq
  lookup_eq g := by
    rw [Pool.contents_handingOut found untaken, Function.update_apply]
    by_cases equal : g = ⟨slot, b.generation⟩
    · rw [if_pos equal, equal, Finmap.lookup_insert]
    · rw [if_neg equal, Finmap.lookup_insert_of_ne _ equal, shows.lookup_eq]
  known g issued := by
    rw [Finmap.mem_insert]
    rcases Finset.mem_insert.mp issued with equal | before
    · exact .inl (.inl equal)
    · exact (shows.known g before).imp_left .inr

theorem written (shows : s.Shows p back) (held : p.held? h = some b) (payload : List UInt8) :
    Shows { s with live := s.live.insert h payload } (p.setBuffer h.slot (b.write payload))
      back where
  capacity_eq := shows.capacity_eq.trans (Pool.capacity_setBuffer p h.slot _).symm
  size_eq := shows.size_eq
  lookup_eq g := by
    rw [Pool.contents_written held, Function.update_apply]
    by_cases equal : g = h
    · rw [if_pos equal, equal, Finmap.lookup_insert]
    · rw [if_neg equal, Finmap.lookup_insert_of_ne _ equal, shows.lookup_eq]
  known g issued :=
    (shows.known g issued).imp_left fun before => Finmap.mem_insert.mpr (.inr before)

theorem takingBack (shows : s.Shows p back) (hp : p.Aged back) (held : p.held? h = some b) :
    Shows { s with live := s.live.erase h } (p.takingBack h.slot b) (back ++ [h]) where
  capacity_eq := shows.capacity_eq.trans (Pool.capacity_takingBack p h.slot b).symm
  size_eq := shows.size_eq
  lookup_eq g := by
    rw [Pool.contents_takingBack held, Function.update_apply]
    by_cases equal : g = h
    · rw [if_pos equal, equal, Finmap.lookup_erase]
    · rw [if_neg equal, Finmap.lookup_erase_ne equal, shows.lookup_eq]
  known g issued := by
    by_cases equal : g = h
    · rw [equal]
      exact .inr (hp.spent_of_released (shows.mem_live_iff.mp (shows.mem_live_of_held held)))
    · rcases shows.known g issued with live | spent
      · exact .inl (Finmap.mem_erase.mpr ⟨equal, live⟩)
      · exact .inr (spent.append _)

/-- What a pool answers when it is only looked at, the rules allow. -/
theorem read (shows : s.Shows p back) (h : Handle) :
    Step s (.read h) (.payload (p.read h)) s := by
  cases contents : p.contents h with
  | none =>
      rw [Pool.read_of_contents_eq_none contents]
      exact .readStale (shows.notMem_live_of_contents contents)
  | some payload =>
      rw [Pool.read_of_contents contents]
      exact .read ((shows.lookup_eq h).trans contents)

theorem payloadLength (shows : s.Shows p back) (h : Handle) :
    Step s (.payloadLength h) (.length (p.payloadLength h)) s := by
  rw [Pool.payloadLength]
  cases contents : p.contents h with
  | none =>
      rw [Pool.read_of_contents_eq_none contents]
      exact .lengthStale (shows.notMem_live_of_contents contents)
  | some payload =>
      rw [Pool.read_of_contents contents]
      exact .length ((shows.lookup_eq h).trans contents)

theorem copy (shows : s.Shows p back) (h : Handle) (out : List UInt8) :
    Step s (.copy h out) (.copied (p.copy h out).1 (p.copy h out).2) s := by
  cases contents : p.contents h with
  | none =>
      rw [Pool.copy_of_contents_eq_none contents]
      exact .copyStale (shows.notMem_live_of_contents contents)
  | some payload =>
      have live := (shows.lookup_eq h).trans contents
      rcases Nat.lt_or_ge out.length payload.length with large | fits
      · rw [Pool.copy_of_contents_of_lt contents large]
        exact .copyTooLarge live large
      · rw [Pool.copy_of_contents contents fits]
        exact .copy live fits

/-- Whatever a change of the pool answers, the rules allow, and the store that
they lead to shows the changed pool. -/
theorem step (shows : s.Shows p back) (hp : p.Aged back)
    (change : Pool.Change p operation answer q) :
    ∃ t, Step s operation answer t ∧ t.Shows q (back ++ Pool.returnedBy operation answer) := by
  have total := hp.consistent.freeCount_add_takenCount
  rw [← shows.card_live, ← shows.capacity_eq, Pool.freeCount] at total
  have keep : s.Shows p (back ++ []) := by
    rw [List.append_nil]
    exact shows
  cases change with
  | exhausted none =>
      rw [none, List.length_nil, Nat.zero_add] at total
      rw [← shows.capacity_eq]
      exact ⟨s, .exhausted total, keep⟩
  | acquired top found untaken =>
      rw [top, List.length_cons] at total
      refine ⟨_, .acquire (by omega) (shows.notMem_issued hp found untaken)
        (shows.slot_ne_of_untaken found untaken), ?_⟩
      change Shows _ _ (back ++ [])
      rw [List.append_nil]
      exact shows.handingOut found untaken
  | tooLarge large =>
      rw [← shows.size_eq] at large ⊢
      exact ⟨s, .writeTooLarge large, keep⟩
  | unwritten fits stale =>
      rw [← shows.size_eq] at fits
      exact ⟨s, .writeStale fits (shows.notMem_live_iff.mpr stale), keep⟩
  | written fits held =>
      rw [← shows.size_eq] at fits
      refine ⟨_, .write fits (shows.mem_live_of_held held), ?_⟩
      change Shows _ _ (back ++ [])
      rw [List.append_nil]
      exact shows.written held _
  | read => exact ⟨s, shows.read _, keep⟩
  | measured => exact ⟨s, shows.payloadLength _, keep⟩
  | copied => exact ⟨s, shows.copy _ _, keep⟩
  | unreleased stale => exact ⟨s, .releaseStale (shows.notMem_live_iff.mpr stale), keep⟩
  | released held =>
      exact ⟨_, .release (shows.mem_live_of_held held), shows.takingBack hp held⟩

/-- Whatever a run of the pool answers, the rules allow. -/
theorem run (shows : s.Shows p back) (hp : p.Aged back) (operations : List Operation)
    (bounded : Pool.WithinGenerations (back ++ Pool.returned operations (p.run operations).1)) :
    ∃ t, Run s operations (p.run operations).1 t ∧
      t.Shows (p.run operations).2 (back ++ Pool.returned operations (p.run operations).1) := by
  induction operations generalizing s p back with
  | nil =>
      refine ⟨s, .nil, ?_⟩
      rw [Pool.run_nil, Pool.returned_nil, List.append_nil]
      exact shows
  | cons operation operations ih =>
      rw [Pool.run_cons, Pool.returned_cons, ← List.append_assoc] at bounded ⊢
      have change := hp.consistent.change operation
      obtain ⟨t, first, shows'⟩ := shows.step hp change
      have hq := hp.change change (Pool.withinGenerations_of_append bounded)
      obtain ⟨u, others, shows''⟩ := ih shows' hq bounded
      exact ⟨u, .cons first others, shows''⟩

end Shows

/-- What is live was handed out. -/
def Recorded (s : Store) : Prop :=
  ∀ h ∈ s.live, h ∈ s.issued

theorem recorded_create (capacity size : Nat) : (create capacity size).Recorded :=
  fun _ live => absurd live Finmap.notMem_empty

theorem Step.recorded (step : Step s operation answer t) (hs : s.Recorded) : t.Recorded := by
  intro g live
  cases step with
  | acquire room fresh apart =>
      rcases Finmap.mem_insert.mp live with equal | before
      · exact Finset.mem_insert.mpr (.inl equal)
      · exact Finset.mem_insert_of_mem (hs g before)
  | write fits held =>
      rcases Finmap.mem_insert.mp live with equal | before
      · rw [equal]
        exact hs _ held
      · exact hs g before
  | release held => exact hs g (Finmap.mem_erase.mp live).2
  | _ => exact hs g live

/-- Only acquiring adds to what was handed out. -/
theorem Step.mem_issued_iff (step : Step s operation answer t) :
    g ∈ t.issued ↔ g ∈ s.issued ∨ g ∈ Pool.issuedBy answer := by
  cases step with
  | acquire room fresh apart => simp [Pool.issuedBy, or_comm]
  | _ => simp [Pool.issuedBy]

/-- What is live after a step: what was live or is handed out, and is not given
back. -/
theorem Step.mem_live_iff (step : Step s operation answer t) :
    g ∈ t.live ↔ (g ∈ s.live ∨ g ∈ Pool.issuedBy answer) ∧
      g ∉ Pool.returnedBy operation answer := by
  cases step with
  | acquire room fresh apart => simp [Pool.issuedBy, Pool.returnedBy, or_comm]
  | write fits live =>
      simp only [Finmap.mem_insert, Pool.issuedBy, Pool.returnedBy, List.not_mem_nil, or_false,
        not_false_eq_true, and_true, or_iff_right_iff_imp]
      rintro rfl
      exact live
  | release live => simp [Pool.issuedBy, Pool.returnedBy, and_comm]
  | _ => simp [Pool.issuedBy, Pool.returnedBy]

theorem Step.notMem_issued (step : Step s operation answer t)
    (given : g ∈ Pool.issuedBy answer) : g ∉ s.issued := by
  cases step with
  | acquire room fresh apart =>
      rw [List.mem_singleton.mp given]
      exact fresh
  | _ => exact absurd given List.not_mem_nil

theorem Step.mem_live_of_returned (step : Step s operation answer t)
    (back : g ∈ Pool.returnedBy operation answer) : g ∈ s.live := by
  cases step with
  | release live =>
      rw [List.mem_singleton.mp back]
      exact live
  | _ => exact absurd back List.not_mem_nil

/-- A run hands out nothing that was handed out before it. -/
theorem Run.notMem_issued (run : Run s operations answers t)
    (given : g ∈ Pool.issued answers) : g ∉ s.issued := by
  induction run with
  | nil => exact absurd given List.not_mem_nil
  | cons first others ih =>
      rcases List.mem_append.mp given with now | later
      · exact first.notMem_issued now
      · intro before
        exact ih later (first.mem_issued_iff.mpr (.inl before))

/-- No handle is handed out twice. -/
theorem Run.nodup_issued (run : Run s operations answers t) : (Pool.issued answers).Nodup := by
  induction run with
  | nil => exact List.nodup_nil
  | cons first others ih =>
      rw [Pool.issued_cons, List.nodup_append']
      refine ⟨Pool.nodup_issuedBy _, ih, ?_⟩
      intro g now later
      exact others.notMem_issued later (first.mem_issued_iff.mpr (.inr now))

/-- What a step takes back, no later step hands out. -/
theorem Run.notMem_returnedBy (first : Step s operation answer t) (hs : s.Recorded)
    (others : Run t operations answers u) (given : g ∈ Pool.issued answers) :
    g ∉ Pool.returnedBy operation answer := by
  intro back
  have before := hs g (first.mem_live_of_returned back)
  exact others.notMem_issued given (first.mem_issued_iff.mpr (.inl before))

/-- A run takes back only what was live or is handed out by it. -/
theorem Run.mem_live_or_issued (run : Run s operations answers t)
    (back : g ∈ Pool.returned operations answers) : g ∈ s.live ∨ g ∈ Pool.issued answers := by
  induction run with
  | nil => exact absurd back List.not_mem_nil
  | cons first others ih =>
      rw [Pool.issued_cons, List.mem_append]
      rcases List.mem_append.mp back with now | later
      · exact .inl (first.mem_live_of_returned now)
      · rcases ih later with live | given
        · rcases (first.mem_live_iff.mp live).1 with before | now
          · exact .inl before
          · exact .inr (.inl now)
        · exact .inr (.inr given)

/-- No handle is given back twice. -/
theorem Run.nodup_returned (run : Run s operations answers t) (hs : s.Recorded) :
    (Pool.returned operations answers).Nodup := by
  induction run with
  | nil => exact List.nodup_nil
  | cons first others ih =>
      rw [Pool.returned_cons, List.nodup_append']
      refine ⟨Pool.nodup_returnedBy _ _, ih (first.recorded hs), ?_⟩
      intro g now later
      rcases others.mem_live_or_issued later with live | given
      · exact (first.mem_live_iff.mp live).2 now
      · exact Run.notMem_returnedBy first hs others given now

/-- What is live after a run: what was live or was handed out, and was not
given back. -/
theorem Run.mem_live_iff (run : Run s operations answers t) (hs : s.Recorded) :
    g ∈ t.live ↔ (g ∈ s.live ∨ g ∈ Pool.issued answers) ∧
      g ∉ Pool.returned operations answers := by
  induction run with
  | nil => simp
  | cons first others ih =>
      have apart := fun given => Run.notMem_returnedBy first hs others (g := g) given
      rw [ih (first.recorded hs), first.mem_live_iff, Pool.issued_cons, Pool.returned_cons,
        List.mem_append, List.mem_append, not_or]
      constructor
      · rintro ⟨⟨held, kept⟩ | later, unreturned⟩
        · exact ⟨held.imp_right .inl, kept, unreturned⟩
        · exact ⟨.inr (.inr later), apart later, unreturned⟩
      · rintro ⟨live | now | later, kept, unreturned⟩
        · exact ⟨.inl ⟨.inl live, kept⟩, unreturned⟩
        · exact ⟨.inl ⟨.inr now, kept⟩, unreturned⟩
        · exact ⟨.inr later, unreturned⟩

end Store

namespace Pool

/-- Until a slot comes back 2^32 times, a new pool answers whatever is done to
it as a map from live handles to payloads does, and is that map: each handle is
handed out once and given back once, and is live in between. -/
theorem run_refines_store {capacity size : Nat} {operations : List Operation}
    {answers : List Answer} {p : Pool}
    (ran : (create capacity size).run operations = (answers, p))
    (bounded : WithinGenerations (returned operations answers)) :
    ∃ store : Store,
      Store.Run (Store.create capacity size) operations answers store ∧
      (∀ h, store.live.lookup h = p.contents h) ∧
      (issued answers).Nodup ∧ (returned operations answers).Nodup ∧
      ∀ h, h ∈ store.live ↔ h ∈ issued answers ∧ h ∉ returned operations answers := by
  have shows := (Store.shows_create capacity size).run (aged_create capacity size) operations
  rw [ran, List.nil_append] at shows
  obtain ⟨store, run, shown⟩ := shows bounded
  have recorded := Store.recorded_create capacity size
  refine ⟨store, run, shown.lookup_eq, run.nodup_issued, run.nodup_returned recorded, ?_⟩
  intro h
  have nothing : h ∉ (Store.create capacity size).live := Finmap.notMem_empty
  rw [run.mem_live_iff recorded, or_iff_right nothing]

/-- The only buffer is given back and handed out again; the old handle neither
gives it back a second time nor reaches what is in it. -/
def reuse : List Operation :=
  [.acquire, .write ⟨0, 0⟩ [1, 2, 3], .release ⟨0, 0⟩, .acquire, .write ⟨0, 1⟩ [7],
    .release ⟨0, 0⟩, .read ⟨0, 0⟩, .read ⟨0, 1⟩]

theorem run_refines_store_reuse :
    WithinGenerations (returned reuse ((create 1 4).run reuse).1) ∧
      ∃ store : Store, Store.Run (Store.create 1 4) reuse ((create 1 4).run reuse).1 store ∧
        store.live.lookup ⟨0, 0⟩ = none ∧ store.live.lookup ⟨0, 1⟩ = some [7] := by
  have bounded : WithinGenerations (returned reuse ((create 1 4).run reuse).1) :=
    withinGenerations_of_length_lt (by decide)
  obtain ⟨store, run, lookup, -⟩ := run_refines_store (p := ((create 1 4).run reuse).2) rfl bounded
  exact ⟨bounded, store, run, (lookup _).trans (by decide), (lookup _).trans (by decide)⟩

end Pool

end UpdateBridge
