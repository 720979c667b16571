import UpdateBridge.Proofs.Pool.Store

/-!
# When a handle becomes live and when it dies

A handle becomes live only by being acquired and dies only by being given back:
`live_run` and `dead_run` say so for any operations in between. So as long as
generations tell handles apart, every handle that was ever handed out is either
live or spent for good (`live_or_spent_of_issued`), and a buffer that is handed
out next comes under a handle that nobody has seen before
(`notMem_issued_of_acquire`).
-/

namespace UpdateBridge

namespace Store

variable {s t : Store} {h : Handle} {operations : List Pool.Operation}
variable {answers : List Pool.Answer}

/-- A store keeps a record of every handle that a run hands out. -/
theorem Run.mem_issued (run : Run s operations answers t)
    (given : h ∈ s.issued ∨ h ∈ Pool.issued answers) : h ∈ t.issued := by
  induction run with
  | nil => exact given.resolve_right List.not_mem_nil
  | cons first others ih =>
      apply ih
      rw [first.mem_issued_iff]
      obtain before | now := given
      · exact .inl (.inl before)
      · obtain now | later := List.mem_append.mp now
        · exact .inl (.inr now)
        · exact .inr later

end Store

namespace Pool

variable {p q : Pool} {h : Handle} {operation : Operation} {operations : List Operation}

/-- What is live dies only by being given back. -/
theorem Change.live_of_kept {answer : Answer} (change : Change p operation answer q)
    (live : p.contents h ≠ none) (kept : operation ≠ .release h) : q.contents h ≠ none := by
  cases change with
  | @acquired slot free b top found untaken =>
      rw [contents_handingOut found untaken, Function.update_apply]
      split
      · exact Option.some_ne_none _
      · exact live
  | @written g octets b fits held =>
      rw [contents_written held, Function.update_apply]
      split
      · exact Option.some_ne_none _
      · exact live
  | @released g b held =>
      have other : h ≠ g := fun same => kept (by rw [same])
      rw [contents_takingBack held, Function.update_of_ne other]
      exact live
  | _ => exact live

/-- What is not live becomes so only by being acquired. -/
theorem Change.dead_of_kept {answer : Answer} (change : Change p operation answer q)
    (dead : p.contents h = none) (kept : operation ≠ .acquire) : q.contents h = none := by
  cases change with
  | acquired => exact absurd rfl kept
  | @written g octets b fits held =>
      have other : h ≠ g := by
        rintro rfl
        rw [contents_eq_none_iff, held] at dead
        cases dead
      rw [contents_written held, Function.update_of_ne other, dead]
  | @released g b held =>
      rw [contents_takingBack held, Function.update_apply, dead, ite_self]
  | _ => exact dead

theorem live_run (hp : p.Consistent) (live : p.contents h ≠ none)
    (kept : .release h ∉ operations) : (p.run operations).2.contents h ≠ none := by
  induction operations generalizing p with
  | nil => exact live
  | cons operation operations ih =>
      have change := hp.change operation
      have first : operation ≠ .release h := fun same => kept (same ▸ List.mem_cons_self)
      exact ih (change.consistent hp) (change.live_of_kept live first)
        fun later => kept (List.mem_cons_of_mem operation later)

theorem dead_run (hp : p.Consistent) (dead : p.contents h = none)
    (kept : .acquire ∉ operations) : (p.run operations).2.contents h = none := by
  induction operations generalizing p with
  | nil => exact dead
  | cons operation operations ih =>
      have change := hp.change operation
      have first : operation ≠ .acquire := fun same => kept (same ▸ List.mem_cons_self)
      exact ih (change.consistent hp) (change.dead_of_kept dead first)
        fun later => kept (List.mem_cons_of_mem operation later)

/-- A handle that was given back is not live afterwards. -/
theorem dead_run_releases {handles : List Handle} (hp : p.Consistent) (member : h ∈ handles) :
    (p.run (handles.map .release)).2.contents h = none := by
  induction handles generalizing p with
  | nil => cases member
  | cons g handles ih =>
      have consistent : (p.release g).2.Consistent := hp.run [.release g]
      change ((p.release g).2.run (handles.map .release)).2.contents h = none
      obtain rfl | later := List.mem_cons.mp member
      · have dead : (p.release h).2.contents h = none := by
          rw [hp.contents_release, Function.update_self]
        exact dead_run consistent dead (by simp)
      · exact ih consistent later

theorem issued_append (p : Pool) (first second : List Operation) :
    issued (p.run (first ++ second)).1 =
      issued (p.run first).1 ++ issued ((p.run first).2.run second).1 := by
  induction first generalizing p with
  | nil => rfl
  | cons operation first ih => simp [ih]

theorem returned_append (p : Pool) (first second : List Operation) :
    returned (first ++ second) (p.run (first ++ second)).1 =
      returned first (p.run first).1 ++ returned second ((p.run first).2.run second).1 := by
  induction first generalizing p with
  | nil => rfl
  | cons operation first ih => simp [ih]

/-- Every handle that was handed out is live, or spent for good. -/
theorem live_or_spent_of_issued {capacity size : Nat}
    (bounded : WithinGenerations (returned operations ((create capacity size).run operations).1))
    (given : h ∈ issued ((create capacity size).run operations).1) :
    ((create capacity size).run operations).2.contents h ≠ none ∨
      Spent (returned operations ((create capacity size).run operations).1) h := by
  have start := Store.shows_create capacity size
  obtain ⟨store, run, shows⟩ := start.run (aged_create capacity size) operations bounded
  obtain live | spent := shows.known h (run.mem_issued (.inr given))
  · exact .inl (shows.mem_live_iff.mp live)
  · exact .inr spent

/-- The next handle is a new one. -/
theorem notMem_issued_of_acquire {capacity size : Nat}
    (bounded : WithinGenerations (returned operations ((create capacity size).run operations).1))
    (acquired : ((create capacity size).run operations).2.acquire = (.ok h, q))
    (unused : ((create capacity size).run operations).2.contents h = none) :
    h ∉ issued ((create capacity size).run operations).1 := by
  intro given
  have aged := (aged_create capacity size).run operations bounded
  obtain live | spent := live_or_spent_of_issued bounded given
  · exact live unused
  · exact aged.not_spent_of_acquire acquired spent

/-- What was handed out and is not live stays so when another buffer is handed
out. -/
theorem dead_acquire_of_issued {capacity size : Nat}
    (bounded : WithinGenerations (returned operations ((create capacity size).run operations).1))
    (given : h ∈ issued ((create capacity size).run operations).1)
    (dead : ((create capacity size).run operations).2.contents h = none) :
    ((create capacity size).run operations).2.acquire.2.contents h = none := by
  have hp := (consistent_create capacity size).run operations
  obtain exhausted | ⟨g, q, acquired, -, -, unused, contents⟩ := hp.acquire_cases
  · rw [exhausted, dead]
  · have other : h ≠ g := by
      rintro rfl
      exact notMem_issued_of_acquire bounded acquired unused given
    rw [acquired, contents, Function.update_of_ne other, dead]

end Pool

end UpdateBridge
