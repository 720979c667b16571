import UpdateBridge.Proofs.Pool.Contents

/-!
# Operations that fail change nothing

`Answer.fault?` is the fault of an answer, whatever the operation. Where there
is one, the pool is left exactly as it was: every buffer with its octets, its
length, its mark and its generation, and the stack in its order. So a failed
operation can be struck from a history without a trace, and all of them
together (`run_succeeded`).

For `release` this rests on consistency. It marks the buffer before it knows
whether the stack has room, and only the agreement of the two records rules out
that the stack is full while a buffer is held.
-/

namespace UpdateBridge

def Pool.Answer.fault? : Pool.Answer → Option Fault
  | .acquired (.error fault) => some fault
  | .length (.error fault) => some fault
  | .payload (.error fault) => some fault
  | .copied (.error fault) _ => some fault
  | .released (.error fault) => some fault
  | _ => none

namespace Pool

variable {p q : Pool} {h : Handle} {operation : Operation} {answer : Answer}

/-- The operations that were answered without a fault. -/
def succeeded (operations : List Operation) (answers : List Answer) : List Operation :=
  ((operations.zip answers).filter fun entry => entry.2.fault?.isNone).map Prod.fst

theorem succeeded_cons (operation : Operation) (operations : List Operation) (answer : Answer)
    (answers : List Answer) :
    succeeded (operation :: operations) (answer :: answers) =
      if answer.fault?.isNone then operation :: succeeded operations answers
      else succeeded operations answers := by
  simp only [succeeded, List.zip_cons_cons, List.filter_cons]
  split <;> rfl

theorem Change.eq_of_fault {fault : Fault} (change : Change p operation answer q)
    (failed : answer.fault? = some fault) : q = p := by
  cases change with
  | acquired => cases failed
  | written => cases failed
  | released => cases failed
  | _ => rfl

theorem Consistent.apply_of_fault {fault : Fault} (hp : p.Consistent)
    (failed : (p.apply operation).1.fault? = some fault) : (p.apply operation).2 = p :=
  (hp.change operation).eq_of_fault failed

/-- Without consistency a failed `release` may leave the buffer marked as free. -/
example :
    let p : Pool := ⟨0, [⟨[], 0, true, 0⟩], [0]⟩
    (p.apply (.release ⟨0, 0⟩)).1.fault? = some (.doubleRelease 0) ∧
      (p.apply (.release ⟨0, 0⟩)).2.buffers = [⟨[], 0, false, 1⟩] := by
  decide

theorem length_answers (p : Pool) (operations : List Operation) :
    (p.run operations).1.length = operations.length := by
  induction operations generalizing p with
  | nil => rfl
  | cons operation operations ih => exact congrArg (· + 1) (ih (p.apply operation).2)

theorem answers_append (p : Pool) (first second : List Operation) :
    (p.run (first ++ second)).1 = (p.run first).1 ++ ((p.run first).2.run second).1 := by
  induction first generalizing p with
  | nil => rfl
  | cons operation operations ih => exact congrArg (_ :: ·) (ih (p.apply operation).2)

/-- The operations that succeeded, done by themselves, are answered as before
and leave the same pool. -/
theorem Consistent.run_succeeded (hp : p.Consistent) (operations : List Operation) :
    p.run (succeeded operations (p.run operations).1) =
      ((p.run operations).1.filter fun answer => answer.fault?.isNone, (p.run operations).2) := by
  induction operations generalizing p with
  | nil => rfl
  | cons operation operations ih =>
      have change := hp.change operation
      have others := ih (change.consistent hp)
      rw [run_cons, succeeded_cons, List.filter_cons]
      cases failed : (p.apply operation).1.fault? with
      | none =>
          change p.run (operation :: succeeded operations _) = _
          rw [run_cons, others]
          rfl
      | some fault =>
          have same : (p.apply operation).2 = p := hp.apply_of_fault failed
          rw [same] at others ⊢
          exact others

/-- Copying changes nothing of `out` on a fault, and its front only otherwise. -/
theorem copy_frame {out out' : List UInt8} {result : Except Fault Nat}
    (copied : p.copy h out = (result, out')) :
    match result with
    | .error _ => out' = out
    | .ok length => length ≤ out.length ∧ p.contents h = some (out'.take length) ∧
        out'.drop length = out.drop length ∧ out'.length = out.length := by
  cases live : p.contents h with
  | none =>
      obtain ⟨rfl, rfl⟩ := Prod.mk.inj ((copy_of_contents_eq_none live).symm.trans copied)
      rfl
  | some payload =>
      rcases Nat.lt_or_ge out.length payload.length with large | fits
      · obtain ⟨rfl, rfl⟩ := Prod.mk.inj ((copy_of_contents_of_lt live large).symm.trans copied)
        rfl
      · obtain ⟨rfl, rfl⟩ := Prod.mk.inj ((copy_of_contents live fits).symm.trans copied)
        refine ⟨fits, ?_, ?_, ?_⟩
        · rw [List.take_left]
        · rw [List.drop_left]
        · rw [List.length_append, List.length_drop]
          omega

/-- In every pool that can come about, an operation that fails, whatever its
handle and its argument, leaves the pool as it was, and whatever is done later
is answered as if it had never been called. -/
theorem failed_operation_is_no_operation (capacity size : Nat) (before : List Operation) :
    let start := create capacity size
    let p := (start.run before).2
    (∀ operation fault, (p.apply operation).1.fault? = some fault →
      (p.apply operation).2 = p ∧ ∀ after,
        (start.run (before ++ operation :: after)).2 = (start.run (before ++ after)).2 ∧
          (start.run (before ++ operation :: after)).1.eraseIdx before.length =
            (start.run (before ++ after)).1) ∧
      (∀ h out fault out', p.copy h out = (.error fault, out') → out' = out) ∧
      ∀ h out length out', p.copy h out = (.ok length, out') →
        length ≤ out.length ∧ p.contents h = some (out'.take length) ∧
          out'.drop length = out.drop length ∧ out'.length = out.length := by
  intro start p
  refine ⟨?_, fun h out fault out' => copy_frame, fun h out length out' => copy_frame⟩
  intro operation fault failed
  have hp : p.Consistent := (consistent_create capacity size).run before
  have same : (p.apply operation).2 = p := hp.apply_of_fault failed
  refine ⟨same, ?_⟩
  intro after
  have later : (p.run (operation :: after)).2 = (p.run after).2 ∧
      (p.run (operation :: after)).1.eraseIdx 0 = (p.run after).1 := by
    rw [run_cons, same]
    exact ⟨rfl, rfl⟩
  constructor
  · rw [run_append, run_append]
    exact later.1
  · rw [answers_append, answers_append,
      List.eraseIdx_append_of_length_le (Nat.le_of_eq (length_answers start before)),
      length_answers, Nat.sub_self]
    exact congrArg _ later.2

/-- The slot was given back and taken again. Neither the old handle nor a place
that is too short disturbs the new holder. -/
theorem stale_release_is_no_operation :
    let start := create 1 4
    let before : List Operation :=
      [.acquire, .write ⟨0, 0⟩ [1, 2, 0], .release ⟨0, 0⟩, .acquire, .write ⟨0, 1⟩ [3, 4]]
    let after : List Operation := [.copy ⟨0, 1⟩ [7, 8, 9], .release ⟨0, 1⟩, .acquire]
    let p := (start.run before).2
    (p.apply (.release ⟨0, 0⟩)).1.fault? = some (.doubleRelease 0) ∧
      (p.apply (.release ⟨0, 0⟩)).2 = p ∧
      (start.run (before ++ .release ⟨0, 0⟩ :: after)).1.eraseIdx 5 =
        (start.run (before ++ after)).1 ∧
      (p.copy ⟨0, 1⟩ [8]).1 = .error (.tooLarge 1 2) ∧ (p.copy ⟨0, 1⟩ [8]).2 = [8] ∧
      p.copy ⟨0, 1⟩ [7, 8, 9] = (.ok 2, [3, 4, 9]) ∧ p.contents ⟨0, 1⟩ = some [3, 4] := by
  intro start before after p
  obtain ⟨atomic, short, whole⟩ := failed_operation_is_no_operation 1 4 before
  have failed : (p.apply (.release ⟨0, 0⟩)).1.fault? = some (.doubleRelease 0) := by decide +kernel
  have tooShort : (p.copy ⟨0, 1⟩ [8]).1 = .error (.tooLarge 1 2) := by decide +kernel
  have copied : p.copy ⟨0, 1⟩ [7, 8, 9] = (.ok 2, [3, 4, 9]) := by decide +kernel
  obtain ⟨same, later⟩ := atomic _ _ failed
  obtain ⟨-, front, -, -⟩ := whole _ _ _ _ copied
  exact ⟨failed, same, (later after).2, tooShort, short _ _ _ _ (Prod.ext tooShort rfl), copied,
    front⟩

end Pool

end UpdateBridge
