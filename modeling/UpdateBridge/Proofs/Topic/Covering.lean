import UpdateBridge.Proofs.Topic.Language

/-!
# Covering of filters

One filter covers another if it takes every name the other takes. The matcher
decides this by itself, with the narrow filter read as a name: a wildcard level
there is matched by a wildcard level only, or left to a `#` at the end.

A narrow filter whose last level is `#` is out of reach: read as a name it has a
single level where it stands for any number of them.
-/

namespace UpdateBridge

namespace Topic

variable {filters names wide : List Level}

/-- A filter takes itself, read as a name. -/
theorem levelsMatch_self (filters : List Level) : levelsMatch filters filters = true := by
  induction filters with
  | nil => rfl
  | cons level others ih => simp [levelsMatch, ih]

/-- What takes a filter takes all the names that the filter stands for level by
level. -/
theorem levelsMatch_of_forall₂ (stand : List.Forall₂ Stands filters names)
    (matched : levelsMatch wide filters = true) : levelsMatch wide names = true := by
  induction stand generalizing wide with
  | nil => exact matched
  | @cons level text filters names stands others ih =>
      cases wide with
      | nil => cases matched
      | cons expected wide =>
          simp only [levelsMatch, Bool.or_eq_true, Bool.and_eq_true, beq_iff_eq] at matched ⊢
          obtain last | ⟨taken, matched⟩ := matched
          · exact .inl last
          · refine .inr ⟨?_, ih matched⟩
            obtain any | same := taken
            · exact .inl any
            · subst same
              unfold Stands at stands
              split at stands
              · next any => exact .inl any
              · exact .inr stands.symm

/-- Matching is transitive through filters that do not end in `#`. -/
theorem matchesFilter_trans {name narrow broad : String} (closed : ¬EndsInRest narrow.toList)
    (inner : matchesFilter name narrow = .ok true)
    (outer : matchesFilter narrow broad = .ok true) : matchesFilter name broad = .ok true := by
  have named : name ≠ "" := (nonempty_of_eq_ok inner).1
  have some : broad ≠ "" := (nonempty_of_eq_ok outer).2
  have stand : List.Forall₂ Stands (levels narrow.toList) (levels name.toList) :=
    (levelsMatch_iff_forall₂ (mt getLast?_levels_eq_anyRest_iff.mp closed)
      fun _ => separator_notMem).mp (levelsMatch_of_eq_ok inner)
  rw [matchesFilter_eq_ok (by simpa using named) (by simpa using some)]
  exact congrArg _ (levelsMatch_of_forall₂ stand (levelsMatch_of_eq_ok outer))

theorem matchesFilter_self {filter : String} (some : filter ≠ "") :
    matchesFilter filter filter = .ok true := by
  rw [matchesFilter_eq_ok (by simpa using some) (by simpa using some)]
  exact congrArg _ (levelsMatch_self _)

/-- Every filter takes itself as a name. One that does not end in `#` is covered
by exactly the filters that take it as a name. -/
theorem covered_iff_matchesFilter (narrow broad : String) (some : narrow ≠ "") :
    matchesFilter narrow narrow = .ok true ∧
      (¬EndsInRest narrow.toList →
        ((∀ name, name ≠ "" → matchesFilter name narrow = .ok true →
            matchesFilter name broad = .ok true) ↔
          matchesFilter narrow broad = .ok true)) := by
  refine ⟨matchesFilter_self some, ?_⟩
  intro closed
  constructor
  · intro covered
    exact covered narrow some (matchesFilter_self some)
  · intro outer name _ inner
    exact matchesFilter_trans closed inner outer

/-- The last level here is no wildcard, although it holds a `#`. -/
theorem covered_inside_level :
    (∀ name, name ≠ "" → matchesFilter name "a/+/n#" = .ok true →
        matchesFilter name "+/#" = .ok true) ∧
      ¬∀ name, name ≠ "" → matchesFilter name "a/+/n#" = .ok true →
        matchesFilter name "a/b/+" = .ok true := by
  have closed : ¬EndsInRest "a/+/n#".toList :=
    mt getLast?_levels_eq_anyRest_iff.mpr (by decide +kernel)
  constructor
  · exact ((covered_iff_matchesFilter "a/+/n#" "+/#" (by decide)).2 closed).mpr (by decide +kernel)
  · intro covered
    have taken :=
      ((covered_iff_matchesFilter "a/+/n#" "a/b/+" (by decide)).2 closed).mp covered
    revert taken
    decide +kernel

/-- With a `#` at the end the narrow filter stands for more than it is as a name. -/
example :
    matchesFilter "a/#" "a/+" = .ok true ∧ matchesFilter "a" "a/#" = .ok true ∧
      matchesFilter "a" "a/+" = .ok false := by
  decide +kernel

end Topic

end UpdateBridge
