import UpdateBridge.Fault
import UpdateBridge.Topic.Level

/-!
# Matching a topic name against a filter

A filter is a topic whose levels may be wildcards. `+` stands for exactly one
level, which may be empty; `#` stands for the level above it and everything
below, and only as the last level. Both are wildcards only where they fill a
whole level; everywhere else they are ordinary characters, as they always are
in a name.

`levelsMatch` decides this level by level. `matchesFilter` is the same on
texts, where neither the name nor the filter may be empty.
-/

namespace UpdateBridge

namespace Topic

/-- The level that stands for any one level. -/
def anyLevel : Level := ['+']

/-- The level that stands for all that follows, as the last level of a filter. -/
def anyRest : Level := ['#']

/-- Whether the levels of a filter match the levels of a name. -/
def levelsMatch : List Level → List Level → Bool
  | [], [] => true
  | [], _ :: _ => false
  | expected :: filter, [] => expected == anyRest && filter.isEmpty
  | expected :: filter, level :: name =>
    (expected == anyRest && filter.isEmpty) ||
      ((expected == anyLevel || expected == level) && levelsMatch filter name)

/-- Whether the name matches the filter. An empty name is reported before an
empty filter. -/
def matchesFilter (name filter : String) : Except Fault Bool :=
  if name.isEmpty then .error (.invalidArgument "topic name is empty")
  else if filter.isEmpty then .error (.invalidArgument "topic filter is empty")
  else .ok (levelsMatch (levels filter.toList) (levels name.toList))

/-- Whether the filter takes this name; where matching fails it does not. -/
def covers (filter name : String) : Bool :=
  match matchesFilter name filter with
  | .ok answer => answer
  | .error _ => false

@[simp] theorem levelsMatch_nil : levelsMatch [] [] = true := rfl

@[simp] theorem levelsMatch_anyRest (name : List Level) : levelsMatch [anyRest] name = true := by
  cases name <;> simp [levelsMatch]

/-- A wildcard level takes any one level. -/
theorem levelsMatch_anyLevel_cons {filter : List Level} (level : Level) (name : List Level) :
    levelsMatch (anyLevel :: filter) (level :: name) = levelsMatch filter name := by
  simp [levelsMatch, anyLevel, anyRest]

/-- A level that is no wildcard takes only itself. -/
theorem levelsMatch_cons_cons {expected : Level} (hany : expected ≠ anyLevel)
    (hrest : expected ≠ anyRest) (filter : List Level) (level : Level) (name : List Level) :
    levelsMatch (expected :: filter) (level :: name) =
      (expected == level && levelsMatch filter name) := by
  have notAny : (expected == anyLevel) = false := beq_false_of_ne hany
  have notRest : (expected == anyRest) = false := beq_false_of_ne hrest
  simp [levelsMatch, notAny, notRest]

/-- Where a filter goes on, `#` is a level like any other. -/
theorem levelsMatch_cons_of_ne_nil (expected : Level) {others : List Level} (more : others ≠ [])
    (level : Level) (name : List Level) :
    levelsMatch (expected :: others) (level :: name) =
      ((expected == anyLevel || expected == level) && levelsMatch others name) := by
  obtain ⟨next, rest, rfl⟩ := List.exists_cons_of_ne_nil more
  simp [levelsMatch]

theorem levelsMatch_nil_of_ne_nil (expected : Level) {others : List Level} (more : others ≠ []) :
    levelsMatch (expected :: others) [] = false := by
  obtain ⟨next, rest, rfl⟩ := List.exists_cons_of_ne_nil more
  simp [levelsMatch]

theorem matchesFilter_eq_ok {name filter : String} (hn : name.isEmpty = false)
    (hf : filter.isEmpty = false) :
    matchesFilter name filter =
      .ok (levelsMatch (levels filter.toList) (levels name.toList)) := by
  simp [matchesFilter, hn, hf]

theorem levelsMatch_of_eq_ok {name filter : String} {answer : Bool}
    (h : matchesFilter name filter = .ok answer) :
    levelsMatch (levels filter.toList) (levels name.toList) = answer := by
  unfold matchesFilter at h
  split at h
  · cases h
  · split at h
    · cases h
    · exact Except.ok.inj h

theorem covers_iff {filter name : String} :
    covers filter name = true ↔ matchesFilter name filter = .ok true := by
  unfold covers
  split
  · next answer matched => rw [matched, Except.ok.injEq]
  · next fault failed => simp [failed]

/-- The empty name is taken by no filter. -/
theorem covers_empty (filter : String) : covers filter "" = false := rfl

/-- A name that is not taken fails to match without a fault, unless one of the
two is empty. -/
theorem matchesFilter_of_not_covers {filter name : String} (named : name ≠ "") (some : filter ≠ "")
    (uncovered : ¬covers filter name = true) : matchesFilter name filter = .ok false := by
  rw [covers_iff] at uncovered
  rw [matchesFilter_eq_ok (by simpa using named) (by simpa using some)] at uncovered ⊢
  simpa using uncovered

end Topic

end UpdateBridge
