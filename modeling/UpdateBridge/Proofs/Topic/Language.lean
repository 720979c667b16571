import Mathlib.Data.List.Forall2
import UpdateBridge.Topic.Matching

/-!
# The names that a filter stands for

`Produces` says on whole texts which names a filter stands for, without cutting
either of them into levels: every `+` that fills a level is replaced by some
text without separators, and a `/#` at the end by nothing or by a separator and
any text. All other characters of the filter stand for themselves, a `#` that
fills a level before the last among them, and no character of the name has a
meaning of its own.

`produces_iff` ties this to the comparison level by level. A filter is taken
apart at its end, where `#` is a wildcard, and at its front, where it is not:
`levelsMatch_iff_forall₂` and `levelsMatch_append_anyRest` are the two cases.
-/

namespace UpdateBridge

namespace Topic

variable {filter name pattern text : List Char} {level : Level} {front : List Level}

/-- What a level of a filter stands for in a name: `+` for any text without
separators, and every other level for itself. -/
def Stands (level text : List Char) : Prop :=
  if level = anyLevel then separator ∉ text else text = level

/-- The text is the pattern with every level replaced by something that it
stands for. No level is more than that here, wherever it is. -/
inductive Fills : List Char → List Char → Prop
  | last {level text : List Char} (whole : separator ∉ level) (stands : Stands level text) :
      Fills level text
  | cons {level text pattern rest : List Char} (whole : separator ∉ level)
      (stands : Stands level text) (others : Fills pattern rest) :
      Fills (level ++ separator :: pattern) (text ++ separator :: rest)

/-- Whether the last level of a filter is `#`. -/
def EndsInRest (filter : List Char) : Prop :=
  filter = anyRest ∨ ∃ front, filter = front ++ separator :: anyRest

/-- The name can be produced from the filter. -/
inductive Produces : List Char → List Char → Prop
  | filled {filter name : List Char} (closed : ¬EndsInRest filter) (fills : Fills filter name) :
      Produces filter name
  /-- The `/#` is replaced by nothing. -/
  | parent {front name : List Char} (fills : Fills front name) :
      Produces (front ++ separator :: anyRest) name
  | below {front above : List Char} (fills : Fills front above) (rest : List Char) :
      Produces (front ++ separator :: anyRest) (above ++ separator :: rest)
  | everything (name : List Char) : Produces anyRest name

theorem separator_notMem_of_stands (whole : separator ∉ level) (stands : Stands level text) :
    separator ∉ text := by
  unfold Stands at stands
  split at stands
  · exact stands
  · rwa [stands]

theorem stands_iff (whole : separator ∉ text) :
    Stands level text ↔ level = anyLevel ∨ level = text := by
  unfold Stands
  split
  · next any => exact ⟨fun _ => .inl any, fun _ => whole⟩
  · next other =>
      rw [or_iff_right other]
      exact eq_comm

theorem stands_of_ne (plain : level ≠ anyLevel) : Stands level text ↔ text = level := by
  simp [Stands, plain]

/-- Without `+` a filter stands for nothing but itself, level by level. -/
theorem forall₂_stands_iff_eq {patterns texts : List Level} (plain : anyLevel ∉ patterns) :
    List.Forall₂ Stands patterns texts ↔ texts = patterns := by
  induction patterns generalizing texts with
  | nil => simp
  | cons level patterns ih =>
      obtain ⟨here, later⟩ := not_or.mp (mt List.mem_cons.mpr plain)
      simp [List.forall₂_cons_left_iff, stands_of_ne (Ne.symm here), ih later]

/-- With a single `+` it stands for what has any one level in that place. -/
theorem forall₂_stands_append_iff {back texts : List Level} (plain : anyLevel ∉ front)
    (plain' : anyLevel ∉ back) :
    List.Forall₂ Stands (front ++ anyLevel :: back) texts ↔
      ∃ level, separator ∉ level ∧ texts = front ++ level :: back := by
  induction front generalizing texts with
  | nil => simp [List.forall₂_cons_left_iff, forall₂_stands_iff_eq plain', Stands]
  | cons level front ih =>
      obtain ⟨here, later⟩ := not_or.mp (mt List.mem_cons.mpr plain)
      simp [List.forall₂_cons_left_iff, stands_of_ne (Ne.symm here), ih later]

theorem forall₂_stands_of_fills (fills : Fills pattern text) :
    List.Forall₂ Stands (levels pattern) (levels text) := by
  induction fills with
  | last whole stands =>
      rw [levels_of_notMem whole, levels_of_notMem (separator_notMem_of_stands whole stands)]
      exact .cons stands .nil
  | cons whole stands others ih =>
      rw [levels_append_separator whole,
        levels_append_separator (separator_notMem_of_stands whole stands)]
      exact .cons stands ih

theorem fills_of_forall₂_stands {patterns texts : List Level}
    (stand : List.Forall₂ Stands patterns texts) (some : patterns ≠ [])
    (whole : ∀ level ∈ patterns, separator ∉ level) :
    Fills (joinLevels patterns) (joinLevels texts) := by
  induction stand with
  | nil => exact absurd rfl some
  | @cons level text patterns texts stands others ih =>
      have alone := whole level List.mem_cons_self
      cases others with
      | nil => exact .last alone stands
      | cons next others =>
          rw [joinLevels_cons _ (List.cons_ne_nil _ _), joinLevels_cons _ (List.cons_ne_nil _ _)]
          refine .cons alone stands (ih (List.cons_ne_nil _ _) ?_)
          intro level member
          exact whole level (List.mem_cons_of_mem _ member)

/-- Filling a pattern is filling its levels one by one. -/
theorem fills_iff :
    Fills pattern text ↔ List.Forall₂ Stands (levels pattern) (levels text) := by
  refine ⟨forall₂_stands_of_fills, ?_⟩
  intro stand
  have fills := fills_of_forall₂_stands stand (levels_ne_nil pattern) fun _ => separator_notMem
  rwa [joinLevels_levels, joinLevels_levels] at fills

/-- A filter that does not end in `#` is compared level by level and no
further. -/
theorem levelsMatch_iff_forall₂ {filters names : List Level}
    (closed : filters.getLast? ≠ some anyRest) (whole : ∀ level ∈ names, separator ∉ level) :
    levelsMatch filters names = true ↔ List.Forall₂ Stands filters names := by
  induction filters generalizing names with
  | nil => cases names <;> simp [levelsMatch]
  | cons expected others ih =>
      cases names with
      | nil =>
          rw [List.forall₂_nil_right_iff, iff_false_right (List.cons_ne_nil _ _)]
          cases others with
          | nil =>
              have level : expected ≠ anyRest := fun rest => closed (congrArg some rest)
              simp [levelsMatch, level]
          | cons next others => simp [levelsMatch]
      | cons level names =>
          have stands : Stands expected level ↔ _ := stands_iff (whole level List.mem_cons_self)
          have later : ∀ level ∈ names, separator ∉ level := by
            intro level member
            exact whole level (List.mem_cons_of_mem _ member)
          rw [List.forall₂_cons, stands]
          cases others with
          | nil =>
              have last : expected ≠ anyRest := fun rest => closed (congrArg some rest)
              have others := @ih names (by simp) later
              simp [levelsMatch, last, others]
          | cons next others =>
              have others := @ih names (by simpa using closed) later
              rw [levelsMatch_cons_of_ne_nil expected (List.cons_ne_nil _ _), ← others]
              simp

/-- A filter that ends in `#` takes the names that begin like it. -/
theorem levelsMatch_append_anyRest {names : List Level}
    (whole : ∀ level ∈ names, separator ∉ level) :
    levelsMatch (front ++ [anyRest]) names = true ↔
      ∃ taken rest, names = taken ++ rest ∧ List.Forall₂ Stands front taken := by
  induction front generalizing names with
  | nil =>
      rw [List.nil_append, levelsMatch_anyRest]
      exact iff_of_true rfl ⟨[], names, rfl, .nil⟩
  | cons expected front ih =>
      have more : front ++ [anyRest] ≠ [] := List.append_ne_nil_of_right_ne_nil _ (by simp)
      rw [List.cons_append]
      cases names with
      | nil =>
          rw [levelsMatch_nil_of_ne_nil expected more]
          refine iff_of_false Bool.false_ne_true ?_
          rintro ⟨taken, rest, empty, stand⟩
          rw [(List.append_eq_nil_iff.mp empty.symm).1] at stand
          cases stand
      | cons level names =>
          have stands : Stands expected level ↔ _ := stands_iff (whole level List.mem_cons_self)
          have others := ih fun level member => whole level (List.mem_cons_of_mem _ member)
          rw [levelsMatch_cons_of_ne_nil expected more, Bool.and_eq_true, others]
          constructor
          · rintro ⟨first, taken, rest, rfl, stand⟩
            exact ⟨level :: taken, rest, rfl, .cons (stands.mpr (by simpa using first)) stand⟩
          · rintro ⟨taken, rest, cut, stand⟩
            obtain _ | ⟨first, stand⟩ := stand
            obtain ⟨rfl, rfl⟩ := List.cons.inj cut
            exact ⟨by simpa using stands.mp first, _, rest, rfl, stand⟩

theorem levels_anyRest : levels anyRest = [anyRest] := rfl

theorem getLast?_levels_eq_anyRest_iff :
    (levels filter).getLast? = some anyRest ↔ EndsInRest filter := by
  constructor
  · intro last
    obtain ⟨front, cut⟩ := List.getLast?_eq_some_iff.mp last
    have text := joinLevels_levels filter
    rw [cut] at text
    by_cases none : front = []
    · rw [none] at text
      exact .inl text.symm
    · rw [joinLevels_append none (by simp)] at text
      exact .inr ⟨joinLevels front, text.symm⟩
  · rintro (rfl | ⟨front, rfl⟩)
    · rfl
    · rw [levels_append, levels_anyRest, List.getLast?_concat]

theorem levelsMatch_of_produces (produces : Produces filter name) :
    levelsMatch (levels filter) (levels name) = true := by
  have whole : ∀ level ∈ levels name, separator ∉ level := fun _ => separator_notMem
  cases produces with
  | filled closed fills =>
      rw [← getLast?_levels_eq_anyRest_iff] at closed
      exact (levelsMatch_iff_forall₂ closed whole).mpr (fills_iff.mp fills)
  | parent fills =>
      rw [levels_append, levels_anyRest, levelsMatch_append_anyRest whole]
      exact ⟨levels name, [], (List.append_nil _).symm, fills_iff.mp fills⟩
  | @below front above fills rest =>
      rw [levels_append front, levels_anyRest, levelsMatch_append_anyRest whole]
      exact ⟨levels above, levels rest, levels_append above rest, fills_iff.mp fills⟩
  | everything => exact levelsMatch_anyRest _

theorem produces_of_levelsMatch (matched : levelsMatch (levels filter) (levels name) = true) :
    Produces filter name := by
  have whole : ∀ level ∈ levels name, separator ∉ level := fun _ => separator_notMem
  by_cases ends : EndsInRest filter
  · obtain rfl | ⟨front, rfl⟩ := ends
    · exact .everything name
    · rw [levels_append, levels_anyRest, levelsMatch_append_anyRest whole] at matched
      obtain ⟨taken, rest, cut, stand⟩ := matched
      have some : taken ≠ [] := by
        rintro rfl
        exact levels_ne_nil front (List.forall₂_nil_right_iff.mp stand)
      have fills := fills_of_forall₂_stands stand (levels_ne_nil front) fun _ => separator_notMem
      have text := joinLevels_levels name
      rw [joinLevels_levels] at fills
      rw [cut] at text
      by_cases none : rest = []
      · rw [none, List.append_nil] at text
        rw [text] at fills
        exact .parent fills
      · rw [joinLevels_append some none] at text
        rw [← text]
        exact .below fills (joinLevels rest)
  · have closed := mt getLast?_levels_eq_anyRest_iff.mp ends
    exact .filled ends (fills_iff.mpr ((levelsMatch_iff_forall₂ closed whole).mp matched))

/-- The comparison level by level finds the names that a filter produces, and no
others. -/
theorem produces_iff :
    Produces filter name ↔ levelsMatch (levels filter) (levels name) = true :=
  ⟨levelsMatch_of_produces, produces_of_levelsMatch⟩

/-- A filter that does not end in `#` produces what fills it. -/
theorem produces_iff_fills (closed : ¬EndsInRest filter) :
    Produces filter name ↔ Fills filter name := by
  rw [produces_iff, fills_iff]
  exact levelsMatch_iff_forall₂ (mt getLast?_levels_eq_anyRest_iff.mp closed)
    fun _ => separator_notMem

/-- A filter that ends in `/#` produces what fills the part before, and all that
is below. -/
theorem produces_rest_iff {front : List Char} :
    Produces (front ++ separator :: anyRest) name ↔
      ∃ above, Fills front above ∧
        (name = above ∨ ∃ below, name = above ++ separator :: below) := by
  constructor
  · intro produces
    generalize same : front ++ separator :: anyRest = filter at produces
    cases produces with
    | filled closed =>
        subst same
        exact absurd (.inr ⟨front, rfl⟩) closed
    | parent fills =>
        obtain rfl := List.append_cancel_right same
        exact ⟨name, fills, .inl rfl⟩
    | @below front' above fills rest =>
        obtain rfl := List.append_cancel_right same
        exact ⟨above, fills, .inr ⟨rest, rfl⟩⟩
    | everything =>
        have short := congrArg List.length same
        simp [anyRest] at short
  · rintro ⟨above, fills, rfl | ⟨below, rfl⟩⟩
    · exact .parent fills
    · exact .below fills below

/-- Only texts that are not empty are compared. -/
theorem nonempty_of_eq_ok {name filter : String} {answer : Bool}
    (compared : matchesFilter name filter = .ok answer) : name ≠ "" ∧ filter ≠ "" := by
  constructor
  · rintro rfl
    cases compared
  · rintro rfl
    unfold matchesFilter at compared
    split at compared <;> cases compared

theorem covers_iff_produces {filter name : String} :
    covers filter name = true ↔
      name ≠ "" ∧ filter ≠ "" ∧ Produces filter.toList name.toList := by
  rw [covers_iff, produces_iff]
  constructor
  · intro taken
    obtain ⟨named, some⟩ := nonempty_of_eq_ok taken
    exact ⟨named, some, levelsMatch_of_eq_ok taken⟩
  · rintro ⟨named, some, matched⟩
    rw [matchesFilter_eq_ok (by simpa using named) (by simpa using some), matched]

/-- Matching fails for empty texts only, the name before the filter. Every other
name matches exactly the filters that produce it. -/
theorem matchesFilter_exact (name filter : String) :
    (∀ fault, matchesFilter name filter = .error fault ↔
      name = "" ∧ fault = .invalidArgument "topic name is empty" ∨
        name ≠ "" ∧ filter = "" ∧ fault = .invalidArgument "topic filter is empty") ∧
      (matchesFilter name filter = .ok true ↔
        name ≠ "" ∧ filter ≠ "" ∧ Produces filter.toList name.toList) ∧
      (matchesFilter name filter = .ok false ↔
        name ≠ "" ∧ filter ≠ "" ∧ ¬Produces filter.toList name.toList) := by
  by_cases hn : name = ""
  · subst hn
    have unnamed : matchesFilter "" filter = .error (.invalidArgument "topic name is empty") := rfl
    rw [unnamed]
    refine ⟨?_, by simp, by simp⟩
    intro fault
    simp [@eq_comm _ fault]
  · by_cases hf : filter = ""
    · subst hf
      have unfiltered :
          matchesFilter name "" = .error (.invalidArgument "topic filter is empty") := by
        simp [matchesFilter, hn]
      rw [unfiltered]
      refine ⟨?_, by simp, by simp⟩
      intro fault
      simp [hn, @eq_comm _ fault]
    · rw [matchesFilter_eq_ok (by simpa using hn) (by simpa using hf), produces_iff]
      refine ⟨?_, ?_, ?_⟩
      · simp [hn, hf]
      · simp [hn, hf]
      · simp [hn, hf]

end Topic

end UpdateBridge
