/-!
# Topic levels

A topic is a text whose levels are separated by `/`. `Topic.levels` cuts a
text at every separator and `Topic.joinLevels` puts one back between any two
neighbours; empty levels are kept, so the cut loses nothing
(`joinLevels_levels`) and no level holds a separator (`separator_notMem`).
A text has at least one level, and the empty text has the empty level only.
-/

namespace UpdateBridge

/-- One level of a topic name or filter. -/
abbrev Topic.Level := List Char

namespace Topic

/-- The character between two levels. -/
def separator : Char := '/'

/-- The levels of a text, in order; there is always at least one. -/
def levels : List Char → List Level
  | [] => [[]]
  | c :: rest =>
    if c = separator then [] :: levels rest
    else match levels rest with
      | [] => [[c]]
      | first :: others => (c :: first) :: others

def joinLevels : List Level → List Char
  | [] => []
  | [last] => last
  | first :: others => first ++ separator :: joinLevels others

@[simp] theorem levels_nil : levels [] = [[]] := rfl

theorem levels_ne_nil (text : List Char) : levels text ≠ [] := by
  cases text with
  | nil => simp
  | cons c rest =>
    simp only [levels]
    split
    · simp
    · split <;> simp

@[simp] theorem levels_separator (rest : List Char) :
    levels (separator :: rest) = [] :: levels rest := by
  simp [levels]

theorem levels_cons {c : Char} (hc : c ≠ separator) {rest : List Char} {first : Level}
    {others : List Level} (h : levels rest = first :: others) :
    levels (c :: rest) = (c :: first) :: others := by
  simp [levels, hc, h]

@[simp] theorem joinLevels_singleton (level : Level) : joinLevels [level] = level := rfl

theorem joinLevels_cons (first : Level) {others : List Level} (h : others ≠ []) :
    joinLevels (first :: others) = first ++ separator :: joinLevels others := by
  cases others with
  | nil => exact absurd rfl h
  | cons _ _ => rfl

/-- Cutting loses nothing. -/
theorem joinLevels_levels (text : List Char) : joinLevels (levels text) = text := by
  induction text with
  | nil => rfl
  | cons c rest ih =>
    by_cases hc : c = separator
    · subst hc
      rw [levels_separator, joinLevels_cons _ (levels_ne_nil rest), ih, List.nil_append]
    · obtain ⟨first, others, h⟩ := List.exists_cons_of_ne_nil (levels_ne_nil rest)
      rw [levels_cons hc h]
      rw [h] at ih
      cases others with
      | nil => simpa using ih
      | cons second others =>
        rw [joinLevels_cons _ (List.cons_ne_nil _ _)] at ih ⊢
        simp [ih]

theorem levels_injective : Function.Injective levels := by
  intro first second same
  rw [← joinLevels_levels first, same, joinLevels_levels]

/-- A text without separators is a single level. -/
theorem levels_of_notMem {text : List Char} (h : separator ∉ text) : levels text = [text] := by
  induction text with
  | nil => rfl
  | cons c rest ih =>
    rw [List.mem_cons, not_or] at h
    exact levels_cons (Ne.symm h.1) (ih h.2)

/-- A text without separators in front of one is the first level. -/
theorem levels_append_separator {first : List Char} (h : separator ∉ first)
    (rest : List Char) : levels (first ++ separator :: rest) = first :: levels rest := by
  induction first with
  | nil => simp
  | cons c first ih =>
    rw [List.mem_cons, not_or] at h
    exact levels_cons (Ne.symm h.1) (ih h.2)

/-- Cutting on both sides of a separator is cutting the whole. -/
theorem levels_append (first rest : List Char) :
    levels (first ++ separator :: rest) = levels first ++ levels rest := by
  induction first with
  | nil => rw [List.nil_append, levels_separator, levels_nil, List.singleton_append]
  | cons c first ih =>
      by_cases hc : c = separator
      · subst hc
        rw [List.cons_append, levels_separator, levels_separator, ih, List.cons_append]
      · obtain ⟨head, others, cut⟩ := List.exists_cons_of_ne_nil (levels_ne_nil first)
        rw [cut, List.cons_append] at ih
        rw [List.cons_append, levels_cons hc ih, levels_cons hc cut, List.cons_append]

theorem joinLevels_append {front rest : List Level} (some : front ≠ []) (more : rest ≠ []) :
    joinLevels (front ++ rest) = joinLevels front ++ separator :: joinLevels rest := by
  induction front with
  | nil => exact absurd rfl some
  | cons first front ih =>
      cases front with
      | nil => exact joinLevels_cons first more
      | cons next front =>
          have others := ih (List.cons_ne_nil _ _)
          rw [List.cons_append, joinLevels_cons _ (by simp), others,
            joinLevels_cons first (List.cons_ne_nil _ _), List.append_assoc, List.cons_append]

/-- A level never holds the separator. -/
theorem separator_notMem {text : List Char} {level : Level} (h : level ∈ levels text) :
    separator ∉ level := by
  induction text generalizing level with
  | nil => simp_all
  | cons c rest ih =>
    by_cases hc : c = separator
    · subst hc
      rw [levels_separator, List.mem_cons] at h
      rcases h with rfl | h
      · simp
      · exact ih h
    · obtain ⟨first, others, hr⟩ := List.exists_cons_of_ne_nil (levels_ne_nil rest)
      rw [levels_cons hc hr, List.mem_cons] at h
      rw [hr] at ih
      rcases h with rfl | h
      · have := @ih first (by simp)
        simp [this, Ne.symm hc]
      · exact ih (by simp [h])

end Topic

end UpdateBridge
