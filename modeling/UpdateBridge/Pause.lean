/-!
# Pauses

Whoever pauses asks for a number of milliseconds and is held back for that
long, but never for more than thirty years of 365 days. Such a pause is cut to
the thirty years and is not an error. What is repeated pauses from one time to
the next, so its times are never further apart than that either.

Only pauses are cut. Where something is to happen at a moment, such as the
first of repeated times or the end of a caller's patience, it happens at that
moment, however far away it is.
-/

namespace UpdateBridge.Pause

/-- The longest pause, in milliseconds: thirty years of 365 days. -/
def longest : Nat := 30 * 365 * 24 * 60 * 60 * 1000

/-- How long a pause lasts when it was asked for with this length. -/
def length (asked : Nat) : Nat := min asked longest

theorem length_of_le {asked : Nat} (h : asked ≤ longest) : length asked = asked :=
  Nat.min_eq_left h

theorem length_of_longest_le {asked : Nat} (h : longest ≤ asked) : length asked = longest :=
  Nat.min_eq_right h

theorem length_le (asked : Nat) : length asked ≤ asked :=
  Nat.min_le_left ..

theorem length_le_longest (asked : Nat) : length asked ≤ longest :=
  Nat.min_le_right ..

/-- A pause takes no time only if none was asked for. -/
@[simp] theorem length_eq_zero {asked : Nat} : length asked = 0 ↔ asked = 0 := by
  unfold length longest; omega

end UpdateBridge.Pause
