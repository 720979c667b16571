import UpdateBridge.Proofs.Topic.Covering
import UpdateBridge.Proofs.Topic.Naming

/-!
# The topics of things tell things apart

A topic under a thing is built, or there is one reason why not. Since the name of
a thing is one level, the topic gives the thing and the suffix back
(`underThing_inj`).

A topic takes itself, whatever its suffix holds. So it is taken by the same filter
under `+`, and by no filter under another thing: what such a filter takes has that
other thing as its third level (`matchesFilter_underThing`).
-/

namespace UpdateBridge.Topic

variable {limit : Nat} {thing other suffix suffix' : String}

/-- A topic under a thing is taken by its filter under any thing. -/
theorem matchesFilter_anyThing (names : NamesThing thing) (suffix : String) :
    matchesFilter (underThing thing suffix) (underThing "+" suffix) = .ok true :=
  ((matchesFilter_underThing names suffix _).mp
    (matchesFilter_self (underThing_nonempty thing suffix))).1

/-- A topic under a thing is taken by filters under this thing only. -/
theorem eq_of_matchesFilter (names : NamesThing thing) (names' : NamesThing other)
    (taken : matchesFilter (underThing thing suffix) (underThing other suffix') = .ok true) :
    other = thing := by
  have third := ((matchesFilter_underThing names' suffix' _).mp taken).2
  rw [levels_underThing names.separator_notMem] at third
  exact (String.toList_inj.mp (Option.some.inj third)).symm

/-- Building a topic under a thing says what is wrong with the name before it says
that the whole is too large, in octets of the whole whichever part does not fit.
What is built has one thing and one suffix, is taken by the filter that leaves the
thing open, and by the filter of no other thing. -/
theorem ofThing_exact (limit : Nat) (thing suffix : String) :
    let valid (name : String) := name ≠ "" ∧ ∀ c ∈ name.toList, c ≠ '/' ∧ c ≠ '+' ∧ c ≠ '#'
    let size := 13 + thing.utf8ByteSize + suffix.utf8ByteSize
    (∀ fault, ofThing limit thing suffix = .error fault ↔
        ¬valid thing ∧ fault = .invalidArgument
            (if thing = "" then "thing name is empty"
              else "thing name contains a separator or wildcard") ∨
          valid thing ∧ limit < size ∧ fault = .tooLarge limit size) ∧
      (∀ topic, ofThing limit thing suffix = .ok topic ↔
        valid thing ∧ size ≤ limit ∧ topic = "$aws/things/" ++ thing ++ "/" ++ suffix) ∧
      ∀ topic, ofThing limit thing suffix = .ok topic →
        (∀ limit' thing' suffix', ofThing limit' thing' suffix' = .ok topic →
          thing' = thing ∧ suffix' = suffix) ∧
        matchesFilter topic ("$aws/things/+/" ++ suffix) = .ok true ∧
        ∀ other, valid other →
          (matchesFilter topic ("$aws/things/" ++ other ++ "/" ++ suffix) = .ok true ↔
            other = thing) := by
  intro valid size
  have valid_iff : ∀ name, valid name ↔ NamesThing name := fun name => namesThing_iff.symm
  have size_eq : (underThing thing suffix).utf8ByteSize = size :=
    utf8ByteSize_underThing thing suffix
  have built : ∀ topic, ofThing limit thing suffix = .ok topic ↔
      NamesThing thing ∧ size ≤ limit ∧ topic = underThing thing suffix := by
    intro topic
    rw [← size_eq]
    exact ofThing_eq_ok_iff
  simp only [valid_iff]
  refine ⟨?_, built, ?_⟩
  · intro fault
    by_cases names : NamesThing thing
    · rw [ofThing_of_namesThing names, size_eq]
      by_cases fits : size ≤ limit
      · simp [names, fits, Nat.not_lt.mpr fits]
      · simp [names, fits, Nat.not_le.mp fits, @eq_comm _ fault]
    · simp [ofThing_of_unfit names, names, @eq_comm _ fault]
  · intro topic done
    obtain ⟨names, -, rfl⟩ := (built topic).mp done
    refine ⟨?_, matchesFilter_anyThing names suffix, ?_⟩
    · intro limit' thing' suffix' done'
      obtain ⟨names', -, same⟩ := ofThing_eq_ok_iff.mp done'
      obtain ⟨rfl, rfl⟩ := (underThing_inj names.separator_notMem names'.separator_notMem).mp same
      exact ⟨rfl, rfl⟩
    · intro other names'
      constructor
      · exact eq_of_matchesFilter names names'
      · rintro rfl
        exact matchesFilter_self (underThing_nonempty other suffix)

end UpdateBridge.Topic
