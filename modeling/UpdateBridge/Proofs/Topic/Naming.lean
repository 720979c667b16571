import UpdateBridge.Topic.Matching
import UpdateBridge.Topic.Naming

/-!
# Topics that name a thing

A topic under a thing is built if the text can name a thing and the whole
topic fits, and it is then the four parts one after another: `build_eq` turns
the appends, each of which may fail, into one test of the whole size.

`levelsMatch_append_cons` compares a filter that names a level with the filter
that has `+` in its place: it takes the names that the other takes and that
have this level there. For filters under things this is `matchesFilter_underThing`,
whatever follows the thing.
-/

namespace UpdateBridge

namespace Text

/-- All parts can be appended if they fit together. -/
theorem appendAll?_eq {limit : Nat} {text : String} (fits : text.utf8ByteSize ≤ limit)
    (parts : List String) :
    appendAll? limit text parts =
      if text.utf8ByteSize + totalSize parts ≤ limit then some (parts.foldl (· ++ ·) text)
      else none := by
  induction parts generalizing text with
  | nil => simp [fits]
  | cons part parts ih =>
      rw [totalSize_cons, ← Nat.add_assoc, List.foldl_cons, appendAll?]
      obtain large | small := Nat.lt_or_ge limit (text.utf8ByteSize + part.utf8ByteSize)
      · rw [append?_of_lt large, if_neg (by omega)]
        rfl
      · rw [append?_of_le small]
        have size : (text ++ part).utf8ByteSize = text.utf8ByteSize + part.utf8ByteSize := by
          simp
        rw [← size] at small ⊢
        exact ih small

end Text

namespace Topic

variable {limit : Nat} {thing suffix topic name : String}

theorem build_eq (limit : Nat) (parts : List String) :
    build limit parts =
      if Text.totalSize parts ≤ limit then .ok (String.join parts)
      else .error (.tooLarge limit (Text.totalSize parts)) := by
  have all := @Text.appendAll?_eq limit "" (Nat.zero_le limit) parts
  rw [String.utf8ByteSize_empty, Nat.zero_add] at all
  rw [build, all]
  by_cases fits : Text.totalSize parts ≤ limit
  · simp only [if_pos fits]
    rfl
  · simp only [if_neg fits]

/-- What can stand in the place of a thing. -/
structure NamesThing (thing : String) : Prop where
  nonempty : thing ≠ ""
  unreserved : ∀ c ∈ thing.toList, isReserved c = false

theorem namesThing_iff :
    NamesThing thing ↔ thing ≠ "" ∧ ∀ c ∈ thing.toList, c ≠ '/' ∧ c ≠ '+' ∧ c ≠ '#' := by
  constructor
  · rintro ⟨nonempty, unreserved⟩
    exact ⟨nonempty, fun c member => isReserved_eq_false_iff.mp (unreserved c member)⟩
  · rintro ⟨nonempty, plain⟩
    exact ⟨nonempty, fun c member => isReserved_eq_false_iff.mpr (plain c member)⟩

/-- The topic or filter with this text in the place of the thing. -/
def underThing (thing suffix : String) : String :=
  thingsRoot ++ thing ++ "/" ++ suffix

theorem totalSize_underThing (thing suffix : String) :
    Text.totalSize [thingsRoot, thing, "/", suffix] = (underThing thing suffix).utf8ByteSize := by
  simp [underThing, Nat.add_assoc]

theorem utf8ByteSize_underThing (thing suffix : String) :
    (underThing thing suffix).utf8ByteSize = 13 + thing.utf8ByteSize + suffix.utf8ByteSize := by
  have root : thingsRoot.utf8ByteSize = 12 := by decide
  have slash : "/".utf8ByteSize = 1 := by decide
  simp only [underThing, String.utf8ByteSize_append, root, slash]
  omega

theorem ofThing_of_namesThing (names : NamesThing thing) (limit : Nat) (suffix : String) :
    ofThing limit thing suffix =
      if (underThing thing suffix).utf8ByteSize ≤ limit then .ok (underThing thing suffix)
      else .error (.tooLarge limit (underThing thing suffix).utf8ByteSize) := by
  have some : thing.isEmpty = false := by simpa using names.nonempty
  have plain : thing.toList.any isReserved = false := by simpa using names.unreserved
  have join : String.join [thingsRoot, thing, "/", suffix] = underThing thing suffix := by
    simp [String.join, underThing]
  rw [ofThing, some, plain, build_eq, totalSize_underThing, join]
  rfl

/-- A text that names no thing is empty or holds a reserved character, and the
fault says which. -/
theorem ofThing_of_unfit (unfit : ¬NamesThing thing) (limit : Nat) (suffix : String) :
    ofThing limit thing suffix = .error (.invalidArgument
      (if thing = "" then "thing name is empty"
        else "thing name contains a separator or wildcard")) := by
  by_cases unnamed : thing = ""
  · simp [ofThing, unnamed]
  · have reserved : thing.toList.any isReserved = true := by
      refine Bool.of_not_eq_false fun plain => ?_
      exact unfit ⟨unnamed, by simpa using plain⟩
    simp [ofThing, unnamed, reserved]

theorem ofThing_eq_ok_iff :
    ofThing limit thing suffix = .ok topic ↔
      NamesThing thing ∧ (underThing thing suffix).utf8ByteSize ≤ limit ∧
        topic = underThing thing suffix := by
  by_cases names : NamesThing thing
  · rw [ofThing_of_namesThing names]
    by_cases fits : (underThing thing suffix).utf8ByteSize ≤ limit
    · simp [names, fits, @eq_comm _ topic]
    · simp [fits]
  · simp [ofThing_of_unfit names, names]

/-- The name of a thing is one level, and no wildcard. -/
theorem NamesThing.separator_notMem (names : NamesThing thing) : separator ∉ thing.toList := by
  intro member
  exact absurd (names.unreserved separator member) (by decide)

theorem NamesThing.ne_anyLevel (names : NamesThing thing) : thing.toList ≠ anyLevel := by
  intro wild
  exact absurd (names.unreserved '+' (by simp [wild, anyLevel])) (by decide)

theorem NamesThing.ne_anyRest (names : NamesThing thing) : thing.toList ≠ anyRest := by
  intro wild
  exact absurd (names.unreserved '#' (by simp [wild, anyRest])) (by decide)

/-- What stands in the place of the thing is the third level. -/
theorem levels_underThing {thing : String} (whole : separator ∉ thing.toList) (suffix : String) :
    levels (underThing thing suffix).toList =
      ["$aws".toList, "things".toList] ++ thing.toList :: levels suffix.toList := by
  have text : (underThing thing suffix).toList =
      "$aws/things".toList ++ separator :: (thing.toList ++ separator :: suffix.toList) := by
    simp [underThing, thingsRoot, separator]
  have root : levels "$aws/things".toList = ["$aws".toList, "things".toList] := by decide
  rw [text, levels_append, levels_append, levels_of_notMem whole, root, List.singleton_append]

/-- Things whose names are one level each share no topic. -/
theorem underThing_inj {other suffix' : String} (whole : separator ∉ thing.toList)
    (whole' : separator ∉ other.toList) :
    underThing thing suffix = underThing other suffix' ↔ thing = other ∧ suffix = suffix' := by
  constructor
  · intro same
    have cut := congrArg (fun topic => levels topic.toList) same
    simp only [levels_underThing whole, levels_underThing whole', List.append_cancel_left_eq,
      List.cons.injEq] at cut
    obtain ⟨third, rest⟩ := cut
    exact ⟨String.toList_inj.mp third, String.toList_inj.mp (levels_injective rest)⟩
  · rintro ⟨rfl, rfl⟩
    rfl

/-- A level that is no wildcard narrows a filter to the names that have it in
its place. -/
theorem levelsMatch_append_cons {level : Level} (hany : level ≠ anyLevel)
    (hrest : level ≠ anyRest) (front back names : List Level) :
    levelsMatch (front ++ level :: back) names = true ↔
      levelsMatch (front ++ anyLevel :: back) names = true ∧
        names[front.length]? = some level := by
  induction front generalizing names with
  | nil =>
      cases names with
      | nil => simp [levelsMatch, hrest]
      | cons first names =>
          rw [List.nil_append, List.nil_append, levelsMatch_cons_cons hany hrest,
            levelsMatch_anyLevel_cons, Bool.and_eq_true, beq_iff_eq, List.length_nil,
            List.getElem?_cons_zero, Option.some_inj, and_comm, @eq_comm _ level]
  | cons expected front ih =>
      have more : front ++ level :: back ≠ [] := by simp
      have more' : front ++ anyLevel :: back ≠ [] := by simp
      rw [List.cons_append, List.cons_append]
      cases names with
      | nil => simp [levelsMatch_nil_of_ne_nil expected more]
      | cons first names =>
          rw [levelsMatch_cons_of_ne_nil expected more, levelsMatch_cons_of_ne_nil expected more',
            Bool.and_eq_true, Bool.and_eq_true, ih, and_assoc, List.length_cons,
            List.getElem?_cons_succ]

/-- A level of the filter that is no wildcard stands in its place in every name
that the filter takes. -/
theorem getElem?_of_levelsMatch {level : Level} (hany : level ≠ anyLevel) (hrest : level ≠ anyRest)
    {filters names : List Level} {i : Nat} (place : filters[i]? = some level)
    (matched : levelsMatch filters names = true) : names[i]? = some level := by
  obtain ⟨inside, rfl⟩ := List.getElem?_eq_some_iff.mp place
  have cut : filters = filters.take i ++ filters[i] :: filters.drop (i + 1) := by simp
  rw [cut] at matched
  have found := ((levelsMatch_append_cons hany hrest _ _ _).mp matched).2
  rwa [List.length_take_of_le (Nat.le_of_lt inside)] at found

theorem underThing_nonempty (thing suffix : String) : underThing thing suffix ≠ "" := by
  intro none
  have size := utf8ByteSize_underThing thing suffix
  rw [none, String.utf8ByteSize_empty] at size
  omega

/-- A filter under a thing takes the names that the same filter takes under any
thing and whose third level is this thing. -/
theorem matchesFilter_underThing (names : NamesThing thing) (suffix : String) (name : String) :
    matchesFilter name (underThing thing suffix) = .ok true ↔
      matchesFilter name (underThing "+" suffix) = .ok true ∧
        (levels name.toList)[2]? = some thing.toList := by
  by_cases unnamed : name = ""
  · subst unnamed
    simp [matchesFilter]
  · have named : name.isEmpty = false := by simpa using unnamed
    rw [matchesFilter_eq_ok named (by simpa using underThing_nonempty thing suffix),
      matchesFilter_eq_ok named (by simpa using underThing_nonempty "+" suffix),
      levels_underThing names.separator_notMem, levels_underThing (by decide),
      show "+".toList = anyLevel from rfl, Except.ok.injEq, Except.ok.injEq]
    exact levelsMatch_append_cons names.ne_anyLevel names.ne_anyRest
      ["$aws".toList, "things".toList] (levels suffix.toList) (levels name.toList)

end Topic

end UpdateBridge
