import UpdateBridge.Proofs.Route.Exclusive
import UpdateBridge.Proofs.Topic.Language

/-!
# What the update routes make of a topic

By the update routes a topic is about jobs if it is one of two topics of some
thing, and brings a block if it is the stream topic of some thing or below it;
every other topic is ignored. The place of the thing may be empty and may hold
any character but the separator, wildcards included. `updates_classify` says so
on the whole text of the topic.

In a table whose routes do not overlap the order means nothing (`kindOf_perm`),
and the update routes are such a table.
-/

namespace UpdateBridge

namespace Topic

variable {name : List Char} {suffix topic : String}

/-- A filter under all things, with no other `+` in it, is filled by what it is
under one of them. -/
theorem fills_underThing_iff (plain : anyLevel ∉ levels suffix.toList) :
    Fills (underThing "+" suffix).toList name ↔
      ∃ thing : String, separator ∉ thing.toList ∧ name = (underThing thing suffix).toList := by
  have cut : levels (underThing "+" suffix).toList =
      ["$aws".toList, "things".toList] ++ anyLevel :: levels suffix.toList :=
    levels_underThing (by decide) suffix
  rw [fills_iff, cut, forall₂_stands_append_iff (by decide) plain]
  constructor
  · rintro ⟨level, whole, cut⟩
    have named : (String.ofList level).toList = level := String.toList_ofList
    refine ⟨String.ofList level, by rwa [named], levels_injective ?_⟩
    rw [levels_underThing (by rwa [named]), named, cut]
  · rintro ⟨thing, whole, rfl⟩
    exact ⟨thing.toList, whole, levels_underThing whole suffix⟩

theorem underThing_eq (thing : String) {tail : String} (behind : "/" ++ suffix = tail) :
    underThing thing suffix = "$aws/things/" ++ thing ++ tail := by
  rw [← behind, underThing, thingsRoot, String.append_assoc]

/-- A filter under all things takes a topic if that is its text under some thing. -/
theorem covers_underAll_iff {filter tail : String} (written : filter = underThing "+" suffix)
    (behind : "/" ++ suffix = tail) (plain : anyLevel ∉ levels suffix.toList)
    (closed : (levels filter.toList).getLast? ≠ some anyRest) :
    covers filter topic = true ↔
      ∃ thing : String, '/' ∉ thing.toList ∧ topic = "$aws/things/" ++ thing ++ tail := by
  subst written
  rw [covers_iff_produces, produces_iff_fills (mt getLast?_levels_eq_anyRest_iff.mpr closed),
    fills_underThing_iff plain]
  simp only [String.toList_inj, ← underThing_eq _ behind]
  constructor
  · rintro ⟨-, -, under⟩
    exact under
  · rintro ⟨thing, whole, rfl⟩
    exact ⟨underThing_nonempty thing suffix, underThing_nonempty "+" suffix, thing, whole, rfl⟩

/-- With `/#` behind it, it also takes all that is below. -/
theorem covers_belowAll_iff {filter tail : String}
    (written : filter = underThing "+" suffix ++ "/#") (behind : "/" ++ suffix = tail)
    (plain : anyLevel ∉ levels suffix.toList) :
    covers filter topic = true ↔
      ∃ thing : String, '/' ∉ thing.toList ∧
        (topic = "$aws/things/" ++ thing ++ tail ∨
          ∃ below, topic = "$aws/things/" ++ thing ++ tail ++ "/" ++ below) := by
  have text : filter.toList = (underThing "+" suffix).toList ++ separator :: anyRest := by
    simp [written, separator, anyRest]
  have some : filter ≠ "" := by simp [written]
  rw [covers_iff_produces, text, produces_rest_iff]
  simp only [fills_underThing_iff plain, ← underThing_eq _ behind]
  constructor
  · rintro ⟨-, -, above, ⟨thing, whole, rfl⟩, same | ⟨below, same⟩⟩
    · exact ⟨thing, whole, .inl (String.toList_inj.mp same)⟩
    · refine ⟨thing, whole, .inr ⟨String.ofList below, String.toList_inj.mp ?_⟩⟩
      simp [same, separator]
  · rintro ⟨thing, whole, rfl | ⟨below, rfl⟩⟩
    · exact ⟨underThing_nonempty thing suffix, some, _, ⟨thing, whole, rfl⟩, .inl rfl⟩
    · refine ⟨?_, some, _, ⟨thing, whole, rfl⟩, .inr ⟨below.toList, ?_⟩⟩
      · simp
      · simp [separator]

end Topic

namespace Route

variable {topic : String} {routes table : List Route} {kind : EventKind}

theorem Exclusive.perm (exclusive : Exclusive topic routes) (order : table.Perm routes) :
    Exclusive topic table := by
  refine (order.pairwise_iff ?_).mpr exclusive
  intro r s apart both
  exact apart both.symm

/-- Where routes do not overlap, a topic takes its kind from the one that covers
it, if there is one. -/
theorem kindOf_eq_ok_iff (named : topic ≠ "") (filters : ∀ r ∈ routes, r.filter ≠ "")
    (exclusive : Exclusive topic routes) (routed : kind ≠ .ignored) :
    kindOf topic routes = .ok kind ↔
      ∃ r ∈ routes, Topic.covers r.filter topic = true ∧ r.kind = kind := by
  constructor
  · intro found
    by_cases covered : ∃ r ∈ routes, Topic.covers r.filter topic = true
    · obtain ⟨r, member, covered⟩ := covered
      have taken := kindOf_of_covers named filters exclusive member covered
      exact ⟨r, member, covered, Except.ok.inj (taken.symm.trans found)⟩
    · have ignored := kindOf_of_not_covers named filters
        fun r member here => covered ⟨r, member, here⟩
      exact absurd (Except.ok.inj (found.symm.trans ignored)) routed
  · rintro ⟨r, member, covered, rfl⟩
    exact kindOf_of_covers named filters exclusive member covered

/-- The empty topic has no kind, whatever the routes are. -/
theorem kindOf_empty (some : routes ≠ []) :
    kindOf "" routes = .error (.invalidArgument "topic name is empty") := by
  cases routes with
  | nil => exact absurd rfl some
  | cons r routes => rfl

/-- Where routes do not overlap, the order in which they are listed means nothing. -/
theorem kindOf_perm (filters : ∀ r ∈ routes, r.filter ≠ "") (exclusive : Exclusive topic routes)
    (order : table.Perm routes) : kindOf topic table = kindOf topic routes := by
  by_cases named : topic = ""
  · subst named
    by_cases none : routes = []
    · subst none
      rw [order.eq_nil]
    · have some : table ≠ [] := fun empty => none (empty ▸ order).symm.eq_nil
      rw [kindOf_empty none, kindOf_empty some]
  · have filters' : ∀ r ∈ table, r.filter ≠ "" :=
      fun r member => filters r (order.mem_iff.mp member)
    by_cases covered : ∃ r ∈ routes, Topic.covers r.filter topic = true
    · obtain ⟨r, member, covered⟩ := covered
      have member' := order.mem_iff.mpr member
      rw [kindOf_of_covers named filters exclusive member covered,
        kindOf_of_covers named filters' (exclusive.perm order) member' covered]
    · have passed : ∀ r ∈ routes, ¬Topic.covers r.filter topic = true :=
        fun r member here => covered ⟨r, member, here⟩
      rw [kindOf_of_not_covers named filters passed,
        kindOf_of_not_covers named filters' fun r member => passed r (order.mem_iff.mp member)]

/-- The topic is one of the two of some thing that bring job documents. -/
def BringsJob (topic : String) : Prop :=
  ∃ thing : String, '/' ∉ thing.toList ∧
    (topic = "$aws/things/" ++ thing ++ "/jobs/notify-next" ∨
      topic = "$aws/things/" ++ thing ++ "/jobs/$next/get/accepted")

/-- The topic is the one of some thing that brings blocks, or lies below it. -/
def BringsBlock (topic : String) : Prop :=
  ∃ thing : String, '/' ∉ thing.toList ∧
    (topic = "$aws/things/" ++ thing ++ "/streams" ∨
      ∃ below : String, topic = "$aws/things/" ++ thing ++ "/streams" ++ "/" ++ below)

theorem covers_jobs_iff :
    Topic.covers Topic.notifyFilter topic = true ∨ Topic.covers Topic.acceptedFilter topic = true ↔
      BringsJob topic := by
  have notify := @Topic.covers_underAll_iff "jobs/notify-next" topic Topic.notifyFilter
    "/jobs/notify-next" (by decide) (by decide) (by decide) (by decide)
  have accepted := @Topic.covers_underAll_iff "jobs/$next/get/accepted" topic Topic.acceptedFilter
    "/jobs/$next/get/accepted" (by decide) (by decide) (by decide) (by decide)
  simp only [notify, accepted, BringsJob, and_or_left, exists_or]

theorem covers_stream_iff : Topic.covers Topic.streamFilter topic = true ↔ BringsBlock topic :=
  @Topic.covers_belowAll_iff "streams" topic Topic.streamFilter "/streams" (by decide) (by decide)
    (by decide)

/-- What a topic that is not empty is, by the update routes, can be read off its
text. No topic is taken by two of the routes, so every topic is the same in
whatever order they are listed. -/
theorem updates_classify (topic : String) :
    (topic ≠ "" →
      (kindOf topic updates = .ok .jobDocument ↔ BringsJob topic) ∧
      (kindOf topic updates = .ok .fileBlock ↔ BringsBlock topic) ∧
      (kindOf topic updates = .ok .ignored ↔ ¬BringsJob topic ∧ ¬BringsBlock topic)) ∧
    (updates.Pairwise fun r s => ¬(Topic.matchesFilter topic r.filter = .ok true ∧
      Topic.matchesFilter topic s.filter = .ok true)) ∧
    ∀ table, table.Perm updates → kindOf topic table = kindOf topic updates := by
  have filters : ∀ r ∈ updates, r.filter ≠ "" := fun _ => filter_ne_empty_of_mem_updates
  have exclusive := updates_exclusive topic
  refine ⟨?_, ?_, fun table => kindOf_perm filters exclusive⟩
  · intro named
    have job : kindOf topic updates = .ok .jobDocument ↔ BringsJob topic := by
      rw [kindOf_eq_ok_iff named filters exclusive (by decide), ← covers_jobs_iff]
      simp [updates]
    have block : kindOf topic updates = .ok .fileBlock ↔ BringsBlock topic := by
      rw [kindOf_eq_ok_iff named filters exclusive (by decide), ← covers_stream_iff]
      simp [updates]
    refine ⟨job, block, ?_⟩
    constructor
    · intro ignored
      rw [← job, ← block, ignored]
      exact ⟨nofun, nofun⟩
    · rintro ⟨noJob, noBlock⟩
      apply kindOf_of_not_covers named filters
      intro r member covered
      have found := kindOf_of_mem_updates named member covered
      obtain kind | kind := kind_of_mem_updates member
      · exact noJob (job.mp (kind ▸ found))
      · exact noBlock (block.mp (kind ▸ found))
  · simpa only [Exclusive, Topic.covers_iff] using exclusive

/-- A thing without a name and a block without one: the topic just brings a
block, also with the routes the other way round. -/
theorem updates_classify_unnamed :
    "$aws/things//streams/" ≠ "" ∧ BringsBlock "$aws/things//streams/" ∧
      kindOf "$aws/things//streams/" updates.reverse = .ok .fileBlock ∧
      ¬BringsJob "$aws/things//streams/" := by
  have named : "$aws/things//streams/" ≠ "" := by decide
  have brings : BringsBlock "$aws/things//streams/" :=
    ⟨"", by decide, .inr ⟨"", by decide⟩⟩
  obtain ⟨kinds, -, order⟩ := updates_classify "$aws/things//streams/"
  obtain ⟨job, block, -⟩ := kinds named
  have found := block.mpr brings
  refine ⟨named, brings, (order _ (List.reverse_perm updates)).trans found, ?_⟩
  rw [← job, found]
  nofun

end Route

end UpdateBridge
