import Mathlib.Tactic.ByContra
import UpdateBridge.Proofs.Route.Search
import UpdateBridge.Proofs.Topic.Naming

/-!
# Routes that do not overlap

Where no topic is covered by two routes of a table, the order of the routes
does not matter: a topic has the kind of the route that covers it, and is
ignored if there is none. The update routes are such a table
(`updates_exclusive`): notices and answers differ in their fifth level, and
both differ from blocks in the fourth.
-/

namespace UpdateBridge

namespace Route

variable {topic : String} {routes : List Route} {route : Route}

/-- No two routes of the table cover this topic. -/
def Exclusive (topic : String) (routes : List Route) : Prop :=
  routes.Pairwise fun r s =>
    ¬(Topic.covers r.filter topic = true ∧ Topic.covers s.filter topic = true)

/-- What a message is, if anything, is the kind of one of the routes. -/
theorem kindOf_cases {kind : EventKind} (found : kindOf topic routes = .ok kind) :
    (∃ route ∈ routes, kind = route.kind) ∨ kind = .ignored := by
  induction routes with
  | nil =>
      cases found
      exact Or.inr rfl
  | cons route routes ih =>
      rw [kindOf] at found
      split at found
      · cases found
      · cases found
        exact Or.inl ⟨route, List.mem_cons_self, rfl⟩
      · obtain ⟨other, member, same⟩ | none := ih found
        · exact Or.inl ⟨other, List.mem_cons_of_mem route member, same⟩
        · exact Or.inr none

theorem kindOf_of_covers (named : topic ≠ "") (filters : ∀ r ∈ routes, r.filter ≠ "")
    (exclusive : Exclusive topic routes) (member : route ∈ routes)
    (covered : Topic.covers route.filter topic = true) :
    kindOf topic routes = .ok route.kind := by
  have clear : ¬Stuck topic routes := fun stuck => named ((stuck_iff filters).mp stuck).1
  apply kindOf_of_leads clear
  obtain ⟨before, after, rfl⟩ := List.append_of_mem member
  have apart := (List.pairwise_append.mp exclusive).2.2
  refine ⟨before, route, after, rfl, ?_, covered, rfl⟩
  intro r earlier also
  exact apart r earlier route List.mem_cons_self ⟨also, covered⟩

theorem kindOf_of_not_covers (named : topic ≠ "") (filters : ∀ r ∈ routes, r.filter ≠ "")
    (uncovered : ∀ r ∈ routes, ¬Topic.covers r.filter topic = true) :
    kindOf topic routes = .ok .ignored :=
  kindOf_of_passedBy (fun stuck => named ((stuck_iff filters).mp stuck).1) uncovered

theorem filter_ne_empty_of_mem_updates (member : route ∈ updates) : route.filter ≠ "" := by
  revert route
  decide

theorem kind_of_mem_updates (member : route ∈ updates) :
    route.kind = .jobDocument ∨ route.kind = .fileBlock := by
  revert route
  decide

theorem kind_ne_ignored_of_mem_updates (member : route ∈ updates) : route.kind ≠ .ignored := by
  obtain job | block := kind_of_mem_updates member
  · rw [job]
    decide
  · rw [block]
    decide

/-- A level of the filter that is no wildcard stands in its place in every topic
that the filter takes. -/
theorem getElem?_of_covers {filter : String} {i : Nat} {level : Topic.Level}
    (place : (Topic.levels filter.toList)[i]? = some level) (hany : level ≠ Topic.anyLevel)
    (hrest : level ≠ Topic.anyRest) (covered : Topic.covers filter topic = true) :
    (Topic.levels topic.toList)[i]? = some level := by
  rw [Topic.covers_iff] at covered
  exact Topic.getElem?_of_levelsMatch hany hrest place (Topic.levelsMatch_of_eq_ok covered)

theorem level_of_notify (covered : Topic.covers Topic.notifyFilter topic = true) :
    (Topic.levels topic.toList)[3]? = some "jobs".toList ∧
      (Topic.levels topic.toList)[4]? = some "notify-next".toList :=
  ⟨getElem?_of_covers (by decide) (by decide) (by decide) covered,
    getElem?_of_covers (by decide) (by decide) (by decide) covered⟩

theorem level_of_accepted (covered : Topic.covers Topic.acceptedFilter topic = true) :
    (Topic.levels topic.toList)[3]? = some "jobs".toList ∧
      (Topic.levels topic.toList)[4]? = some "$next".toList :=
  ⟨getElem?_of_covers (by decide) (by decide) (by decide) covered,
    getElem?_of_covers (by decide) (by decide) (by decide) covered⟩

theorem level_of_stream (covered : Topic.covers Topic.streamFilter topic = true) :
    (Topic.levels topic.toList)[3]? = some "streams".toList :=
  getElem?_of_covers (by decide) (by decide) (by decide) covered

/-- No topic is covered by two of the update routes. -/
theorem updates_exclusive (topic : String) : Exclusive topic updates := by
  have notify_accepted : ¬(Topic.covers Topic.notifyFilter topic = true ∧
      Topic.covers Topic.acceptedFilter topic = true) := by
    rintro ⟨first, second⟩
    have same := (level_of_notify first).2.symm.trans (level_of_accepted second).2
    exact absurd same (by decide)
  have notify_stream : ¬(Topic.covers Topic.notifyFilter topic = true ∧
      Topic.covers Topic.streamFilter topic = true) := by
    rintro ⟨first, second⟩
    have same := (level_of_notify first).1.symm.trans (level_of_stream second)
    exact absurd same (by decide)
  have accepted_stream : ¬(Topic.covers Topic.acceptedFilter topic = true ∧
      Topic.covers Topic.streamFilter topic = true) := by
    rintro ⟨first, second⟩
    have same := (level_of_accepted first).1.symm.trans (level_of_stream second)
    exact absurd same (by decide)
  refine List.pairwise_cons.mpr ⟨?_, List.pairwise_pair.mpr accepted_stream⟩
  intro route member
  obtain rfl | rfl : route = ⟨Topic.acceptedFilter, .jobDocument⟩ ∨
      route = ⟨Topic.streamFilter, .fileBlock⟩ := by simpa using member
  · exact notify_accepted
  · exact notify_stream

theorem kindOf_of_mem_updates (named : topic ≠ "") (member : route ∈ updates)
    (covered : Topic.covers route.filter topic = true) :
    kindOf topic updates = .ok route.kind :=
  kindOf_of_covers named (fun _ => filter_ne_empty_of_mem_updates) (updates_exclusive topic) member
    covered

/-- Not ignored are the topics that some update route covers. -/
theorem kindOf_updates_iff (named : topic ≠ "") :
    (∃ kind, kindOf topic updates = .ok kind ∧ kind ≠ .ignored) ↔
      ∃ route ∈ updates, Topic.covers route.filter topic = true := by
  constructor
  · rintro ⟨kind, found, routed⟩
    by_contra none
    have ignored := kindOf_of_not_covers named (fun _ => filter_ne_empty_of_mem_updates)
      fun route member covered => none ⟨route, member, covered⟩
    rw [found] at ignored
    exact routed (Except.ok.inj ignored)
  · rintro ⟨route, member, covered⟩
    exact ⟨route.kind, kindOf_of_mem_updates named member covered,
      kind_ne_ignored_of_mem_updates member⟩

end Route

end UpdateBridge
