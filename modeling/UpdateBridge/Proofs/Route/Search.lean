import UpdateBridge.Route

/-!
# Where the search through a table of routes ends

The search passes by the routes that do not take the topic, and ends at the
first route for which there is something to say. Either that route takes the
topic (`Leads`), or it cannot be compared with the topic, because one of the two
is empty (`Stuck`). The two exclude each other, and where neither is the case
the search has passed by the whole table.

`kindOf_of_stuck`, `kindOf_of_leads` and `kindOf_of_passedBy` give the answer of
`Route.kindOf` in each of the three cases, for any table at all.
-/

namespace UpdateBridge

/-- Why a name does not match at all: it is empty itself, or else the filter is. -/
def Topic.emptyFault (name : String) : Fault :=
  .invalidArgument (if name = "" then "topic name is empty" else "topic filter is empty")

namespace Route

variable {topic : String} {routes : List Route} {first : Route} {kind : EventKind}

/-- No route of the table takes the topic. -/
def PassedBy (topic : String) (routes : List Route) : Prop :=
  ∀ route ∈ routes, ¬Topic.covers route.filter topic = true

/-- The search comes to a route that cannot be compared with the topic. -/
def Stuck (topic : String) (routes : List Route) : Prop :=
  ∃ before route after, routes = before ++ route :: after ∧ PassedBy topic before ∧
    (topic = "" ∨ route.filter = "")

/-- The first route that takes the topic is of that kind. -/
def Leads (topic : String) (routes : List Route) (kind : EventKind) : Prop :=
  ∃ before route after, routes = before ++ route :: after ∧ PassedBy topic before ∧
    Topic.covers route.filter topic = true ∧ route.kind = kind

/-- The topic is for the engine: the search does not get stuck, and ends at a
route of a kind that the engine takes. -/
structure Wants (topic : String) (routes : List Route) (kind : EventKind) : Prop where
  clear : ¬Stuck topic routes
  leads : Leads topic routes kind
  routed : kind ≠ .ignored

theorem passedBy_cons :
    PassedBy topic (first :: routes) ↔
      ¬Topic.covers first.filter topic = true ∧ PassedBy topic routes :=
  List.forall_mem_cons

/-- At the first route the search gets stuck, or it passes by and gets stuck
later. -/
theorem stuck_cons :
    Stuck topic (first :: routes) ↔
      (topic = "" ∨ first.filter = "") ∨
        ¬Topic.covers first.filter topic = true ∧ Stuck topic routes := by
  constructor
  · rintro ⟨before, route, after, parts, passed, empty⟩
    obtain ⟨rfl, same⟩ | ⟨before, rfl, rfl⟩ := List.cons_eq_append_iff.mp parts
    · obtain ⟨rfl, -⟩ := List.cons.inj same
      exact .inl empty
    · obtain ⟨uncovered, passed⟩ := passedBy_cons.mp passed
      exact .inr ⟨uncovered, before, route, after, rfl, passed, empty⟩
  · rintro (empty | ⟨uncovered, before, route, after, rfl, passed, empty⟩)
    · exact ⟨[], first, routes, rfl, nofun, empty⟩
    · exact ⟨first :: before, route, after, rfl, passedBy_cons.mpr ⟨uncovered, passed⟩, empty⟩

/-- Where no filter is empty the search gets stuck at once or not at all. -/
theorem stuck_iff (filters : ∀ r ∈ routes, r.filter ≠ "") :
    Stuck topic routes ↔ topic = "" ∧ routes ≠ [] := by
  constructor
  · rintro ⟨before, route, after, rfl, -, empty⟩
    have member : route ∈ before ++ route :: after :=
      List.mem_append_right before List.mem_cons_self
    exact ⟨empty.resolve_right (filters route member), List.ne_nil_of_mem member⟩
  · rintro ⟨empty, some⟩
    obtain ⟨first, routes, rfl⟩ := List.exists_cons_of_ne_nil some
    exact ⟨[], first, routes, rfl, nofun, .inl empty⟩

/-- The first route takes the topic, or it is passed by and a later one does. -/
theorem leads_cons :
    Leads topic (first :: routes) kind ↔
      Topic.covers first.filter topic = true ∧ first.kind = kind ∨
        ¬Topic.covers first.filter topic = true ∧ Leads topic routes kind := by
  constructor
  · rintro ⟨before, route, after, parts, passed, covered⟩
    obtain ⟨rfl, same⟩ | ⟨before, rfl, rfl⟩ := List.cons_eq_append_iff.mp parts
    · obtain ⟨rfl, -⟩ := List.cons.inj same
      exact .inl covered
    · obtain ⟨uncovered, passed⟩ := passedBy_cons.mp passed
      exact .inr ⟨uncovered, before, route, after, rfl, passed, covered⟩
  · rintro (covered | ⟨uncovered, before, route, after, rfl, passed, covered⟩)
    · exact ⟨[], first, routes, rfl, nofun, covered⟩
    · exact ⟨first :: before, route, after, rfl, passedBy_cons.mpr ⟨uncovered, passed⟩, covered⟩

theorem matchesFilter_of_empty {name filter : String} (empty : name = "" ∨ filter = "") :
    Topic.matchesFilter name filter = .error (Topic.emptyFault name) := by
  by_cases nameless : name = ""
  · simp [Topic.matchesFilter, Topic.emptyFault, nameless]
  · have blank : filter = "" := empty.resolve_left nameless
    simp [Topic.matchesFilter, Topic.emptyFault, nameless, blank]

theorem kindOf_of_stuck (stuck : Stuck topic routes) :
    kindOf topic routes = .error (Topic.emptyFault topic) := by
  induction routes with
  | nil =>
      obtain ⟨before, route, after, parts, -⟩ := stuck
      simp at parts
  | cons first routes ih =>
      by_cases empty : topic = "" ∨ first.filter = ""
      · exact kindOf_cons_of_error (matchesFilter_of_empty empty) routes
      · obtain ⟨uncovered, later⟩ := (stuck_cons.mp stuck).resolve_left empty
        obtain ⟨named, some⟩ := not_or.mp empty
        rw [kindOf_cons_of_mismatch (Topic.matchesFilter_of_not_covers named some uncovered)]
        exact ih later

theorem kindOf_of_leads (clear : ¬Stuck topic routes) (leads : Leads topic routes kind) :
    kindOf topic routes = .ok kind := by
  induction routes with
  | nil =>
      obtain ⟨before, route, after, parts, -⟩ := leads
      simp at parts
  | cons first routes ih =>
      obtain ⟨covered, rfl⟩ | ⟨uncovered, later⟩ := leads_cons.mp leads
      · exact kindOf_cons_of_match (Topic.covers_iff.mp covered) routes
      · rw [stuck_cons, not_or, not_or] at clear
        obtain ⟨⟨named, some⟩, clear⟩ := clear
        rw [kindOf_cons_of_mismatch (Topic.matchesFilter_of_not_covers named some uncovered)]
        exact ih (fun stuck => clear ⟨uncovered, stuck⟩) later

theorem kindOf_of_passedBy (clear : ¬Stuck topic routes) (passed : PassedBy topic routes) :
    kindOf topic routes = .ok .ignored := by
  induction routes with
  | nil => rfl
  | cons first routes ih =>
      obtain ⟨uncovered, passed⟩ := passedBy_cons.mp passed
      rw [stuck_cons, not_or, not_or] at clear
      obtain ⟨⟨named, some⟩, clear⟩ := clear
      rw [kindOf_cons_of_mismatch (Topic.matchesFilter_of_not_covers named some uncovered)]
      exact ih (fun stuck => clear ⟨uncovered, stuck⟩) passed

/-- A table that does not lead anywhere is passed by. -/
theorem passedBy_or_leads (topic : String) (routes : List Route) :
    PassedBy topic routes ∨ ∃ kind, Leads topic routes kind := by
  induction routes with
  | nil => exact .inl nofun
  | cons first routes ih =>
      by_cases covered : Topic.covers first.filter topic = true
      · exact .inr ⟨first.kind, leads_cons.mpr (.inl ⟨covered, rfl⟩)⟩
      · obtain passed | ⟨kind, leads⟩ := ih
        · exact .inl (passedBy_cons.mpr ⟨covered, passed⟩)
        · exact .inr ⟨kind, leads_cons.mpr (.inr ⟨covered, leads⟩)⟩

/-- A topic without a kind is reported with a reason. -/
theorem exists_reason_of_error {fault : Fault} (failed : kindOf topic routes = .error fault) :
    ∃ reason, fault = .invalidArgument reason := by
  by_cases stuck : Stuck topic routes
  · rw [kindOf_of_stuck stuck] at failed
    exact ⟨_, (Except.error.inj failed).symm⟩
  · obtain passed | ⟨kind, leads⟩ := passedBy_or_leads topic routes
    · simp [kindOf_of_passedBy stuck passed] at failed
    · simp [kindOf_of_leads stuck leads] at failed

theorem Wants.kindOf (wants : Wants topic routes kind) :
    Route.kindOf topic routes = .ok kind :=
  kindOf_of_leads wants.clear wants.leads

/-- What the engine is to get is what the search finds, if that is a kind that
the engine takes. -/
theorem wants_iff :
    Wants topic routes kind ↔ kindOf topic routes = .ok kind ∧ kind ≠ .ignored := by
  refine ⟨fun wants => ⟨wants.kindOf, wants.routed⟩, ?_⟩
  rintro ⟨found, routed⟩
  have clear : ¬Stuck topic routes := by
    intro stuck
    rw [kindOf_of_stuck stuck] at found
    cases found
  obtain passed | ⟨other, leads⟩ := passedBy_or_leads topic routes
  · rw [kindOf_of_passedBy clear passed] at found
    exact absurd (Except.ok.inj found).symm routed
  · rw [kindOf_of_leads clear leads] at found
    obtain rfl := Except.ok.inj found
    exact ⟨clear, leads, routed⟩

end Route

end UpdateBridge
