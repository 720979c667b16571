import UpdateBridge.Message
import UpdateBridge.Intake.Dispatch
import UpdateBridge.Proofs.Topic.Covering

/-!
# Routes that are never reached

A route is in the shadow of an earlier one whose filter takes all the names that
its own takes. Nothing gets past the earlier route that the later one could take,
so the table says the same without it. What is between the two does not matter:
a filter that is empty is reported, or not reached, as before.

Whether one filter takes all that another takes is left to the matcher, which
decides it for filters that do not end in `#` (`Topic.matchesFilter_trans`).
-/

namespace UpdateBridge

namespace Route

variable {topic : String} {routes front rest rest' : List Route} {broad narrow : Route}

/-- The filter of the first route takes that of the second as a name, and the
second does not end in `#`. -/
structure Shadows (broad narrow : Route) : Prop where
  closed : ¬Topic.EndsInRest narrow.filter.toList
  taken : Topic.matchesFilter narrow.filter broad.filter = .ok true

/-- A topic that the first route lets pass is not for the second. -/
theorem Shadows.mismatch (shadows : Shadows broad narrow)
    (passed : Topic.matchesFilter topic broad.filter = .ok false) :
    Topic.matchesFilter topic narrow.filter = .ok false := by
  have named : topic ≠ "" := (Topic.nonempty_of_eq_ok passed).1
  have some : narrow.filter ≠ "" := (Topic.nonempty_of_eq_ok shadows.taken).1
  apply Topic.matchesFilter_of_not_covers named some
  intro covered
  have taken := Topic.matchesFilter_trans shadows.closed (Topic.covers_iff.mp covered) shadows.taken
  simp [passed] at taken

/-- What the search finds depends on the routes behind the first ones only
through what it finds there. -/
theorem kindOf_append_congr (same : kindOf topic rest = kindOf topic rest') (front : List Route) :
    kindOf topic (front ++ rest) = kindOf topic (front ++ rest') := by
  induction front with
  | nil => exact same
  | cons first front ih => simp only [List.cons_append, kindOf, ih]

/-- Behind a route that shadows it, a route makes no difference. -/
theorem kindOf_append_cons_of_shadows (shadows : Shadows broad narrow) (earlier : broad ∈ front)
    (topic : String) (rest : List Route) :
    kindOf topic (front ++ narrow :: rest) = kindOf topic (front ++ rest) := by
  induction front with
  | nil => cases earlier
  | cons first front ih =>
      obtain rfl | later := List.mem_cons.mp earlier
      · cases matched : Topic.matchesFilter topic broad.filter with
        | error fault =>
            exact (kindOf_cons_of_error matched _).trans (kindOf_cons_of_error matched _).symm
        | ok taken =>
            cases taken with
            | true =>
                exact (kindOf_cons_of_match matched _).trans (kindOf_cons_of_match matched _).symm
            | false =>
                have unseen := kindOf_cons_of_mismatch (shadows.mismatch matched) rest
                exact kindOf_append_congr unseen (broad :: front)
      · exact kindOf_append_congr (ih later) [first]

end Route

/-- Tables that say the same of a topic let the same become of its messages. -/
theorem Intake.dispatch_congr {σ : Type} {routes routes' : List Route} {topic : String}
    (same : Route.kindOf topic routes = Route.kindOf topic routes') (sink : Sink σ)
    (payload : List UInt8) (pool : Pool) (s : σ) :
    dispatch sink routes topic payload pool s = dispatch sink routes' topic payload pool s := by
  simp only [dispatch, same]

namespace Route

/-- A route that stands behind one that takes its filter as a name can be removed
if its filter does not end in `#`. Every topic keeps its kind, or the fault with
which it has none, and the same becomes of every message. -/
theorem shadowed_route_redundant {routes : List Route} {i j : Nat} {broad narrow : Route}
    (earlier : i < j) (first : routes[i]? = some broad) (second : routes[j]? = some narrow)
    (closed : ¬Topic.EndsInRest narrow.filter.toList)
    (taken : Topic.matchesFilter narrow.filter broad.filter = .ok true) :
    (∀ topic, kindOf topic (routes.eraseIdx j) = kindOf topic routes) ∧
      ∀ (σ : Type) (sink : Sink σ) (m : Message) (pool : Pool) (s : σ),
        Intake.dispatch sink (routes.eraseIdx j) m.topic m.payload pool s =
          Intake.dispatch sink routes m.topic m.payload pool s := by
  have same : ∀ topic, kindOf topic (routes.eraseIdx j) = kindOf topic routes := by
    intro topic
    obtain ⟨inside, rfl⟩ := List.getElem?_eq_some_iff.mp second
    have before : broad ∈ routes.take j := by
      apply List.mem_of_getElem? (i := i)
      rw [List.getElem?_take_of_lt earlier, first]
    have parts : routes = routes.take j ++ routes[j] :: routes.drop (j + 1) := by simp
    rw [List.eraseIdx_eq_take_drop_succ]
    conv_rhs => rw [parts]
    exact (kindOf_append_cons_of_shadows ⟨closed, taken⟩ before topic _).symm
  exact ⟨same, fun σ sink m pool s => Intake.dispatch_congr (same m.topic) sink m.payload pool s⟩

/-- The route behind `+/#` that has a literal wildcard in its filter can go,
although a filter that is empty stands between them. -/
theorem shadowed_route_redundant_literal :
    let routes : List Route :=
      [⟨"x", .stop⟩, ⟨"+/#", .fileBlock⟩, ⟨"", .start⟩, ⟨"a/+/n#", .jobDocument⟩]
    ¬Topic.EndsInRest "a/+/n#".toList ∧ Topic.matchesFilter "a/+/n#" "+/#" = .ok true ∧
      ∀ topic, kindOf topic (routes.eraseIdx 3) = kindOf topic routes := by
  have closed : ¬Topic.EndsInRest "a/+/n#".toList :=
    mt Topic.getLast?_levels_eq_anyRest_iff.mpr (by decide +kernel)
  have taken : Topic.matchesFilter "a/+/n#" "+/#" = .ok true := by decide +kernel
  exact ⟨closed, taken,
    (shadowed_route_redundant (i := 1) (j := 3) (by decide) rfl rfl closed taken).1⟩

end Route

end UpdateBridge
