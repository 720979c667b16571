import UpdateBridge.Event
import UpdateBridge.Topic.Matching
import UpdateBridge.Topic.Naming

/-!
# Routes

A table of routes says which topics concern the engine and as what. A topic
takes the kind of the first route whose filter matches it; one that no route
matches is ignored. A topic or filter that cannot be matched is reported when
the search reaches it, and not before.
-/

namespace UpdateBridge

structure Route where
  filter : String
  kind : EventKind
  deriving DecidableEq, Repr, Inhabited

namespace Route

def updates : List Route :=
  [⟨Topic.notifyFilter, .jobDocument⟩,
   ⟨Topic.acceptedFilter, .jobDocument⟩,
   ⟨Topic.streamFilter, .fileBlock⟩]

/-- What a message on this topic is, by these routes. -/
def kindOf (topic : String) : List Route → Except Fault EventKind
  | [] => .ok .ignored
  | route :: routes =>
    match Topic.matchesFilter topic route.filter with
    | .error fault => .error fault
    | .ok true => .ok route.kind
    | .ok false => kindOf topic routes

@[simp] theorem kindOf_nil (topic : String) : kindOf topic [] = .ok .ignored := rfl

theorem kindOf_cons_of_match {topic : String} {route : Route}
    (h : Topic.matchesFilter topic route.filter = .ok true) (routes : List Route) :
    kindOf topic (route :: routes) = .ok route.kind := by
  simp [kindOf, h]

theorem kindOf_cons_of_mismatch {topic : String} {route : Route}
    (h : Topic.matchesFilter topic route.filter = .ok false) (routes : List Route) :
    kindOf topic (route :: routes) = kindOf topic routes := by
  simp [kindOf, h]

theorem kindOf_cons_of_error {topic : String} {route : Route} {fault : Fault}
    (h : Topic.matchesFilter topic route.filter = .error fault) (routes : List Route) :
    kindOf topic (route :: routes) = .error fault := by
  simp [kindOf, h]

end Route

end UpdateBridge
