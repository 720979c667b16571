/-!
# Turns

Those who share one thread run by turns. Whoever finds plenty waiting for it
gives way after a while: it takes at most `limit` things in one turn, and goes
on in its next turn, when everybody else who was ready has had one. A turn that
ends this way ends before it is known whether there is anything left.
-/

namespace UpdateBridge.Turn

/-- How many things are taken in one turn at most. -/
def limit : Nat := 128

end UpdateBridge.Turn
