import UpdateBridge.Proofs.Exchange.Basic

/-!
# Reactions come apart

The reactions to a sequence of callbacks have two effects, and neither shows in the
other. The pool is as if only the buffers reported processed had been given back,
in that order. The engine is as if only the requests had been made that each
callback by itself leads to. What the engine answers to a request, and what the
pool answers to a release, decides nothing about what happens later.

`Control.watched` adds to any engine a record of the requests made of it, and a
run with it differs from a run without it by that record alone
(`ofCallbacks_watched`).
-/

namespace UpdateBridge

variable {ε : Type}

/-- The same engine, kept together with the requests made of it. -/
def Control.watched (control : Control ε) : Control (ε × List Request) where
  ask request watched :=
    ((control.ask request watched.1).1,
      (control.ask request watched.1).2, watched.2 ++ [request])
  notes := control.notes

/-- The engine after these requests, whatever it answered. -/
def Control.askAll (control : Control ε) (engine : ε) (requests : List Request) : ε :=
  requests.foldl (fun engine request => (control.ask request engine).2) engine

theorem Control.askAll_append (control : Control ε) (engine : ε) (first second : List Request) :
    control.askAll engine (first ++ second) =
      control.askAll (control.askAll engine first) second :=
  List.foldl_append

/-- What a callback leads the engine to be asked. -/
def Callback.requests (unsubscribe : Bool) : Callback → List Request
  | .activate => [.activate, .shutdown unsubscribe]
  | .startTest => [.judge .accepted]
  | .selfTestFailed => [.shutdown unsubscribe]
  | .fail | .processed _ => []

namespace Reaction

/-- The same reaction of another engine. -/
def withEngine {φ : Type} (reaction : Reaction ε) (engine : φ) : Reaction φ :=
  ⟨reaction.result, reaction.pool, engine, reaction.notes⟩

variable (control : Control ε) (unsubscribe : Bool) (pool : Pool) (engine : ε)

/-- Also after a refused activation the engine is shut down. -/
theorem engine_ofCallback (callback : Callback) :
    (ofCallback control unsubscribe pool engine callback).engine =
      control.askAll engine (callback.requests unsubscribe) := by
  cases callback with
  | processed buffer => cases buffer <;> rfl
  | _ => rfl

/-- A watched engine reacts as it does unwatched. -/
theorem ofCallback_watched (earlier : List Request) (callback : Callback) :
    ofCallback control.watched unsubscribe pool (engine, earlier) callback =
      let reaction := ofCallback control unsubscribe pool engine callback
      reaction.withEngine (reaction.engine, earlier ++ callback.requests unsubscribe) := by
  cases callback with
  | activate =>
      have record : earlier ++ [.activate] ++ [.shutdown unsubscribe] =
          earlier ++ [Request.activate, .shutdown unsubscribe] := List.append_assoc ..
      simp only [ofCallback, activating, shuttingDown, withEngine, Control.watched, record,
        Callback.requests]
  | startTest => rfl
  | selfTestFailed => rfl
  | fail => simp only [ofCallback, withEngine, Callback.requests, List.append_nil]
  | processed buffer =>
      cases buffer with
      | none => simp only [ofCallback, withEngine, Callback.requests, List.append_nil]
      | some h => simp only [ofCallback, givingBack, withEngine, Callback.requests, List.append_nil]

/-- A failed reaction is not reported to anybody. -/
theorem result_ofCallbacks (callbacks : List Callback) :
    (ofCallbacks control unsubscribe pool engine callbacks).result = .ok () := by
  induction callbacks generalizing pool engine with
  | nil => rfl
  | cons callback callbacks ih => exact ih _ _

/-- Of all reactions only those to processed buffers touch the pool. -/
theorem pool_ofCallbacks (callbacks : List Callback) :
    (ofCallbacks control unsubscribe pool engine callbacks).pool =
      (pool.run ((callbacks.flatMap Callback.reports).map .release)).2 := by
  induction callbacks generalizing pool engine with
  | nil => rfl
  | cons callback callbacks ih =>
      let first := ofCallback control unsubscribe pool engine callback
      calc (ofCallbacks control unsubscribe first.pool first.engine callbacks).pool
        _ = (first.pool.run ((callbacks.flatMap Callback.reports).map .release)).2 := ih _ _
        _ = ((pool.run (callback.reports.map .release)).2.run
              ((callbacks.flatMap Callback.reports).map .release)).2 := by
            rw [Exchange.pool_ofCallback]
        _ = (pool.run (((callback :: callbacks).flatMap Callback.reports).map .release)).2 := by
            rw [← Pool.run_append, ← List.map_append, List.flatMap_cons]

/-- The engine is asked what each callback leads to, one after another. -/
theorem engine_ofCallbacks (callbacks : List Callback) :
    (ofCallbacks control unsubscribe pool engine callbacks).engine =
      control.askAll engine (callbacks.flatMap (Callback.requests unsubscribe)) := by
  induction callbacks generalizing pool engine with
  | nil => rfl
  | cons callback callbacks ih =>
      let first := ofCallback control unsubscribe pool engine callback
      calc (ofCallbacks control unsubscribe first.pool first.engine callbacks).engine
        _ = control.askAll first.engine (callbacks.flatMap (Callback.requests unsubscribe)) :=
            ih _ _
        _ = control.askAll (control.askAll engine (callback.requests unsubscribe))
              (callbacks.flatMap (Callback.requests unsubscribe)) := by
            rw [engine_ofCallback]
        _ = control.askAll engine
              ((callback :: callbacks).flatMap (Callback.requests unsubscribe)) := by
            rw [← Control.askAll_append, List.flatMap_cons]

/-- Watching an engine does not change the reactions, and what is recorded depends
on the callbacks alone. -/
theorem ofCallbacks_watched (earlier : List Request) (callbacks : List Callback) :
    ofCallbacks control.watched unsubscribe pool (engine, earlier) callbacks =
      let reaction := ofCallbacks control unsubscribe pool engine callbacks
      reaction.withEngine
        (reaction.engine, earlier ++ callbacks.flatMap (Callback.requests unsubscribe)) := by
  induction callbacks generalizing pool engine earlier with
  | nil => simp [withEngine]
  | cons callback callbacks ih =>
      simp only [ofCallbacks_cons, ofCallback_watched, withEngine, ih, List.flatMap_cons,
        List.append_assoc]

/-- Reactions come apart. The pool after any callbacks is that after the releases
they report, in order; the requests made of the engine are those that each callback
leads to by itself, one after another, and what the engine is then follows from them
and from nothing else. That holds for every pool, and whatever is answered to the
releases and the requests: nobody hears of a failure. -/
theorem reactions_decompose (callbacks : List Callback) :
    let after := ofCallbacks control unsubscribe pool engine callbacks
    let requests := callbacks.flatMap (Callback.requests unsubscribe)
    after.pool = (pool.run ((callbacks.flatMap Callback.reports).map .release)).2 ∧
      ofCallbacks control.watched unsubscribe pool (engine, []) callbacks =
        after.withEngine (after.engine, requests) ∧
      after.engine = control.askAll engine requests ∧ after.result = .ok () :=
  ⟨pool_ofCallbacks control unsubscribe pool engine callbacks,
    ofCallbacks_watched control unsubscribe pool engine [] callbacks,
    engine_ofCallbacks control unsubscribe pool engine callbacks,
    result_ofCallbacks control unsubscribe pool engine callbacks⟩

/-- An engine that refuses to activate and to accept is asked all the same, and the
handle that is not of this pool does not matter to it. -/
example :
    (ofCallbacks Control.answering true (Pool.create 2 8)
      ⟨[], .active, .error (.engineRejected "activation"), .error (.engineRejected "image state")⟩
      [.activate, .processed (some ⟨7, 0⟩), .startTest, .selfTestFailed]).engine.requests =
      [.activate, .shutdown true, .judge .accepted, .shutdown true] := rfl

end Reaction

end UpdateBridge
