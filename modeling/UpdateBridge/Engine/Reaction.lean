import UpdateBridge.Journal

/-!
# Reacting to the engine

The bridge answers each callback of the engine with a fixed policy. A finished
download is activated and the engine is then shut down, whether or not the
activation worked; a first run of a new image accepts it; a failed self test
shuts the engine down. A processed event gives its buffer back, and that is
the only reaction that touches the pool.

The engine is asked through a `Control`, which says how its state and answer
follow from a request. A shutdown cannot be refused, so its answer is not used.
-/

namespace UpdateBridge

/-- How an engine with states `ε` answers requests, and what it notes when
asked. -/
structure Control (ε : Type) where
  ask : Request → ε → Except Fault Unit × ε
  notes : Request → List Note

/-- What a callback leads to. -/
structure Reaction (ε : Type) where
  result : Except Fault Unit
  pool : Pool
  engine : ε
  notes : List Note

namespace Reaction

variable {ε : Type}

def shuttingDown (control : Control ε) (unsubscribe : Bool) (pool : Pool) (engine : ε)
    (notes : List Note) : Reaction ε :=
  let request := Request.shutdown unsubscribe
  ⟨.ok (), pool, (control.ask request engine).2, notes ++ control.notes request⟩

/-- Boot into the new image, and then shut the engine down. -/
def activating (control : Control ε) (unsubscribe : Bool) (pool : Pool) (engine : ε) :
    Reaction ε :=
  let (answer, engine) := control.ask .activate engine
  let noted := match answer with
    | .ok () => Note.imageActivated
    | .error fault => Note.activationFailed fault
  shuttingDown control unsubscribe pool engine
    (.activateReceived :: control.notes .activate ++ [noted])

/-- Accept the image that runs for the first time. -/
def accepting (control : Control ε) (pool : Pool) (engine : ε) : Reaction ε :=
  let request := Request.judge .accepted
  let (answer, engine) := control.ask request engine
  let noted := match answer with
    | .ok () => Note.imageAccepted
    | .error fault => Note.acceptanceFailed fault
  ⟨answer, pool, engine, .startTestReceived :: control.notes request ++ [noted]⟩

def givingBack (h : Handle) (pool : Pool) (engine : ε) : Reaction ε :=
  let (answer, pool) := pool.release h
  ⟨answer, pool, engine, .processedBuffer h :: Note.ofRelease h answer⟩

def ofCallback (control : Control ε) (unsubscribe : Bool) (pool : Pool) (engine : ε) :
    Callback → Reaction ε
  | .activate => activating control unsubscribe pool engine
  | .fail => ⟨.ok (), pool, engine, [.failReceived]⟩
  | .startTest => accepting control pool engine
  | .processed (some h) => givingBack h pool engine
  | .processed none => ⟨.ok (), pool, engine, [.processedNothing]⟩
  | .selfTestFailed => shuttingDown control unsubscribe pool engine [.selfTestFailed]

/-- The reactions to several callbacks, one after another; a failed one does
not keep the next from happening. -/
def ofCallbacks (control : Control ε) (unsubscribe : Bool) (pool : Pool) (engine : ε) :
    List Callback → Reaction ε
  | [] => ⟨.ok (), pool, engine, []⟩
  | callback :: callbacks =>
    let first := ofCallback control unsubscribe pool engine callback
    let others := ofCallbacks control unsubscribe first.pool first.engine callbacks
    { others with notes := first.notes ++ others.notes }

@[simp] theorem ofCallbacks_nil (control : Control ε) (unsubscribe : Bool) (pool : Pool)
    (engine : ε) :
    ofCallbacks control unsubscribe pool engine [] = ⟨.ok (), pool, engine, []⟩ := rfl

theorem ofCallbacks_cons (control : Control ε) (unsubscribe : Bool) (pool : Pool) (engine : ε)
    (callback : Callback) (callbacks : List Callback) :
    ofCallbacks control unsubscribe pool engine (callback :: callbacks) =
      let first := ofCallback control unsubscribe pool engine callback
      let others := ofCallbacks control unsubscribe first.pool first.engine callbacks
      { others with notes := first.notes ++ others.notes } := rfl

end Reaction

/-- An engine that answers as it was told to and keeps the requests made of
it. -/
structure Answering where
  requests : List Request
  phase : Phase
  activation : Except Fault Unit
  judgement : Except Fault Unit

/-- How an answering engine is asked. -/
def Control.answering : Control Answering where
  ask request engine :=
    let engine := { engine with requests := engine.requests ++ [request] }
    match request with
    | .activate => (engine.activation, engine)
    | .judge _ => (engine.judgement, engine)
    | .shutdown _ => (.ok (), { engine with phase := .shuttingDown })
  notes _ := []

end UpdateBridge
