import UpdateBridge.Engine.Reaction
import UpdateBridge.Proofs.Intake.Dispatch

/-!
# The exchange between intake and engine

An exchange is a pool and the engine's queue with everybody who works on them:
the intake dispatches messages, others submit the start and the stop of the
engine, the engine's side takes events, calls back and may go, and anybody who
holds handles may use the pool directly. `act` does one thing, by the
operations of the pool, the queue and the dispatcher that the bridge itself
uses, and a run is any sequence of things in any order.

An exchange also keeps what happened: the events accepted, those taken and
those lost with the queue, the handles reported processed and those given back.
Nothing is ever decided by these records.
-/

namespace UpdateBridge

open Pool (WithinGenerations Spent)

inductive Exchange.Action where
  /-- A message arrives. -/
  | message (topic : String) (payload : List UInt8)
  /-- The engine is to start. -/
  | start
  /-- The engine is to stop. -/
  | stop
  /-- The engine's side takes an event. -/
  | receive
  /-- The engine's side goes. -/
  | leave
  /-- The engine calls back. -/
  | callback (c : Callback)
  | acquire
  | write (h : Handle) (payload : List UInt8)
  | release (h : Handle)
  deriving DecidableEq, Repr

/-- What is fixed in an exchange: the routes, and how its engine is asked. -/
structure Exchange.Setting (ε : Type) where
  routes : List Route
  control : Control ε
  unsubscribe : Bool

/-- A pool and a queue of events, and what happened to them. -/
structure Exchange (ε : Type) where
  pool : Pool
  queue : Mailbox Event
  engine : ε
  /-- The events that the queue accepted, in order. -/
  submitted : List Event
  /-- The events that the engine's side took, in order. -/
  received : List Event
  /-- The events that were waiting when the engine's side went. -/
  lost : List Event
  /-- The handles that were reported processed. -/
  reported : List Handle
  /-- The handles that came back to the pool. -/
  back : List Handle

/-- The event that an outcome is about. -/
def Outcome.events : Outcome → List Event
  | .dispatched kind h length => [Event.lending kind h length]
  | _ => []

theorem Outcome.events_of_undispatched {outcome : Outcome}
    (undispatched : outcome = .ignored ∨ ∃ fault, outcome = .dropped fault) :
    outcome.events = [] := by
  obtain rfl | ⟨fault, rfl⟩ := undispatched
  · rfl
  · rfl

/-- The handle that a callback reports processed. -/
def Callback.reports : Callback → List Handle
  | .processed (some h) => [h]
  | _ => []

theorem Callback.reports_cases (c : Callback) : c.reports = [] ∨ ∃ h, c.reports = [h] := by
  cases c with
  | processed buffer =>
      cases buffer with
      | none => exact .inl rfl
      | some h => exact .inr ⟨h, rfl⟩
  | _ => exact .inl rfl

/-- The handle that an action asks to give back. -/
def Exchange.Action.givesBack : Action → List Handle
  | .callback c => c.reports
  | .release h => [h]
  | _ => []

namespace Exchange

variable {ε : Type} {setting : Setting ε} {x : Exchange ε} {a : Action} {h : Handle}

/-- An exchange with all buffers free and nothing in the queue. -/
def create (capacity size depth : Nat) (engine : ε) : Exchange ε :=
  ⟨Pool.create capacity size, Mailbox.empty depth, engine, [], [], [], [], []⟩

/-- What dispatching a message comes to here. -/
def dispatch (setting : Setting ε) (x : Exchange ε) (topic : String) (payload : List UInt8) :
    Intake.Dispatched (Mailbox Event) :=
  Intake.dispatch Sink.queue setting.routes topic payload x.pool x.queue

def submit (x : Exchange ε) (event : Event) : Exchange ε :=
  match Sink.queue.offer x.queue event with
  | (.ok (), queue) => { x with queue, submitted := x.submitted ++ [event] }
  | (.error _, queue) => { x with queue }

def receive (x : Exchange ε) : Exchange ε :=
  match x.queue.take with
  | (.item event, queue) => { x with queue, received := x.received ++ [event] }
  | (_, queue) => { x with queue }

/-- The operations on the pool that an action consists of. -/
def operations (setting : Setting ε) (x : Exchange ε) : Action → List Pool.Operation
  | .message topic payload =>
    Intake.operations Sink.queue setting.routes topic payload x.pool x.queue
  | .callback c => c.reports.map .release
  | .acquire => [.acquire]
  | .write h payload => [.write h payload]
  | .release h => [.release h]
  | _ => []

/-- Do one thing, but do not record what came back to the pool. -/
def perform (setting : Setting ε) (x : Exchange ε) : Action → Exchange ε
  | .message topic payload =>
    let d := x.dispatch setting topic payload
    { x with pool := d.pool, queue := d.sink, submitted := x.submitted ++ d.outcome.events }
  | .start => x.submit .start
  | .stop => x.submit .stop
  | .receive => x.receive
  | .leave => { x with queue := x.queue.close, lost := x.lost ++ x.queue.items }
  | .callback c =>
    let r := Reaction.ofCallback setting.control setting.unsubscribe x.pool x.engine c
    { x with pool := r.pool, engine := r.engine, reported := x.reported ++ c.reports }
  | .acquire => { x with pool := x.pool.acquire.2 }
  | .write h payload => { x with pool := (x.pool.write h payload).2 }
  | .release h => { x with pool := (x.pool.release h).2 }

/-- The handles that an action brings back to the pool. -/
def returned (setting : Setting ε) (x : Exchange ε) (a : Action) : List Handle :=
  Pool.returned (x.operations setting a) (x.pool.run (x.operations setting a)).1

def act (setting : Setting ε) (x : Exchange ε) (a : Action) : Exchange ε :=
  { x.perform setting a with back := x.back ++ x.returned setting a }

def run (setting : Setting ε) (x : Exchange ε) (actions : List Action) : Exchange ε :=
  actions.foldl (act setting) x

@[simp] theorem run_nil (setting : Setting ε) (x : Exchange ε) : x.run setting [] = x := rfl

@[simp] theorem run_cons (setting : Setting ε) (x : Exchange ε) (a : Action)
    (actions : List Action) :
    x.run setting (a :: actions) = (x.act setting a).run setting actions := rfl

theorem run_append (setting : Setting ε) (x : Exchange ε) (first second : List Action) :
    x.run setting (first ++ second) = (x.run setting first).run setting second :=
  List.foldl_append

@[simp] theorem back_act (setting : Setting ε) (x : Exchange ε) (a : Action) :
    (x.act setting a).back = x.back ++ x.returned setting a := rfl

/-- An event without a message behind it is added, or nothing happens. -/
theorem submit_cases (x : Exchange ε) (event : Event) :
    x.submit event = x ∨
      x.queue.closed = false ∧
        x.submit event = { x with
          queue := { x.queue with items := x.queue.items ++ [event] },
          submitted := x.submitted ++ [event] } := by
  unfold submit
  rcases Sink.queue_offer_cases x.queue event with ⟨accepted, opened⟩ | ⟨fault, refused⟩
  · rw [accepted]
    exact .inr ⟨opened, rfl⟩
  · rw [refused]
    exact .inl rfl

/-- The oldest event is taken, or nothing happens. -/
theorem receive_cases (x : Exchange ε) :
    x.receive = x ∨
      ∃ event items, x.queue.items = event :: items ∧
        x.receive = { x with
          queue := { x.queue with items },
          received := x.received ++ [event] } := by
  unfold receive
  cases waiting : x.queue.items with
  | nil =>
      left
      rw [Mailbox.take, waiting]
      cases x.queue.ended <;> rfl
  | cons event items =>
      rw [Mailbox.take_cons waiting]
      exact .inr ⟨event, items, rfl, rfl⟩

theorem pool_submit (x : Exchange ε) (event : Event) : (x.submit event).pool = x.pool := by
  rcases x.submit_cases event with same | ⟨-, added⟩
  · rw [same]
  · rw [added]

theorem pool_receive (x : Exchange ε) : x.receive.pool = x.pool := by
  rcases x.receive_cases with same | ⟨event, items, -, taken⟩
  · rw [same]
  · rw [taken]

theorem back_submit (x : Exchange ε) (event : Event) : (x.submit event).back = x.back := by
  rcases x.submit_cases event with same | ⟨-, added⟩
  · rw [same]
  · rw [added]

theorem back_receive (x : Exchange ε) : x.receive.back = x.back := by
  rcases x.receive_cases with same | ⟨event, items, -, taken⟩
  · rw [same]
  · rw [taken]

theorem back_perform (setting : Setting ε) (x : Exchange ε) (a : Action) :
    (x.perform setting a).back = x.back := by
  cases a with
  | start => exact back_submit x .start
  | stop => exact back_submit x .stop
  | receive => exact back_receive x
  | _ => rfl

/-- Only a processed buffer touches the pool. -/
theorem pool_ofCallback (control : Control ε) (unsubscribe : Bool) (pool : Pool) (engine : ε)
    (c : Callback) :
    (Reaction.ofCallback control unsubscribe pool engine c).pool =
      (pool.run (c.reports.map .release)).2 := by
  cases c with
  | processed buffer => cases buffer <;> rfl
  | _ => rfl

/-- An action changes the pool by its operations and in no other way. -/
theorem pool_act (setting : Setting ε) (x : Exchange ε) (a : Action) :
    (x.act setting a).pool = (x.pool.run (x.operations setting a)).2 := by
  cases a with
  | message topic payload => exact Intake.dispatch_pool Sink.queue _ topic payload x.pool x.queue
  | start => exact pool_submit x .start
  | stop => exact pool_submit x .stop
  | receive => exact pool_receive x
  | callback c => exact pool_ofCallback setting.control setting.unsubscribe x.pool x.engine c
  | _ => rfl

/-- A live handle that an action gives back is spent. -/
theorem spent_act (hx : x.pool.Aged x.back) (live : x.pool.contents h ≠ none)
    (given : h ∈ a.givesBack) : Spent (x.act setting a).back h := by
  have operations : x.operations setting a = [.release h] := by
    cases a with
    | callback c =>
        cases c with
        | processed buffer =>
            cases buffer with
            | none => exact absurd given List.not_mem_nil
            | some g =>
                rw [List.mem_singleton.mp given]
                rfl
        | _ => exact absurd given List.not_mem_nil
    | release g =>
        rw [List.mem_singleton.mp given]
        rfl
    | _ => exact absurd given List.not_mem_nil
  rw [back_act, returned, operations, Pool.returned_release hx.consistent live]
  exact hx.spent_of_released live

/-- What the arrival of a message can come to. -/
inductive Arrival (setting : Setting ε) (x : Exchange ε) (topic : String) (payload : List UInt8) :
    Prop
  | unheld
      (outcome : ∀ kind h length,
        (x.dispatch setting topic payload).outcome ≠ .dispatched kind h length)
      (contents : (x.act setting (.message topic payload)).pool.contents = x.pool.contents)
      (queue : (x.act setting (.message topic payload)).queue = x.queue)
      (submitted : (x.act setting (.message topic payload)).submitted = x.submitted)
  | held {kind : EventKind} {h : Handle}
      (outcome : (x.dispatch setting topic payload).outcome = .dispatched kind h payload.length)
      (acquired : ∃ held, x.pool.acquire = (.ok h, held)) (unused : x.pool.contents h = none)
      (contents : (x.act setting (.message topic payload)).pool.contents =
        Function.update x.pool.contents h (some payload))
      (opened : x.queue.closed = false)
      (queue : (x.act setting (.message topic payload)).queue =
        { x.queue with items := x.queue.items ++ [Event.lending kind h payload.length] })
      (submitted : (x.act setting (.message topic payload)).submitted =
        x.submitted ++ [Event.lending kind h payload.length])

/-- A message takes a buffer and adds an event, or does neither. -/
theorem arrival (hx : x.pool.Consistent) (setting : Setting ε) (topic : String)
    (payload : List UInt8) : Arrival setting x topic payload := by
  have effect := Intake.dispatch_effect hx Sink.queue setting.routes topic payload x.queue
  change Intake.Effect _ _ _ _ (x.dispatch setting topic payload) at effect
  have submitted : (x.act setting (.message topic payload)).submitted =
      x.submitted ++ (x.dispatch setting topic payload).outcome.events := rfl
  cases effect with
  | unheld outcome contents refused =>
      have queue : (x.dispatch setting topic payload).sink = x.queue := by
        rcases refused with same | ⟨event, fault, offered⟩
        · exact same
        · rcases Sink.queue_offer_cases x.queue event with ⟨accepted, -⟩ | ⟨fault', kept⟩
          · rw [accepted] at offered
            cases offered
          · rw [kept] at offered
            exact (congrArg Prod.snd offered).symm
      refine .unheld ?_ contents queue ?_
      · intro kind h length dispatched
        rw [dispatched] at outcome
        rcases outcome with ignored | ⟨fault, dropped⟩
        · cases ignored
        · cases dropped
      · rw [submitted]
        rcases outcome with ignored | ⟨fault, dropped⟩
        · rw [ignored]
          exact List.append_nil x.submitted
        · rw [dropped]
          exact List.append_nil x.submitted
  | @held kind h outcome acquired unused contents accepted =>
      rcases Sink.queue_offer_cases x.queue (Event.lending kind h payload.length) with
        ⟨offered, opened⟩ | ⟨fault, refused⟩
      · rw [offered] at accepted
        refine .held outcome acquired unused contents opened (congrArg Prod.snd accepted).symm ?_
        rw [submitted, outcome, Outcome.events]
      · rw [refused] at accepted
        cases accepted

theorem consistent_act (hx : x.pool.Consistent) : (x.act setting a).pool.Consistent := by
  rw [pool_act]
  exact hx.run (x.operations setting a)

/-- What came back before a run is part of what came back after it. -/
theorem back_run (setting : Setting ε) (x : Exchange ε) (actions : List Action) :
    ∃ more, (x.run setting actions).back = x.back ++ more := by
  induction actions generalizing x with
  | nil => exact ⟨[], (List.append_nil x.back).symm⟩
  | cons a actions ih =>
      obtain ⟨more, later⟩ := ih (x.act setting a)
      exact ⟨x.returned setting a ++ more, by rw [run_cons, later, back_act, List.append_assoc]⟩

theorem withinGenerations_of_act (bounded : WithinGenerations (x.act setting a).back) :
    WithinGenerations x.back :=
  Pool.withinGenerations_of_append bounded

theorem withinGenerations_of_run {actions : List Action}
    (bounded : WithinGenerations (x.run setting actions).back) : WithinGenerations x.back := by
  obtain ⟨more, later⟩ := back_run setting x actions
  rw [later] at bounded
  exact Pool.withinGenerations_of_append bounded

/-- Generations keep counting through an action. -/
theorem aged_act (hx : x.pool.Aged x.back) (bounded : WithinGenerations (x.act setting a).back) :
    (x.act setting a).pool.Aged (x.act setting a).back := by
  rw [pool_act]
  exact hx.run (x.operations setting a) bounded

theorem aged_run {actions : List Action} (hx : x.pool.Aged x.back)
    (bounded : WithinGenerations (x.run setting actions).back) :
    (x.run setting actions).pool.Aged (x.run setting actions).back := by
  induction actions generalizing x with
  | nil => exact hx
  | cons a actions ih => exact ih (aged_act hx (withinGenerations_of_run bounded)) bounded

end Exchange

end UpdateBridge
