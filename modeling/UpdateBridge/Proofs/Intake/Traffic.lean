import UpdateBridge.Message
import UpdateBridge.Proofs.Exchange.Basic
import UpdateBridge.Proofs.Intake.Decision

/-!
# Messages that the dispatcher turns away

Messages arrive while events are taken out behind the sink and buffers are used
and given back. Some of the messages the dispatcher turns away by itself: they
are not for the engine, they cannot be compared with a route, or there is no
buffer for them. The sink is not asked about these (`Report.turnedAway`), and
nothing at all happens when they come (`meet_of_turnedAway`).

So any number of them can be taken out of a course of traffic without a change
for the rest, `turned_away_disturb_nothing`. This holds of every pool, whether it
can come about or not, and of every sink. A message that the sink refuses is
another matter, also where the sink gives one of the dispatcher's own reasons: it
had a buffer, which came back one generation on.
-/

namespace UpdateBridge

/-- Whether the dispatcher itself lets a message come to this, before the sink is
asked. -/
def Outcome.isHindrance : Outcome → Bool
  | .ignored => true
  | .dropped (.invalidArgument _) => true
  | .dropped (.tooLarge _ _) => true
  | .dropped (.exhausted _) => true
  | _ => false

/-- A buffer is handed out from the top of the stack, or none is and the pool
stays as it is. -/
theorem Pool.acquire_or_exhausted (p : Pool) :
    p.acquire = (.error (.exhausted p.capacity), p) ∨
      ∃ slot free b, p.free = slot :: free ∧ p.buffers[slot]? = some b := by
  cases top : p.free with
  | nil => exact .inl (acquire_of_free_eq_nil top)
  | cons slot free =>
      cases found : p.buffers[slot]? with
      | none => exact .inl (by simp only [acquire, top, found])
      | some b => exact .inr ⟨slot, free, b, rfl, found⟩

namespace Intake

variable {σ : Type}

/-- A payload is kept back and leaves everything as it was, or one event is
offered for it. -/
theorem handOver_hinders_or_offers (sink : Sink σ) (kind : EventKind) (payload : List UInt8)
    (pool : Pool) (s : σ) :
    let d := handOver sink kind payload pool s
    let offered := (handOver sink.watched kind payload pool (s, [])).sink.2
    (d.outcome.isHindrance = true ∧ offered = [] ∧ d.pool = pool ∧ d.sink = s) ∨
      ∃ event, offered = [event] := by
  intro d offered
  obtain large | fits := Nat.lt_or_ge pool.size payload.length
  · left
    simp [d, offered, handOver_of_large large, Outcome.isHindrance]
  · obtain exhausted | ⟨slot, free, b, top, found⟩ := pool.acquire_or_exhausted
    · left
      simp [d, offered, handOver_of_exhausted fits exhausted, Outcome.isHindrance]
    · right
      have acquired := Pool.acquire_of_free top found
      have written := Pool.write_handingOut found free fits
      let event := Event.lending kind ⟨slot, b.generation⟩ payload.length
      refine ⟨event, ?_⟩
      cases answer : (sink.offer s event).1 with
      | ok =>
          have accepted : sink.watched.offer (s, []) event = (.ok (), _) :=
            Prod.ext answer rfl
          simp only [offered, handOver_of_accepted fits acquired written accepted]
          rfl
      | error fault =>
          have refused : sink.watched.offer (s, []) event = (.error fault, _) :=
            Prod.ext answer rfl
          simp only [offered, handOver_of_refused fits acquired written refused]
          rfl

/-- The same of a message. -/
theorem dispatch_hinders_or_offers (sink : Sink σ) (routes : List Route) (m : Message)
    (pool : Pool) (s : σ) :
    let d := dispatch sink routes m.topic m.payload pool s
    let offered := (dispatch sink.watched routes m.topic m.payload pool (s, [])).sink.2
    (d.outcome.isHindrance = true ∧ offered = [] ∧ d.pool = pool ∧ d.sink = s) ∨
      ∃ event, offered = [event] := by
  intro d offered
  cases found : Route.kindOf m.topic routes with
  | error fault =>
      left
      obtain ⟨reason, rfl⟩ := Route.exists_reason_of_error found
      simp [d, offered, dispatch, found, Outcome.isHindrance]
  | ok kind =>
      by_cases routed : kind = .ignored
      · left
        simp [d, offered, dispatch, found, routed, Outcome.isHindrance]
      · simp only [d, offered, dispatch_of_routed found routed]
        exact handOver_hinders_or_offers sink kind m.payload pool s

end Intake

/-! ## Traffic -/

/-- The pool, and the sink that the events go to. -/
structure Traffic (σ : Type) where
  pool : Pool
  sink : σ

namespace Traffic

inductive Happening where
  | message (m : Message)
  /-- An event is taken out behind the sink. -/
  | receive
  /-- Somebody uses the pool, to give a buffer back or otherwise. -/
  | use (operation : Pool.Operation)
  deriving DecidableEq, Repr

/-- What can be seen of it. -/
inductive Report where
  /-- What became of a message, and the events that the sink was offered for it. -/
  | handled (outcome : Outcome) (offered : List Event)
  | received (taken : Taken Event)
  | used (answer : Pool.Answer)

/-- The routes, the sink, and how events are taken out behind it. -/
structure Setting (σ : Type) where
  routes : List Route
  sink : Sink σ
  receive : σ → Taken Event × σ

namespace Report

/-- Whether the dispatcher turned a message away by itself. -/
def turnedAway : Report → Bool
  | .handled outcome offered => outcome.isHindrance && offered.isEmpty
  | _ => false

def submitted : Report → List Event
  | .handled outcome _ => outcome.events
  | _ => []

theorem submitted_of_turnedAway {report : Report} (away : report.turnedAway = true) :
    report.submitted = [] := by
  cases report with
  | handled outcome offered =>
      cases outcome with
      | dispatched => cases away
      | _ => rfl
  | _ => rfl

end Report

variable {σ : Type} {setting : Setting σ} {x : Traffic σ} {gone : Nat → Bool}

/-- The events that the sink is offered when a message arrives. -/
def offered (setting : Setting σ) (x : Traffic σ) (m : Message) : List Event :=
  (Intake.dispatch setting.sink.watched setting.routes m.topic m.payload x.pool (x.sink, [])).sink.2

def meet (setting : Setting σ) (x : Traffic σ) : Happening → Report × Traffic σ
  | .message m =>
    let d := Intake.dispatch setting.sink setting.routes m.topic m.payload x.pool x.sink
    (.handled d.outcome (x.offered setting m), ⟨d.pool, d.sink⟩)
  | .receive =>
    let (taken, sink) := setting.receive x.sink
    (.received taken, { x with sink })
  | .use operation =>
    let (answer, pool) := x.pool.apply operation
    (.used answer, { x with pool })

def run (setting : Setting σ) (x : Traffic σ) : List Happening → List Report × Traffic σ
  | [] => ([], x)
  | happening :: happenings =>
    let (report, x) := x.meet setting happening
    let (reports, x) := x.run setting happenings
    (report :: reports, x)

@[simp] theorem run_nil (setting : Setting σ) (x : Traffic σ) : x.run setting [] = ([], x) := rfl

@[simp] theorem run_cons (setting : Setting σ) (x : Traffic σ) (happening : Happening)
    (happenings : List Happening) :
    x.run setting (happening :: happenings) =
      ((x.meet setting happening).1 :: ((x.meet setting happening).2.run setting happenings).1,
        ((x.meet setting happening).2.run setting happenings).2) := rfl

/-- A message that is turned away leaves the pool and the sink as they are. -/
theorem meet_of_turnedAway {happening : Happening}
    (away : (x.meet setting happening).1.turnedAway = true) :
    (x.meet setting happening).2 = x := by
  cases happening with
  | message m =>
      have unoffered : x.offered setting m = [] := by
        simpa using (Bool.and_eq_true_iff.mp away).2
      obtain ⟨-, -, pool, sink⟩ | ⟨event, offered⟩ :=
        Intake.dispatch_hinders_or_offers setting.sink setting.routes m x.pool x.sink
      · simp only [meet, pool, sink]
      · have some : x.offered setting m = [event] := offered
        simp [unoffered] at some
  | receive => cases away
  | use operation => cases away

/-! ## Taking messages out -/

/-- The items that are not gone, where items go by their position and the first
has this one. -/
def without {α : Type} (gone : Nat → Bool) (first : Nat) (items : List α) : List α :=
  ((items.zipIdx first).filter fun item => !gone item.2).map Prod.fst

theorem without_cons_of_gone {α : Type} {first : Nat} (absent : gone first = true) (a : α)
    (items : List α) : without gone first (a :: items) = without gone (first + 1) items := by
  simp [without, absent]

theorem without_cons_of_kept {α : Type} {first : Nat} (kept : gone first = false) (a : α)
    (items : List α) : without gone first (a :: items) = a :: without gone (first + 1) items := by
  simp [without, kept]

/-- Without some messages that were turned away the others come to the same. -/
theorem run_without {happenings : List Happening} {first : Nat}
    (away : ∀ entry ∈ (x.run setting happenings).1.zipIdx first,
      gone entry.2 = true → entry.1.turnedAway = true) :
    x.run setting (without gone first happenings) =
      (without gone first (x.run setting happenings).1, (x.run setting happenings).2) := by
  induction happenings generalizing x first with
  | nil => rfl
  | cons happening happenings ih =>
      simp only [run_cons, List.zipIdx_cons, List.forall_mem_cons] at away
      obtain ⟨here, later⟩ := away
      have others := ih later
      cases absent : gone first with
      | true =>
          have same : (x.meet setting happening).2 = x := meet_of_turnedAway (here absent)
          simp only [run_cons, without_cons_of_gone absent]
          rw [same] at others ⊢
          exact others
      | false => simp only [run_cons, without_cons_of_kept absent, others]

/-- No event was submitted for a message that was turned away. -/
theorem submitted_without {reports : List Report} {first : Nat}
    (away : ∀ entry ∈ reports.zipIdx first, gone entry.2 = true → entry.1.turnedAway = true) :
    (without gone first reports).flatMap Report.submitted = reports.flatMap Report.submitted := by
  induction reports generalizing first with
  | nil => rfl
  | cons report reports ih =>
      simp only [List.zipIdx_cons, List.forall_mem_cons] at away
      obtain ⟨here, later⟩ := away
      cases absent : gone first with
      | true => simp [without_cons_of_gone absent, ih later,
          Report.submitted_of_turnedAway (here absent)]
      | false => simp [without_cons_of_kept absent, ih later]

/-- Any of the messages that the dispatcher turned away can be taken out of what
happens. Every other message comes to the same, in the same buffer under the same
handle, and so does all else that happens; the same events are submitted, and the
pool and the sink are the same in the end. -/
theorem turned_away_disturb_nothing (setting : Setting σ) (x : Traffic σ)
    (happenings : List Happening) (gone : Nat → Bool)
    (away : ∀ entry ∈ (x.run setting happenings).1.zipIdx,
      gone entry.2 = true → entry.1.turnedAway = true) :
    let full := x.run setting happenings
    let rest := x.run setting (without gone 0 happenings)
    rest.1 = without gone 0 full.1 ∧
      rest.1.flatMap Report.submitted = full.1.flatMap Report.submitted ∧
      rest.2.pool = full.2.pool ∧ rest.2.sink = full.2.sink := by
  intro full rest
  have same : rest = (without gone 0 full.1, full.2) := run_without away
  rw [same]
  exact ⟨rfl, submitted_without away, rfl, rfl⟩

/-- Between two blocks that go through the only buffer, one message after another
is turned away, each for another reason. -/
theorem turned_away_between_two_blocks :
    let block : List UInt8 → Happening :=
      fun payload => .message ⟨"$aws/things/core2/streams/fw/data", payload⟩
    let setting : Setting (Mailbox Event) := ⟨Route.updates, Sink.queue, Mailbox.take⟩
    let x : Traffic (Mailbox Event) := ⟨Pool.create 1 4, Mailbox.empty 2⟩
    let happenings := [block [1], .message ⟨"core2/", [2]⟩, block [1, 2, 3, 4, 5],
      .message ⟨"", []⟩, block [3], .receive, .use (.release ⟨0, 0⟩), block [4]]
    let gone : Nat → Bool := fun i => 1 ≤ i && i ≤ 4
    let rest := x.run setting [block [1], .receive, .use (.release ⟨0, 0⟩), block [4]]
    (∀ entry ∈ (x.run setting happenings).1.zipIdx,
        gone entry.2 = true → entry.1.turnedAway = true) ∧
      rest.1.flatMap Report.submitted =
        [.lending .fileBlock ⟨0, 0⟩ 1, .lending .fileBlock ⟨0, 1⟩ 1] ∧
      rest.2.pool = (x.run setting happenings).2.pool := by
  intro block setting x happenings gone rest
  have away : ∀ entry ∈ (x.run setting happenings).1.zipIdx,
      gone entry.2 = true → entry.1.turnedAway = true := by
    decide +kernel
  obtain ⟨-, submitted, pool, -⟩ := turned_away_disturb_nothing setting x happenings gone away
  exact ⟨away, submitted.trans (by decide +kernel), pool⟩

/-- A sink that gives one of the dispatcher's reasons has been asked, and the
refused message has used a generation. -/
example :
    let refusing : Recording := ⟨[], some (.exhausted 1)⟩
    let setting : Setting Recording := ⟨Route.updates, Sink.recording, fun s => (.empty, s)⟩
    let m : Message := ⟨"$aws/things/core2/streams/fw/data", [1]⟩
    let met := (⟨Pool.create 1 4, refusing⟩ : Traffic Recording).meet setting (.message m)
    met.1.turnedAway = false ∧ met.2.pool.buffers.map Buffer.generation = [1] := by
  decide +kernel

end Traffic

end UpdateBridge
