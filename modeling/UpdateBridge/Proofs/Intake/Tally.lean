import UpdateBridge.Proofs.Broker.Delivery
import UpdateBridge.Proofs.Exchange.Accounts
import UpdateBridge.Proofs.Exchange.Basic
import UpdateBridge.Proofs.Intake.Overload

/-!
# What the tally of the intake line counts

An `Inflow` is an intake line among those who send to it, receive from it and give
its buffers back. Messages are sent, the line makes its steps, events are taken,
buffers are released, either side of either mailbox goes, and the line is told to
stop, all in any order; where the line could both take a message and stop, either
may come first. The records of an inflow say what was accepted, handled and
missed, and nothing is decided by them.

Each message that the line takes is dispatched at once, so none is taken without
being counted (`Sound.work`). The three counts are those of the outcomes, and the
events that were put into the engine's queue are those of the loans that were
dispatched, in the order of the messages (`tally_counts_handled`).
-/

namespace UpdateBridge

/-! ## The tally of a list of outcomes -/

namespace Tally

/-- The tally of outcomes. -/
def of (outcomes : List Outcome) : Tally :=
  outcomes.foldl count zero

@[simp] theorem of_nil : of [] = zero := rfl

@[simp] theorem of_concat (outcomes : List Outcome) (outcome : Outcome) :
    of (outcomes ++ [outcome]) = (of outcomes).count outcome := by
  simp [of]

def total (t : Tally) : Nat :=
  t.dispatched.toNat + t.ignored.toNat + t.dropped.toNat

/-- One more message raises one count by one, unless that count wraps. -/
theorem total_count {t : Tally} (few : t.total + 1 < UInt32.size) (outcome : Outcome) :
    (t.count outcome).total = t.total + 1 ∧
      (t.count outcome).dispatched.toNat = t.dispatched.toNat + outcome.events.length := by
  have next : ∀ n : UInt32, n.toNat + 1 < UInt32.size → (n + 1).toNat = n.toNat + 1 := by
    intro n below
    rw [UInt32.toNat_add]
    exact Nat.mod_eq_of_lt below
  unfold total at few ⊢
  cases outcome with
  | dispatched kind h length =>
      have one := next t.dispatched (by omega)
      simp only [count, one, Outcome.events, List.length_singleton, and_true]
      omega
  | ignored =>
      have one := next t.ignored (by omega)
      simp only [count, one, Outcome.events, List.length_nil, Nat.add_zero, and_true]
      omega
  | dropped fault =>
      have one := next t.dropped (by omega)
      simp only [count, one, Outcome.events, List.length_nil, Nat.add_zero, and_true]
      omega

/-- Fewer than 2^32 outcomes are counted exactly. -/
theorem total_of {outcomes : List Outcome} (few : outcomes.length < UInt32.size) :
    (of outcomes).total = outcomes.length ∧
      (of outcomes).dispatched.toNat = (outcomes.flatMap Outcome.events).length := by
  induction outcomes using List.reverseRecOn with
  | nil => exact ⟨rfl, rfl⟩
  | append_singleton outcomes outcome ih =>
      rw [List.length_append, List.length_singleton] at few
      obtain ⟨total, dispatched⟩ := ih (by omega)
      obtain ⟨total', dispatched'⟩ := total_count (t := of outcomes) (by omega) outcome
      rw [of_concat, total', dispatched', total, dispatched]
      simp

end Tally

/-! ## What one message adds -/

namespace Message

/-- A message that is not dispatched makes no loan. -/
theorem loans_of_undispatched {m : Message} {outcome : Outcome}
    (undispatched : outcome = .ignored ∨ ∃ fault, outcome = .dropped fault) :
    m.loans outcome = [] := by
  obtain rfl | ⟨fault, rfl⟩ := undispatched
  · rfl
  · rfl

end Message

namespace Line

variable {l l' : Line} {notes : List Note}

/-- To take a message is to handle the oldest one, or to end where there is none and
none will come. -/
theorem takeMessage?_cases (taken : l.takeMessage? = some (l', notes)) :
    l.state = .running ∧
      ((∃ m items, l.inbound.items = m :: items ∧
          l' = ({ l with inbound := { l.inbound with items } }.handle m).1) ∨
        l.inbound.items = [] ∧ l' = (l.finish .inboundEnded).1) := by
  unfold takeMessage? at taken
  split at taken
  case isFalse => cases taken
  case isTrue running =>
    refine ⟨running, ?_⟩
    cases waiting : l.inbound.items with
    | cons m items =>
        rw [Mailbox.take_cons waiting] at taken
        exact .inl ⟨m, items, rfl, (congrArg Prod.fst (Option.some.inj taken)).symm⟩
    | nil =>
        rw [Mailbox.take, waiting] at taken
        cases ended : l.inbound.ended with
        | false => simp [ended] at taken
        | true =>
            simp only [ended, if_true] at taken
            exact .inr ⟨rfl, (congrArg Prod.fst (Option.some.inj taken)).symm⟩

theorem takeStop?_eq_some (taken : l.takeStop? = some (l', notes)) :
    l.state = .running ∧ l' = (l.finish .intakeStopRequested).1 := by
  unfold takeStop? at taken
  split at taken
  case isFalse => cases taken
  case isTrue both => exact ⟨both.1, (congrArg Prod.fst (Option.some.inj taken)).symm⟩

end Line

/-! ## An intake line among the others -/

inductive Inflow.Ending where
  /-- Nothing was waiting, and nobody was left who could send. -/
  | drained
  /-- It was told to stop. -/
  | stopped
  deriving DecidableEq

inductive Inflow.Happening where
  /-- Somebody sends it a message. -/
  | send (m : Message)
  /-- It begins to run. -/
  | begin
  /-- It takes a message or learns that none will come, if it can. -/
  | work
  /-- It stops because it was told so, if it was. -/
  | obey
  /-- The engine's side takes an event. -/
  | receive
  /-- Somebody gives a buffer back, rightly or not. -/
  | release (h : Handle)
  /-- Everybody goes who could send. -/
  | finish
  /-- The engine's side goes. -/
  | leave
  /-- It is told to stop, or whoever could tell it goes. -/
  | stop

/-- An intake line and what became of all that was sent to it. -/
structure Inflow where
  line : Line
  /-- The messages that its mailbox accepted, in order. -/
  accepted : List Message
  /-- The messages that it handled, in order, and what became of each. -/
  handled : List (Message × Outcome)
  /-- The messages that were waiting when it ended. -/
  missed : List Message
  /-- The events that the engine's side took, in order. -/
  taken : List Event
  /-- The events that were waiting when the engine's side went. -/
  lost : List Event
  ending : Option Inflow.Ending

namespace Inflow

/-- A line that does not run yet, with empty mailboxes of these capacities, on a
pool that was used before. -/
def start (capacity size : Nat) (before : List Pool.Operation) (depth places : Nat) : Inflow :=
  ⟨.idle ((Pool.create capacity size).run before).2 (.empty depth) (.empty places),
    [], [], [], [], [], none⟩

def messages (x : Inflow) : List Message :=
  x.handled.map Prod.fst

def outcomes (x : Inflow) : List Outcome :=
  x.handled.map Prod.snd

/-- The messages that the line dispatched, each in its buffer. -/
def loans (x : Inflow) : List Loan :=
  x.handled.flatMap fun h => h.1.loans h.2

/-- All events that were ever put into the engine's queue. -/
def put (x : Inflow) : List Event :=
  x.taken ++ x.lost ++ x.line.events.items

/-- What becomes of a message that the line handles now. -/
def outcomeOf (x : Inflow) (m : Message) : Outcome :=
  (Intake.dispatch Sink.queue Route.updates m.topic m.payload x.line.pool x.line.events).outcome

/-- The inflow with one more handled message. -/
def record (x : Inflow) (line : Line) (m : Message) (outcome : Outcome) : Inflow :=
  { x with line, handled := x.handled ++ [(m, outcome)] }

/-- The inflow with its line ended. -/
def conclude (x : Inflow) (line : Line) (ending : Ending) : Inflow :=
  { x with line, missed := x.missed ++ x.line.inbound.items, ending := some ending }

/-- The line takes a message, or learns that none will come. -/
def work (x : Inflow) : Inflow :=
  match x.line.takeMessage?, x.line.inbound.items with
  | none, _ => x
  | some (line, _), m :: _ => x.record line m (x.outcomeOf m)
  | some (line, _), [] => x.conclude line .drained

/-- The line stops if it was told to. -/
def obey (x : Inflow) : Inflow :=
  match x.line.takeStop? with
  | none => x
  | some (line, _) => x.conclude line .stopped

def send (x : Inflow) (m : Message) : Inflow :=
  match x.line.inbound.post m with
  | (.ok (), inbound) => { x with line := { x.line with inbound }, accepted := x.accepted ++ [m] }
  | (.error _, _) => x

def receive (x : Inflow) : Inflow :=
  match x.line.events.take with
  | (.item event, events) => { x with line := { x.line with events }, taken := x.taken ++ [event] }
  | (_, _) => x

def meet (x : Inflow) : Happening → Inflow
  | .send m => x.send m
  | .begin =>
    if x.line.state = .idle then { x with line := { x.line with state := .running } } else x
  | .work => x.work
  | .obey => x.obey
  | .receive => x.receive
  | .release h => { x with line := { x.line with pool := (x.line.pool.release h).2 } }
  | .finish => { x with line := { x.line with inbound := x.line.inbound.finish } }
  | .leave =>
    { x with
      line := { x.line with events := x.line.events.close }
      lost := x.lost ++ x.line.events.items }
  | .stop => { x with line := { x.line with stopping := true } }

def meetAll (x : Inflow) (happenings : List Happening) : Inflow :=
  happenings.foldl meet x

@[simp] theorem messages_record (x : Inflow) (line : Line) (m : Message) (outcome : Outcome) :
    (x.record line m outcome).messages = x.messages ++ [m] := by
  simp [record, messages]

@[simp] theorem outcomes_record (x : Inflow) (line : Line) (m : Message) (outcome : Outcome) :
    (x.record line m outcome).outcomes = x.outcomes ++ [outcome] := by
  simp [record, outcomes]

@[simp] theorem loans_record (x : Inflow) (line : Line) (m : Message) (outcome : Outcome) :
    (x.record line m outcome).loans = x.loans ++ m.loans outcome := by
  simp [record, loans]

/-- The records of an inflow that began with the pool `initial` are right. -/
structure Sound (initial : Pool) (x : Inflow) : Prop where
  consistent : x.line.pool.Consistent
  inbound : x.line.inbound.Accounts x.accepted x.messages x.missed
  events : x.line.events.Accounts (x.loans.map Loan.event) x.taken x.lost
  tally : x.line.tally = .of x.outcomes
  dispatched : x.outcomes.flatMap Outcome.events = x.loans.map Loan.event
  /-- Every handle that was not live at the start is one of the line's. -/
  live : ∀ h, x.line.pool.contents h ≠ none →
    initial.contents h ≠ none ∨ h ∈ x.loans.map Loan.handle
  /-- The line has ended just if its mailbox is closed. -/
  closed : x.line.inbound.closed = true ↔ x.ending ≠ none
  unended : x.line.state ≠ .ended → x.ending = none
  none_missed : x.ending ≠ some .stopped → x.missed = []

variable {initial : Pool} {x : Inflow} {m : Message}

theorem sound_start (capacity size : Nat) (before : List Pool.Operation) (depth places : Nat) :
    Sound ((Pool.create capacity size).run before).2 (start capacity size before depth places) where
  consistent := (Pool.consistent_create capacity size).run before
  inbound := .empty places
  events := .empty depth
  tally := rfl
  dispatched := rfl
  live _ := .inl
  closed := by simp [start, Line.idle, Mailbox.empty]
  unended _ := rfl
  none_missed _ := rfl

namespace Sound

theorem send (hx : x.Sound initial) (m : Message) : (x.send m).Sound initial := by
  unfold Inflow.send
  obtain ⟨room, posted⟩ | ⟨-, fault, refused⟩ := x.line.inbound.post_cases m
  · rw [posted]
    have opened : x.line.inbound.closed = false := by
      by_contra closed
      rw [Mailbox.room_of_closed (Bool.not_eq_false _ ▸ closed)] at room
      exact Nat.lt_irrefl 0 room
    exact { hx with inbound := hx.inbound.post opened m }
  · rw [refused]
    exact hx

theorem receive (hx : x.Sound initial) : x.receive.Sound initial := by
  unfold Inflow.receive
  cases waiting : x.line.events.items with
  | nil =>
      rw [Mailbox.take, waiting]
      cases x.line.events.ended <;> exact hx
  | cons event items =>
      rw [Mailbox.take_cons waiting]
      exact { hx with events := hx.events.take waiting }

theorem release (hx : x.Sound initial) (h : Handle) :
    Sound initial { x with line := { x.line with pool := (x.line.pool.release h).2 } } where
  __ := hx
  consistent := hx.consistent.run [.release h]
  live g live := by
    simp only [hx.consistent.contents_release, Function.update_apply] at live
    split at live
    · exact absurd rfl live
    · exact hx.live g live

/-- The line takes the oldest message, dispatches it and counts it. -/
theorem handle {items : List Message} (hx : x.Sound initial)
    (waiting : x.line.inbound.items = m :: items) :
    Sound initial (x.record ({ x.line with inbound := { x.line.inbound with items } }.handle m).1 m
      (x.outcomeOf m)) := by
  have consistent := Intake.consistent_dispatch hx.consistent Sink.queue Route.updates m.topic
    m.payload x.line.events
  have inbound := hx.inbound.take waiting
  have counted : x.line.tally.count (x.outcomeOf m) = .of (x.outcomes ++ [x.outcomeOf m]) := by
    rw [Tally.of_concat, hx.tally]
  cases Intake.dispatch_adds hx.consistent x.line.events m with
  | @loan h outcome routed opened sink unused contents =>
      have lent : x.outcomeOf m = .dispatched m.kind h m.payload.length := outcome
      have events := hx.events.post opened (Loan.event ⟨h, m⟩)
      rw [← sink] at events
      refine ⟨consistent, ?_, ?_, ?_, ?_, ?_, hx.closed, hx.unended, hx.none_missed⟩
      · rwa [messages_record]
      · rw [loans_record, lent, List.map_append]
        exact events
      · rw [outcomes_record]
        exact counted
      · rw [outcomes_record, loans_record, lent, List.flatMap_append, List.map_append,
          hx.dispatched]
        rfl
      · intro g live
        rw [loans_record, lent, List.map_append, List.mem_append]
        have live' : (Function.update x.line.pool.contents h (some m.payload)) g ≠ none :=
          contents ▸ live
        by_cases same : g = h
        · exact .inr (.inr (List.mem_singleton.mpr same))
        · rw [Function.update_of_ne same] at live'
          exact (hx.live g live').imp_right .inl
  | nothing outcome sink contents =>
      have none : m.loans (x.outcomeOf m) = [] := Message.loans_of_undispatched outcome
      have silent : (x.outcomeOf m).events = [] := Outcome.events_of_undispatched outcome
      have events := hx.events
      rw [← sink] at events
      refine ⟨consistent, ?_, ?_, ?_, ?_, ?_, hx.closed, hx.unended, hx.none_missed⟩
      · rwa [messages_record]
      · rw [loans_record, none, List.append_nil]
        exact events
      · rw [outcomes_record]
        exact counted
      · rw [outcomes_record, loans_record, none, List.flatMap_append, List.append_nil,
          hx.dispatched]
        simp [silent]
      · intro g live
        rw [loans_record, none, List.append_nil]
        exact hx.live g (contents ▸ live)

/-- The line ends, and what it has not taken by then it never will. -/
theorem conclude (hx : x.Sound initial) (running : x.line.state = .running) (reason : Note)
    {ending : Ending} (drained : ending = .drained → x.line.inbound.items = []) :
    Sound initial (x.conclude (x.line.finish reason).1 ending) where
  consistent := hx.consistent
  inbound := hx.inbound.close
  events := hx.events
  tally := hx.tally
  dispatched := hx.dispatched
  live := hx.live
  closed := iff_of_true rfl (Option.some_ne_none ending)
  unended unended := absurd rfl unended
  none_missed unstopped := by
    have before : x.missed = [] := hx.none_missed (by simp [hx.unended (running ▸ nofun)])
    cases ending with
    | stopped => exact absurd rfl unstopped
    | drained => exact List.append_eq_nil_iff.mpr ⟨before, drained rfl⟩

theorem work (hx : x.Sound initial) : x.work.Sound initial := by
  unfold Inflow.work
  rcases taken : x.line.takeMessage? with _ | ⟨line, notes⟩
  · exact hx
  · obtain ⟨running, ⟨m, items, waiting, rfl⟩ | ⟨none, rfl⟩⟩ := Line.takeMessage?_cases taken
    · simp only [waiting]
      exact hx.handle waiting
    · simp only [none]
      exact hx.conclude running .inboundEnded fun _ => none

theorem obey (hx : x.Sound initial) : x.obey.Sound initial := by
  unfold Inflow.obey
  rcases taken : x.line.takeStop? with _ | ⟨line, notes⟩
  · exact hx
  · obtain ⟨running, rfl⟩ := Line.takeStop?_eq_some taken
    exact hx.conclude running .intakeStopRequested nofun

/-- Whatever happens, the records stay right. -/
theorem meet (hx : x.Sound initial) (happening : Happening) : (x.meet happening).Sound initial := by
  cases happening with
  | send m => exact hx.send m
  | begin =>
      unfold Inflow.meet
      dsimp only
      split
      next idle => exact { hx with unended := fun _ => hx.unended (idle ▸ nofun) }
      next => exact hx
  | work => exact hx.work
  | obey => exact hx.obey
  | receive => exact hx.receive
  | release h => exact hx.release h
  | finish => exact { hx with inbound := hx.inbound.finish }
  | leave => exact { hx with events := hx.events.close }
  | stop => exact { hx with }

theorem meetAll (hx : x.Sound initial) (happenings : List Happening) :
    (x.meetAll happenings).Sound initial := by
  induction happenings generalizing x with
  | nil => exact hx
  | cons happening happenings ih => exact ih (hx.meet happening)

/-- What was put into the engine's queue is what the line dispatched. -/
theorem put_eq (hx : x.Sound initial) : x.put = x.loans.map Loan.event :=
  hx.events.account

/-- Of fewer than 2^32 messages each that was handled is counted, and each event in
the queue as a dispatched one. -/
theorem counted (hx : x.Sound initial) (few : x.accepted.length < UInt32.size) :
    x.line.tally.total = x.handled.length ∧ x.line.tally.dispatched.toNat = x.put.length := by
  have most := hx.inbound.taken_prefix.length_le
  rw [messages, List.length_map] at most
  have length : x.outcomes.length = x.handled.length := List.length_map _
  have few : x.outcomes.length < UInt32.size := by omega
  have exact := Tally.total_of few
  rwa [← hx.tally, hx.dispatched, ← hx.put_eq, length] at exact

end Sound

/-- The dispatched messages are some of those handled, in their order. -/
theorem loans_sublist_messages (x : Inflow) : (x.loans.map Loan.message).Sublist x.messages := by
  obtain ⟨-, -, handled, -, -, -, -⟩ := x
  unfold loans messages
  dsimp only
  induction handled with
  | nil => exact .slnil
  | cons first handled ih =>
      obtain ⟨m, outcome⟩ := first
      rw [List.flatMap_cons, List.map_append, List.map_cons]
      cases outcome with
      | dispatched kind h length => exact ih.cons_cons m
      | ignored => exact ih.cons m
      | dropped fault => exact ih.cons m

/-- Whatever happens to an intake line, as long as fewer than 2^32 messages are
accepted: it handles the accepted messages from the first one on, and counts each
that it has handled; it counts as dispatched one for each event that was put into
the engine's queue, and these are the events of so many of the handled messages, in
their order. If it ends because nothing will come any more, it has handled
everything; if it stops before, what it missed has neither a place in the queue nor
a buffer, for every live handle was live at the start or belongs to a message that
was handled. -/
theorem tally_counts_handled (capacity size depth places : Nat) (before : List Pool.Operation)
    (happenings : List Happening)
    (few : ((start capacity size before depth places).meetAll happenings).accepted.length <
      UInt32.size) :
    let begun := start capacity size before depth places
    let x := begun.meetAll happenings
    x.messages <+: x.accepted ∧
      x.line.tally.total = x.handled.length ∧
      x.line.tally.dispatched.toNat = x.put.length ∧
      (x.put = x.loans.map Loan.event ∧ (x.loans.map Loan.message).Sublist x.messages) ∧
      (x.ending = some .drained → x.messages = x.accepted) ∧
      (x.ending = some .stopped → x.accepted = x.messages ++ x.missed ∧
        ∀ h, x.line.pool.contents h ≠ none →
          begun.line.pool.contents h ≠ none ∨ h ∈ x.loans.map Loan.handle) := by
  intro begun x
  have hx : x.Sound begun.line.pool :=
    (sound_start capacity size before depth places).meetAll happenings
  obtain ⟨total, dispatched⟩ := hx.counted few
  have ended : ∀ ending, x.ending = some ending → x.accepted = x.messages ++ x.missed := by
    intro ending ended
    exact hx.inbound.posted_of_closed (hx.closed.mpr (ended ▸ Option.some_ne_none ending))
  refine ⟨hx.inbound.taken_prefix, total, dispatched,
    ⟨hx.put_eq, x.loans_sublist_messages⟩, fun drained => ?_, fun stopped => ?_⟩
  · have missed : x.missed = [] := hx.none_missed (by simp [drained])
    have accepted := ended .drained drained
    rw [missed, List.append_nil] at accepted
    exact accepted.symm
  · exact ⟨ended .stopped stopped, hx.live⟩

/-- A line that is told to stop while a message waits: of four messages two are
dispatched, one is ignored and one is missed. -/
theorem tally_counts_handled_cut :
    let block : List UInt8 → Message :=
      fun payload => ⟨"$aws/things/core2/streams/fw/data", payload⟩
    let happenings : List Happening :=
      [.send (block [1]), .send ⟨"core2/", [2]⟩, .begin, .work, .work, .receive,
        .release ⟨1, 0⟩, .send (block [3]), .work, .send (block [4]), .stop, .obey, .work]
    let x := (start 2 16 [] 2 4).meetAll happenings
    x.accepted.length < UInt32.size ∧
      (x.line.tally.total = 3 ∧ x.line.tally.dispatched.toNat = 2 ∧ x.put.length = 2) ∧
      x.ending = some .stopped ∧ x.accepted = x.messages ++ [block [4]] := by
  intro block happenings x
  have few : x.accepted.length < UInt32.size := by decide +kernel
  have stopped : x.ending = some .stopped := by decide +kernel
  have handled : x.handled.length = 3 := by decide +kernel
  have put : x.put.length = 2 := by decide +kernel
  have waiting : x.missed = [block [4]] := by decide +kernel
  obtain ⟨-, total, dispatched, -, -, missed⟩ := tally_counts_handled 2 16 2 4 [] happenings few
  have parts : x.accepted = x.messages ++ x.missed := (missed stopped).1
  rw [waiting] at parts
  exact ⟨few, ⟨by rw [total, handled], by rw [dispatched, put], put⟩, stopped, parts⟩

end Inflow

end UpdateBridge
