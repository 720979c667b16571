import UpdateBridge.Engine.Scripted
import UpdateBridge.Proofs.Pool.Lifetime

/-!
# What a scripted engine records of any events

The events that a scripted engine gets need not come from messages: they may lend
a buffer or not, say any length, and name handles that are stale or named twice.
What the engine makes of an event depends on the pool at the moment at which it
takes it, so an event is looked at together with that pool (`Glance`), and all
that the engine has kept is a function of what it has seen (`Records`).

It takes events until it has taken a stop, or the block of its script's number
(`Script.Stops`), and then no more: `serveAll_records`.
-/

namespace UpdateBridge

namespace Event

def isBlock (event : Event) : Bool :=
  event.kind == .fileBlock && event.lends

/-- The events are few enough to be counted, and none says that it is longer than
memory goes. -/
structure Manageable (events : List Event) : Prop where
  few : events.length < 2 ^ 32
  short : ∀ event ∈ events, event.length ≤ Scripted.addressLimit

theorem Manageable.of_prefix {part events : List Event} (manageable : Manageable events)
    (before : part <+: events) : Manageable part where
  few := Nat.lt_of_le_of_lt before.length_le manageable.few
  short event member := manageable.short event (before.subset member)

end Event

/-- An event, and the pool at the moment at which it is taken. -/
structure Glance where
  event : Event
  pool : Pool

namespace Glance

/-- What can be read of the event: the payload that its handle reaches, if it
reaches one and that is not longer than the event says. -/
def payload? (s : Glance) : Option (List UInt8) :=
  s.event.buffer.bind fun h =>
    (s.pool.contents h).filter fun payload => payload.length ≤ s.event.length

/-- Whether the event lends a buffer that can be read. -/
def read (s : Glance) : Bool :=
  s.payload?.isSome

/-- Whether the event lends a buffer that cannot be read. -/
def missed (s : Glance) : Bool :=
  s.event.lends && !s.read

/-- The pool after the event's buffer was given back. -/
def left (s : Glance) : Pool :=
  match s.event.buffer with
  | none => s.pool
  | some h => (s.pool.release h).2

def events (seen : List Glance) : List Event :=
  seen.map Glance.event

theorem events_append (first second : List Glance) :
    events (first ++ second) = events first ++ events second :=
  List.map_append

/-- What is done to the pool after each glance. -/
def releases (seen : List Glance) : List Pool.Operation :=
  (events seen).filterMap fun event => event.buffer.map .release

theorem read_of_unlent {s : Glance} (unlent : s.event.lends = false) : s.read = false := by
  have none : s.event.buffer = none := by simpa [Event.lends] using unlent
  simp [read, payload?, none]

/-- An event that lends a buffer can be read or cannot. -/
theorem countP_lends (seen : List Glance) :
    (events seen).countP Event.lends = seen.countP read + seen.countP missed := by
  rw [events, List.countP_map]
  induction seen with
  | nil => rfl
  | cons s seen ih =>
      rw [List.countP_cons, List.countP_cons, List.countP_cons, ih, Function.comp_apply, missed]
      cases lends : s.event.lends with
      | false => simp [read_of_unlent lends]
      | true => cases s.read <;> simp <;> omega

theorem run_releases_cons (s : Glance) (more : List Glance) :
    (s.pool.run (releases (s :: more))).2 = (s.left.run (releases more)).2 := by
  cases lent : s.event.buffer with
  | none => simp [releases, events, left, lent]
  | some h => simp [releases, events, left, lent, Pool.apply]

end Glance

namespace Script

/-- The last of these events makes the engine stop: it is a stop, or it is the
block of the script's number. -/
def Stops (script : Script) (events : List Event) : Prop :=
  ∃ earlier last, events = earlier ++ [last] ∧
    (last.kind = .stop ∨ last.isBlock = true ∧
      ∃ number, script = .activate number ∧ events.countP Event.isBlock = number.toNat)

/-- The block of the script's number is among the events. -/
def Completed (events : List Event) : Script → Prop
  | .activate number => 0 < number.toNat ∧ number.toNat ≤ events.countP Event.isBlock
  | .nothing | .crash => False

instance (events : List Event) : (script : Script) → Decidable (script.Completed events)
  | .activate number =>
    inferInstanceAs (Decidable (0 < number.toNat ∧ number.toNat ≤ events.countP Event.isBlock))
  | .nothing => .isFalse id
  | .crash => .isFalse id

/-- Nothing makes the engine stop before the last of the events. -/
def Runs (script : Script) (events : List Event) : Prop :=
  ∀ part, part <+: events → part ≠ events → ¬script.Stops part

variable {script : Script} {events : List Event} {event : Event}

theorem not_stops_nil (script : Script) : ¬script.Stops [] := by
  rintro ⟨earlier, last, parts, -⟩
  simp at parts

theorem stops_concat_iff :
    script.Stops (events ++ [event]) ↔ event.kind = .stop ∨ event.isBlock = true ∧
      ∃ number, script = .activate number ∧
        (events ++ [event]).countP Event.isBlock = number.toNat := by
  constructor
  · rintro ⟨earlier, last, parts, stops⟩
    obtain ⟨rfl, same⟩ := List.append_inj' parts rfl
    cases same
    exact stops
  · intro stops
    exact ⟨events, event, rfl, stops⟩

/-- A script is completed by one more event if that is the block of its number. -/
theorem completed_concat_iff (incomplete : ¬script.Completed events) :
    script.Completed (events ++ [event]) ↔ event.isBlock = true ∧
      ∃ number, script = .activate number ∧
        (events ++ [event]).countP Event.isBlock = number.toNat := by
  cases script with
  | activate number =>
      simp only [Completed, Script.activate.injEq, exists_eq_left', List.countP_append,
        List.countP_singleton] at incomplete ⊢
      constructor
      · intro completed
        by_cases block : event.isBlock = true
        · simp only [block, if_true] at completed ⊢
          exact ⟨trivial, by omega⟩
        · simp only [block] at completed
          exact absurd completed incomplete
      · rintro ⟨block, count⟩
        simp only [block, if_true] at count ⊢
        omega
  | nothing => simp [Completed]
  | crash => simp [Completed]

/-- Where an engine goes on, it has come to no stop, so one more event is the first
that can make it stop. -/
theorem Runs.concat (runs : script.Runs events) (going : ¬script.Stops events) (event : Event) :
    script.Runs (events ++ [event]) := by
  intro part before shorter
  obtain same | earlier := List.prefix_concat_iff.mp before
  · exact absurd same shorter
  · by_cases whole : part = events
    · rw [whole]
      exact going
    · exact runs part earlier whole

/-- As long as the blocks are few enough to be counted, their number is compared
as it is. -/
theorem completesWith_iff {count : Nat} (few : count < 2 ^ 32) :
    script.completesWith (UInt32.ofNat count) = true ↔
      ∃ number, script = .activate number ∧ count = number.toNat := by
  have counted : (UInt32.ofNat count).toNat = count := UInt32.toNat_ofNat_of_lt' few
  cases script with
  | activate number =>
      simp only [completesWith, beq_iff_eq, Script.activate.injEq, exists_eq_left']
      rw [← UInt32.toNat_inj, counted]
      exact eq_comm
  | nothing => simp [completesWith]
  | crash => simp [completesWith]

end Script

namespace Scripted

variable {script : Script} {unsubscribe : Bool} {e : Scripted} {seen : List Glance} {s : Glance}
variable {p : Pool} {event : Event} {events : List Event}

/-- The engine after it has recorded one more event. -/
def recording (e : Scripted) (s : Glance) : Scripted :=
  { e with
    kinds := e.kinds ++ [s.event.kind]
    phase := phaseAfter s.event.kind e.phase
    payloads := e.payloads ++ s.payload?.toList
    counters := if s.read then e.counters.countProcessed
      else if s.event.lends then e.counters.countDropped else e.counters
    blocks := if s.event.isBlock then e.blocks + 1 else e.blocks }

@[simp] theorem requests_recording (e : Scripted) (s : Glance) :
    (e.recording s).requests = e.requests := rfl

@[simp] theorem phase_recording (e : Scripted) (s : Glance) :
    (e.recording s).phase = phaseAfter s.event.kind e.phase := rfl

/-- The event is the block of the script's number. -/
def Completes (e : Scripted) (event : Event) : Prop :=
  event.isBlock = true ∧ e.script.completesWith (e.blocks + 1) = true

instance (e : Scripted) (event : Event) : Decidable (e.Completes event) :=
  inferInstanceAs (Decidable (_ ∧ _))

/-- Reading a lent buffer records what can be read of it. -/
theorem keep_eq {h : Handle} (lent : s.event.buffer = some h) :
    keep s.pool h s.event.length e =
      { e with
        payloads := e.payloads ++ s.payload?.toList
        counters := if s.read then e.counters.countProcessed else e.counters.countDropped } := by
  cases live : s.pool.contents h with
  | none =>
      have missing : s.payload? = none := by simp [Glance.payload?, lent, live]
      simp [keep, Pool.copy_of_contents_eq_none live, Glance.read, missing]
  | some payload =>
      obtain large | fits := Nat.lt_or_ge s.event.length payload.length
      · have missing : s.payload? = none := by
          simpa [Glance.payload?, lent, live] using large
        have crowded : (List.replicate s.event.length (0 : UInt8)).length < payload.length := by
          rwa [List.length_replicate]
        simp [keep, Pool.copy_of_contents_of_lt live crowded, Glance.read, missing]
      · have found : s.payload? = some payload := by
          simp only [Glance.payload?, lent, live, Option.bind_some, Option.filter_some]
          exact if_pos (decide_eq_true fits)
        have room : payload.length ≤ (List.replicate s.event.length (0 : UInt8)).length := by
          rwa [List.length_replicate]
        simp [keep, Pool.copy_of_contents live room, Glance.read, found]

/-- Accepting an event records it, and reports its buffer and the end of the
download. -/
theorem accept_eq (e : Scripted) (s : Glance) :
    accept s.pool s.event e = ⟨e.recording s,
      match s.event.buffer with
      | none => []
      | some h => .processed (some h) :: if e.Completes s.event then [.activate] else [], []⟩ := by
  cases lent : s.event.buffer with
  | none =>
      have missing : s.payload? = none := by simp [Glance.payload?, lent]
      have unlent : s.event.lends = false := by simp [Event.lends, lent]
      simp [accept, noting, lent, recording, Glance.read, missing, unlent, Event.isBlock]
  | some h =>
      have lends : s.event.lends = true := by simp [Event.lends, lent]
      simp only [accept, lent, keep_eq lent]
      by_cases block : s.event.kind = .fileBlock
      · simp only [noting, recording, Completes, block, lends, Event.isBlock, BEq.rfl,
          Bool.and_self, if_true, true_and]
        split <;> rfl
      · simp [noting, recording, Completes, block, lends, Event.isBlock]

/-- The block of the script's number is recorded and its buffer given back, then
the image is activated and the engine shut down. -/
theorem serve_completing (uncrashed : crash? s.pool s.event e = none)
    (completes : e.Completes s.event) (unsubscribe : Bool) :
    ∃ notes, engine.serve unsubscribe s.pool e s.event =
      ⟨.finished, s.left,
        { e.recording s with
          phase := .stopped
          requests := e.requests ++ [.activate, .shutdown unsubscribe] }, [], notes⟩ := by
  refine ⟨(engine.serve unsubscribe s.pool e s.event).notes, ?_⟩
  have noCrash : engine.crash? s.pool s.event e = none := uncrashed
  have accepted := accept_eq e s
  obtain ⟨h, lent⟩ : ∃ h, s.event.buffer = some h := by
    have block := completes.1
    simp only [Event.isBlock, Event.lends, Bool.and_eq_true] at block
    exact Option.isSome_iff_exists.mp block.2
  rw [lent] at accepted
  simp only [if_pos completes] at accepted
  rw [Engine.serve, noCrash]
  simp [engine, accepted, Reaction.ofCallbacks, Reaction.ofCallback, Reaction.givingBack,
    Reaction.activating, Reaction.shuttingDown, ask, Glance.left, lent]

/-- The reaction to a buffer that is reported processed gives it back. -/
theorem exists_reaction (control : Control Scripted) (unsubscribe : Bool) (e : Scripted)
    (s : Glance) :
    ∃ result notes, Reaction.ofCallbacks control unsubscribe s.pool e
        (match s.event.buffer with
          | none => []
          | some h => [.processed (some h)]) = ⟨result, s.left, e, notes⟩ := by
  cases lent : s.event.buffer with
  | none =>
      refine ⟨.ok (), [], ?_⟩
      simp only [Reaction.ofCallbacks_nil, Glance.left, lent]
  | some h =>
      simp only [Reaction.ofCallbacks, Reaction.ofCallback, Reaction.givingBack, Glance.left, lent]
      exact ⟨_, _, rfl⟩

/-- Any other event is recorded and its buffer given back. -/
theorem serve_recording (uncrashed : crash? s.pool s.event e = none)
    (other : ¬e.Completes s.event) (unsubscribe : Bool) :
    ∃ notes, engine.serve unsubscribe s.pool e s.event =
      if (e.recording s).phase = .shuttingDown ∨ (e.recording s).phase = .stopped then
        ⟨.finished, s.left, { e.recording s with phase := .stopped }, [], notes⟩
      else ⟨.waiting, s.left, e.recording s, [], notes⟩ := by
  refine ⟨(engine.serve unsubscribe s.pool e s.event).notes, ?_⟩
  have noCrash : engine.crash? s.pool s.event e = none := uncrashed
  have accepted := accept_eq e s
  simp only [if_neg other] at accepted
  obtain ⟨result, notes, reaction⟩ := exists_reaction engine.toControl unsubscribe (e.recording s) s
  have served : engine.accept s.pool s.event e = _ := accepted
  rw [Engine.serve, noCrash]
  simp only [served, reaction]
  by_cases halted : (e.recording s).phase = .shuttingDown ∨ (e.recording s).phase = .stopped
  · have leaves : engine.leaves s.event (e.recording s) = true := by simpa [engine] using halted
    rw [if_pos halted, if_pos leaves]
    simp [engine]
  · have stays : ¬engine.leaves s.event (e.recording s) = true := by simpa [engine] using halted
    rw [if_neg halted, if_neg stays]

/-- An event that says it is longer than memory goes is taken down and counted as
received, and then the task is over: the buffer is neither read nor given back. -/
theorem serve_of_overlong (calm : e.script ≠ .crash) (lends : event.lends = true)
    (long : readingLimit p < event.length) (unsubscribe : Bool) :
    engine.serve unsubscribe p e event =
      ⟨.crashed .unaddressable, p, receiving event.kind e, [], []⟩ := by
  have crashes : engine.crash? p event e = some ⟨.unaddressable, receiving event.kind e⟩ := by
    simp [engine, crash?, Script.crash?_of_ne calm, lends, long]
  rw [Engine.serve, crashes]

/-- All that the engine has kept comes from what it has seen. -/
structure Records (e : Scripted) (script : Script) (unsubscribe : Bool) (seen : List Glance) :
    Prop where
  script_eq : e.script = script
  kinds_eq : e.kinds = (Glance.events seen).map Event.kind
  payloads_eq : e.payloads = seen.filterMap Glance.payload?
  counters_eq : e.counters = ⟨UInt32.ofNat ((Glance.events seen).countP Event.lends), 0,
    UInt32.ofNat (seen.countP Glance.read), UInt32.ofNat (seen.countP Glance.missed)⟩
  blocks_eq : e.blocks = UInt32.ofNat ((Glance.events seen).countP Event.isBlock)
  requests_eq : e.requests =
    if script.Completed (Glance.events seen) then [.activate, .shutdown unsubscribe] else []

/-- The engine has come to nothing that makes it stop. -/
structure Awake (e : Scripted) (script : Script) (events : List Event) : Prop where
  phase_ne : e.phase ≠ .shuttingDown ∧ e.phase ≠ .stopped
  incomplete : ¬script.Completed events
  going : ¬script.Stops events
  runs : script.Runs events

theorem records_fresh (script : Script) (phase : Phase) (unsubscribe : Bool) :
    (fresh script phase).Records script unsubscribe [] where
  script_eq := rfl
  kinds_eq := rfl
  payloads_eq := rfl
  counters_eq := rfl
  blocks_eq := rfl
  requests_eq := by
    cases script with
    | activate number => simp [Script.Completed, Glance.events, fresh]; omega
    | nothing => rfl
    | crash => rfl

theorem awake_fresh (script : Script) : (fresh script .init).Awake script [] where
  phase_ne := ⟨Phase.noConfusion, Phase.noConfusion⟩
  incomplete := by
    cases script with
    | activate number => simp [Script.Completed]; omega
    | nothing => exact id
    | crash => exact id
  going := script.not_stops_nil
  runs part before shorter := absurd (List.prefix_nil.mp before) shorter

/-- Recording one more event goes on with the record. -/
theorem Records.concat (records : e.Records script unsubscribe seen) (s : Glance) {phase : Phase}
    {requests : List Request}
    (requests_eq : requests = if script.Completed (Glance.events (seen ++ [s])) then
      [.activate, .shutdown unsubscribe] else []) :
    Records { e.recording s with phase, requests } script unsubscribe (seen ++ [s]) where
  script_eq := records.script_eq
  kinds_eq := by simp [recording, records.kinds_eq, Glance.events]
  payloads_eq := by
    cases found : s.payload? <;> simp [recording, records.payloads_eq, found]
  counters_eq := by
    cases lends : s.event.lends with
    | false =>
        have unread := Glance.read_of_unlent lends
        simp [recording, records.counters_eq, Glance.events, Glance.missed, lends, unread]
    | true =>
        cases read : s.read <;>
          simp [recording, records.counters_eq, Glance.events, Glance.missed, lends, read,
            Counters.countProcessed, Counters.countDropped, UInt32.ofNat_add]
  blocks_eq := by
    cases block : s.event.isBlock <;>
      simp [recording, records.blocks_eq, Glance.events, block, UInt32.ofNat_add]
  requests_eq := requests_eq

/-- Few enough events are counted as many as they are. -/
theorem Records.counted (records : e.Records script unsubscribe seen)
    (few : seen.length < 2 ^ 32) :
    e.counters.received.toNat = (Glance.events seen).countP Event.lends ∧
      e.counters.processed.toNat = seen.countP Glance.read ∧
      e.counters.received.toNat = e.counters.processed.toNat + e.counters.dropped.toNat := by
  have small : ∀ count, count ≤ seen.length → (UInt32.ofNat count).toNat = count :=
    fun count le => UInt32.toNat_ofNat_of_lt' (Nat.lt_of_le_of_lt le few)
  have lent := Glance.countP_lends seen
  have all : (Glance.events seen).countP Event.lends ≤ (seen.map Glance.event).length :=
    List.countP_le_length
  rw [List.length_map] at all
  rw [records.counters_eq]
  dsimp only
  rw [small _ all, small _ List.countP_le_length, small _ List.countP_le_length]
  exact ⟨rfl, rfl, lent⟩

theorem Records.completes_iff (records : e.Records script unsubscribe seen)
    (few : seen.length + 1 < 2 ^ 32) (event : Event) :
    e.Completes event ↔ event.isBlock = true ∧ ∃ number, script = .activate number ∧
      (Glance.events seen ++ [event]).countP Event.isBlock = number.toNat := by
  rw [Completes, records.script_eq, records.blocks_eq]
  apply and_congr_right
  intro block
  have counted : (Glance.events seen ++ [event]).countP Event.isBlock =
      (Glance.events seen).countP Event.isBlock + 1 := by
    rw [List.countP_append, List.countP_singleton, if_pos block]
  have bound : (Glance.events seen).countP Event.isBlock ≤ (Glance.events seen).length :=
    List.countP_le_length
  rw [Glance.events, List.length_map] at bound
  rw [counted, ← Script.completesWith_iff (by rw [Glance.events]; omega), UInt32.ofNat_add]
  exact Iff.rfl

/-- What the phase is after an event that makes the engine neither stop nor shut
down. -/
theorem phaseAfter_ne {kind : EventKind} {phase : Phase} (going : kind ≠ .stop)
    (awake : phase ≠ .shuttingDown ∧ phase ≠ .stopped) :
    ¬(phaseAfter kind phase = .shuttingDown ∨ phaseAfter kind phase = .stopped) := by
  rw [not_or]
  cases kind with
  | stop => exact absurd rfl going
  | start => exact ⟨Phase.noConfusion, Phase.noConfusion⟩
  | _ => exact awake

/-- What one more event comes to. -/
theorem serve_records (records : e.Records script unsubscribe seen)
    (awake : e.Awake script (Glance.events seen)) (calm : script ≠ .crash)
    (few : seen.length + 1 < 2 ^ 32) (s : Glance) (short : s.event.length ≤ addressLimit) :
    let served := engine.serve unsubscribe s.pool e s.event
    served.engine.Records script unsubscribe (seen ++ [s]) ∧ served.pool = s.left ∧
      (served.task = .waiting ∧ served.engine.Awake script (Glance.events (seen ++ [s])) ∨
        served.task = .finished ∧ served.engine.phase = .stopped ∧
          script.Stops (Glance.events (seen ++ [s])) ∧
          script.Runs (Glance.events (seen ++ [s]))) := by
  have concat : Glance.events (seen ++ [s]) = Glance.events seen ++ [s.event] := by
    simp [Glance.events]
  have uncrashed : crash? s.pool s.event e = none := by
    refine crash?_eq_none ?_ fun _ => Nat.le_trans short (Nat.le_max_left _ _)
    rwa [records.script_eq]
  have requests : e.requests = [] := by rw [records.requests_eq, if_neg awake.incomplete]
  have runs : script.Runs (Glance.events (seen ++ [s])) := by
    rw [concat]
    exact awake.runs.concat awake.going s.event
  have completed : script.Completed (Glance.events (seen ++ [s])) ↔ e.Completes s.event := by
    rw [concat, Script.completed_concat_iff awake.incomplete, records.completes_iff few]
  have stops : script.Stops (Glance.events (seen ++ [s])) ↔
      s.event.kind = .stop ∨ e.Completes s.event := by
    rw [concat, Script.stops_concat_iff, records.completes_iff few]
  intro served
  by_cases completes : e.Completes s.event
  · obtain ⟨notes, done⟩ := serve_completing uncrashed completes unsubscribe
    change served = _ at done
    rw [done]
    refine ⟨records.concat s ?_, rfl, .inr ⟨rfl, rfl, stops.mpr (.inr completes), runs⟩⟩
    rw [requests, if_pos (completed.mpr completes)]
    rfl
  · have unasked : e.requests = if script.Completed (Glance.events (seen ++ [s])) then
        [.activate, .shutdown unsubscribe] else [] := by
      rw [requests, if_neg (mt completed.mp completes)]
    obtain ⟨notes, done⟩ := serve_recording uncrashed completes unsubscribe
    by_cases stop : s.event.kind = .stop
    · have halted : (e.recording s).phase = .stopped := by
        rw [phase_recording, stop]
        rfl
      rw [if_pos (.inr halted)] at done
      change served = _ at done
      rw [done]
      exact ⟨records.concat s unasked, rfl, .inr ⟨rfl, rfl, stops.mpr (.inl stop), runs⟩⟩
    · have stays := phaseAfter_ne stop awake.phase_ne
      rw [phase_recording, if_neg stays] at done
      change served = _ at done
      rw [done]
      refine ⟨records.concat s unasked, rfl, .inl ⟨rfl, ?_⟩⟩
      constructor
      · exact not_or.mp stays
      · exact mt completed.mp completes
      · rw [stops]
        exact not_or.mpr ⟨stop, completes⟩
      · exact runs

end Scripted

/-- The events that an engine takes of these, each with the pool at its moment. -/
def Engine.glances {ε : Type} (E : Engine ε) (unsubscribe : Bool) (pool : Pool) (engine : ε) :
    List Event → List Glance
  | [] => []
  | event :: events =>
    let served := E.serve unsubscribe pool engine event
    ⟨event, pool⟩ :: match served.task with
      | .waiting => E.glances unsubscribe served.pool served.engine events
      | _ => []

namespace Scripted

variable {script : Script} {unsubscribe : Bool} {e : Scripted} {seen : List Glance}

/-- What it comes to that an engine is given some events, if it had seen `seen`
before and takes `more`. -/
structure Takes (script : Script) (unsubscribe : Bool) (p : Pool) (events : List Event)
    (seen more : List Glance) (served : Engine.Served Scripted) : Prop where
  records : served.engine.Records script unsubscribe (seen ++ more)
  pool_eq : served.pool = (p.run (Glance.releases more)).2
  parts : Glance.events more ++ served.rest = events
  outcome : served.task = .waiting ∧ served.rest = [] ∧
      served.engine.Awake script (Glance.events (seen ++ more)) ∨
    served.task = .finished ∧ served.engine.phase = .stopped ∧
      script.Stops (Glance.events (seen ++ more)) ∧ script.Runs (Glance.events (seen ++ more))

/-- An engine that is given some events takes them up to the first that makes it
stop, records what it takes, and gives back the buffer of each. -/
theorem serveAll_records (records : e.Records script unsubscribe seen)
    (awake : e.Awake script (Glance.events seen)) (calm : script ≠ .crash) (events : List Event)
    (manageable : Event.Manageable (Glance.events seen ++ events)) (p : Pool) :
    Takes script unsubscribe p events seen (engine.glances unsubscribe p e events)
      (engine.serveAll unsubscribe p e events) := by
  induction events generalizing p e seen with
  | nil =>
      have same : seen ++ engine.glances unsubscribe p e [] = seen := List.append_nil seen
      constructor
      · rwa [same]
      · rfl
      · rfl
      · rw [same]
        exact .inl ⟨rfl, rfl, awake⟩
  | cons event events ih =>
      have few := manageable.few
      rw [List.length_append, Glance.events, List.length_map, List.length_cons] at few
      have short := manageable.short event (List.mem_append_right _ List.mem_cons_self)
      obtain ⟨records, pool, outcome⟩ :=
        serve_records records awake calm (by omega) ⟨event, p⟩ short
      dsimp only at records pool outcome
      obtain ⟨task, awake⟩ | ⟨task, phase, stops, runs⟩ := outcome
      · have rest : Event.Manageable (Glance.events (seen ++ [⟨event, p⟩]) ++ events) := by
          rwa [Glance.events_append, List.append_assoc]
        have later := ih records awake rest (engine.serve unsubscribe p e event).pool
        simp only [Engine.serveAll, Engine.glances, task]
        constructor
        · rw [← List.singleton_append, ← List.append_assoc]
          exact later.records
        · exact later.pool_eq.trans (pool ▸ (Glance.run_releases_cons ⟨event, p⟩ _).symm)
        · exact congrArg (event :: ·) later.parts
        · rw [← List.singleton_append, ← List.append_assoc]
          exact later.outcome
      · simp only [Engine.serveAll, Engine.glances, task]
        constructor
        · exact records
        · exact pool.trans (Glance.run_releases_cons ⟨event, p⟩ []).symm
        · rfl
        · exact .inr ⟨rfl, phase, stops, runs⟩

end Scripted

end UpdateBridge
