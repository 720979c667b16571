import UpdateBridge.Engine.Download
import UpdateBridge.Proofs.Engine.Attendance
import UpdateBridge.Proofs.Engine.Backing

/-!
# Two engines on one stream

The download engine and an engine with a script to activate are written in different
ways. On a stop the one leaves its loop before it looks at the event and the other
after. The one reads a buffer into 1024 octets, the other into as many as the event
says. The one counts the blocks that it could read and asks whether there are enough,
the other counts those that it was lent and asks whether this is the one.

On a stream that is backed by a pool of small buffers none of this shows. While both
run they are `Abreast`; one event leaves them so or ends both loops (`serve_agree`),
hence a whole queue does (`serveAll_agree`), and a shift of the one is at every moment
that of the other with the engines exchanged (`download_agrees_with_scripted`).
-/

namespace UpdateBridge

/-! ## What an engine takes, and what it raises -/

/-- An event that an engine took, and the callbacks that it raised. -/
structure Report where
  event : Event
  raised : List Callback
  deriving DecidableEq

namespace Report

def events (reports : List Report) : List Event :=
  reports.map Report.event

/-- How often activation was raised. -/
def activations (reports : List Report) : Nat :=
  (reports.flatMap Report.raised).count .activate

@[simp] theorem events_append (first second : List Report) :
    events (first ++ second) = events first ++ events second :=
  List.map_append

@[simp] theorem activations_append (first second : List Report) :
    activations (first ++ second) = activations first + activations second := by
  simp [activations]

end Report

namespace Engine

variable {ε : Type}

def raised (E : Engine ε) (pool : Pool) (event : Event) (engine : ε) : List Callback :=
  match E.crash? pool event engine with
  | some _ => []
  | none => (E.accept pool event engine).callbacks

/-- The events that the engine takes of these, each with what it raises. -/
def reports (E : Engine ε) (unsubscribe : Bool) (pool : Pool) (engine : ε) :
    List Event → List Report
  | [] => []
  | event :: events =>
    let served := E.serve unsubscribe pool engine event
    ⟨event, E.raised pool event engine⟩ :: match served.task with
      | .waiting => E.reports unsubscribe served.pool served.engine events
      | _ => []

end Engine

variable {k : UInt32} {d : Download} {s : Scripted} {p : Pool} {kind : EventKind} {h : Handle}
variable {payload : List UInt8} {event : Event} {events later : List Event} {unsubscribe : Bool}

/-! ## A packet that is there -/

theorem Event.isBlock_lending (kind : EventKind) (h : Handle) (length : Nat) :
    (Event.lending kind h length).isBlock = (kind == .fileBlock) :=
  Bool.and_true _

theorem Glance.read_packet (live : p.contents h = some payload) :
    Glance.read ⟨.lending kind h payload.length, p⟩ = true := by
  simp [Glance.read, Glance.payload?, Event.lending, live]

namespace Download

/-- The engine after it has read a packet of that kind. -/
def receiving (e : Download) (kind : EventKind) : Download :=
  { e with
    counters := e.counters.countProcessed
    blocks := if kind = .fileBlock then e.blocks + 1 else e.blocks }

/-- A packet is read where it fits, and its buffer is reported processed. -/
theorem accept_packet (sort : kind = .jobDocument ∨ kind = .fileBlock)
    (live : p.contents h = some payload) (fits : payload.length ≤ blockSize) (e : Download) :
    ∃ notes, accept p (.lending kind h payload.length) e =
      ⟨e.receiving kind, .processed (some h) ::
        if e.total ≤ (e.receiving kind).blocks then [.activate] else [], notes⟩ := by
  refine ⟨(accept p (.lending kind h payload.length) e).notes, ?_⟩
  have room : payload.length ≤ (List.replicate blockSize (0 : UInt8)).length := by
    simpa only [List.length_replicate] using fits
  have copied := Pool.copy_of_contents live room
  obtain rfl | rfl := sort
  · by_cases enough : e.total ≤ e.blocks <;>
      simp [accept, readBuffer, copied, consume, receiving, Event.lending, enough]
  · by_cases enough : e.total ≤ e.blocks + 1 <;>
      simp [accept, readBuffer, copied, consume, receiving, Event.lending, enough]

variable {e : Download}

theorem serve_start (e : Download) (unsubscribe : Bool) :
    engine.serve unsubscribe p e .start = ⟨.waiting, p, { e with phase := .active }, [], []⟩ := rfl

theorem serve_stop (e : Download) (unsubscribe : Bool) :
    engine.serve unsubscribe p e .stop =
      ⟨.finished, p, { e with phase := .stopped }, [], [.taskFinished]⟩ := rfl

/-- With the last packet the image is activated and the engine shut down. -/
theorem serve_last (sort : kind = .jobDocument ∨ kind = .fileBlock)
    (live : p.contents h = some payload) (fits : payload.length ≤ blockSize)
    (last : e.total ≤ (e.receiving kind).blocks) (unsubscribe : Bool) :
    ∃ notes, engine.serve unsubscribe p e (.lending kind h payload.length) =
      ⟨.finished, (p.release h).2, { e.receiving kind with phase := .stopped }, [], notes⟩ := by
  refine ⟨(engine.serve unsubscribe p e (.lending kind h payload.length)).notes, ?_⟩
  obtain ⟨notes, accepted⟩ := accept_packet sort live fits e
  rw [if_pos last] at accepted
  simp [Engine.serve, engine, accepted, Reaction.ofCallbacks, Reaction.ofCallback,
    Reaction.givingBack, Reaction.activating, Reaction.shuttingDown, ask]

/-- After any other packet the engine goes on. -/
theorem serve_next (sort : kind = .jobDocument ∨ kind = .fileBlock)
    (live : p.contents h = some payload) (fits : payload.length ≤ blockSize)
    (more : ¬e.total ≤ (e.receiving kind).blocks) (awake : e.phase ≠ .shuttingDown)
    (unsubscribe : Bool) :
    ∃ notes, engine.serve unsubscribe p e (.lending kind h payload.length) =
      ⟨.waiting, (p.release h).2, e.receiving kind, [], notes⟩ := by
  refine ⟨(engine.serve unsubscribe p e (.lending kind h payload.length)).notes, ?_⟩
  obtain ⟨notes, accepted⟩ := accept_packet sort live fits e
  rw [if_neg more] at accepted
  have stays : ¬((Event.lending kind h payload.length).kind = .stop ∨
      (e.receiving kind).phase = .shuttingDown) := by
    rintro (stop | down)
    · obtain rfl | rfl := sort
      · cases stop
      · cases stop
    · exact awake down
  simp [Engine.serve, engine, accepted, Reaction.ofCallbacks, Reaction.ofCallback,
    Reaction.givingBack, stays]

end Download

namespace Scripted

/-- An event with its packet in the pool says no more than a buffer holds. -/
theorem crash?_of_backed (calm : s.script ≠ .crash) (consistent : p.Consistent)
    (backed : event.Backed p) : crash? p event s = none := by
  refine crash?_eq_none calm fun lends => ?_
  cases backed with
  | start | stop => cases lends
  | packet sort live =>
      exact Nat.le_trans (consistent.length_le_of_contents live) (Nat.le_max_right _ _)

theorem raised_eq (uncrashed : crash? p event s = none) :
    engine.raised p event s = match event.buffer with
      | none => []
      | some h => .processed (some h) :: if s.Completes event then [.activate] else [] := by
  have noCrash : engine.crash? p event s = none := uncrashed
  simp only [Engine.raised, noCrash]
  exact congrArg Accepted.callbacks (accept_eq s ⟨event, p⟩)

theorem serve_start (calm : s.script ≠ .crash) (p : Pool) (unsubscribe : Bool) :
    engine.serve unsubscribe p s .start =
      ⟨.waiting, p, { s with kinds := s.kinds ++ [.start], phase := .active }, [], []⟩ := by
  have noCrash : engine.crash? p .start s = none := crash?_eq_none calm nofun
  simp only [Engine.serve, noCrash]
  rfl

theorem serve_stop (calm : s.script ≠ .crash) (p : Pool) (unsubscribe : Bool) :
    engine.serve unsubscribe p s .stop =
      ⟨.finished, p, { s with kinds := s.kinds ++ [.stop], phase := .stopped }, [],
        [.taskFinished]⟩ := by
  have noCrash : engine.crash? p .stop s = none := crash?_eq_none calm nofun
  simp only [Engine.serve, noCrash]
  rfl

end Scripted

/-! ## The two engines side by side -/

/-- The two engines have come equally far, and not to the end. -/
structure Abreast (k : UInt32) (d : Download) (s : Scripted) : Prop where
  total_eq : d.total = k
  script_eq : s.script = .activate k
  phase_eq : d.phase = s.phase
  awake : s.phase ≠ .shuttingDown ∧ s.phase ≠ .stopped
  counters_eq : d.counters = s.counters
  blocks_eq : d.blocks = s.blocks
  short : d.blocks < k

namespace Abreast

theorem fresh (positive : 0 < k) :
    Abreast k (Download.fresh k) (Scripted.fresh (.activate k) .init) where
  total_eq := rfl
  script_eq := rfl
  phase_eq := rfl
  awake := ⟨Phase.noConfusion, Phase.noConfusion⟩
  counters_eq := rfl
  blocks_eq := rfl
  short := positive

theorem calm (abreast : Abreast k d s) : s.script ≠ .crash := by
  rw [abreast.script_eq]
  exact Script.noConfusion

/-- The start makes both active. -/
theorem started (abreast : Abreast k d s) :
    Abreast k { d with phase := .active }
      { s with kinds := s.kinds ++ [.start], phase := .active } :=
  { abreast with
    phase_eq := rfl
    awake := ⟨Phase.noConfusion, Phase.noConfusion⟩ }

/-- The one has enough blocks with the very block that the other waits for: before it
there were too few, so there can be no more than enough. -/
theorem last_iff (abreast : Abreast k d s) (kind : EventKind) (h : Handle) (length : Nat) :
    d.total ≤ (d.receiving kind).blocks ↔ s.Completes (.lending kind h length) := by
  have short := abreast.short
  have next : (d.blocks + 1).toNat = d.blocks.toNat + 1 := by
    rw [UInt32.toNat_add]
    exact Nat.mod_eq_of_lt (Nat.lt_of_le_of_lt (UInt32.lt_iff_toNat_lt.mp short) k.toNat_lt)
  rw [UInt32.lt_iff_toNat_lt] at short
  simp only [Scripted.Completes, Event.isBlock_lending, beq_iff_eq, abreast.script_eq,
    Script.completesWith, ← abreast.blocks_eq, Download.receiving, abreast.total_eq]
  by_cases block : kind = .fileBlock
  · simp only [block, if_true, true_and, UInt32.le_iff_toNat_le, ← UInt32.toNat_inj, next]
    omega
  · simp only [block, if_false, false_and, iff_false, UInt32.le_iff_toNat_le]
    omega

theorem counters_receiving (abreast : Abreast k d s) (live : p.contents h = some payload)
    (kind : EventKind) :
    (d.receiving kind).counters = (s.recording ⟨.lending kind h payload.length, p⟩).counters := by
  simp only [Scripted.recording, Glance.read_packet live, if_true, ← abreast.counters_eq]
  rfl

/-- A packet that is there, and not the last, leaves them abreast. -/
theorem receiving (abreast : Abreast k d s) (sort : kind = .jobDocument ∨ kind = .fileBlock)
    (live : p.contents h = some payload) (more : ¬d.total ≤ (d.receiving kind).blocks) :
    Abreast k (d.receiving kind) (s.recording ⟨.lending kind h payload.length, p⟩) where
  total_eq := abreast.total_eq
  script_eq := abreast.script_eq
  phase_eq := by
    obtain rfl | rfl := sort
    · exact abreast.phase_eq
    · exact abreast.phase_eq
  awake := by
    obtain rfl | rfl := sort
    · exact abreast.awake
    · exact abreast.awake
  counters_eq := abreast.counters_receiving live kind
  blocks_eq := by
    obtain rfl | rfl := sort
    · exact abreast.blocks_eq
    · exact congrArg (· + 1) abreast.blocks_eq
  short := by
    rw [← abreast.total_eq]
    exact UInt32.not_le.mp more

end Abreast

/-- What the two engines left is the same, as far as they can be told apart. -/
structure Alike (x : Engine.Served Download) (y : Engine.Served Scripted) : Prop where
  task_eq : x.task = y.task
  pool_eq : x.pool = y.pool
  phase_eq : x.engine.phase = y.engine.phase
  counters_eq : x.engine.counters = y.engine.counters

/-- How far the two engines have come with these events, where `later` wait behind
them: they took all and are still abreast, or they took a part of them and are over. -/
inductive Progress (k : UInt32) (events later : List Event) (x : Engine.Served Download)
    (y : Engine.Served Scripted) (reports : List Report) : Prop
  | going (waiting : x.task = .waiting) (all : Report.events reports = events)
      (quiet : Report.activations reports = 0) (abreast : Abreast k x.engine y.engine)
      (backs : x.pool.Backs Download.blockSize later)
  | ended (finished : x.task = .finished) (part : Report.events reports <+: events)
      (once : Report.activations reports ≤ 1)

/-- One event comes to the same with both. -/
theorem serve_agree (abreast : Abreast k d s) (backs : p.Backs Download.blockSize (event :: later))
    (unsubscribe : Bool) :
    let x := Download.engine.serve unsubscribe p d event
    let y := Scripted.engine.serve unsubscribe p s event
    Download.engine.raised p event d = Scripted.engine.raised p event s ∧ Alike x y ∧
      Progress k [event] later x y [⟨event, Download.engine.raised p event d⟩] := by
  intro x y
  have left := backs.left
  have backed := backs.backed event List.mem_cons_self
  have uncrashed := Scripted.crash?_of_backed abreast.calm backs.consistent backed
  have scripted := Scripted.raised_eq uncrashed
  cases backed with
  | start =>
      have served : y = _ := Scripted.serve_start abreast.calm p unsubscribe
      simp only [scripted, served]
      exact ⟨rfl, ⟨rfl, rfl, rfl, abreast.counters_eq⟩,
        .going rfl rfl rfl abreast.started left⟩
  | stop =>
      have served : y = _ := Scripted.serve_stop abreast.calm p unsubscribe
      simp only [scripted, served]
      exact ⟨rfl, ⟨rfl, rfl, rfl, abreast.counters_eq⟩,
        .ended rfl List.prefix_rfl (Nat.zero_le 1)⟩
  | @packet kind h payload sort live =>
      have fits : payload.length ≤ Download.blockSize :=
        Nat.le_trans (backs.consistent.length_le_of_contents live) backs.size_le
      have same := abreast.last_iff kind h payload.length
      have raised : Download.engine.raised p (.lending kind h payload.length) d =
          .processed (some h) ::
            if d.total ≤ (d.receiving kind).blocks then [.activate] else [] := by
        obtain ⟨notes, accepted⟩ := Download.accept_packet sort live fits d
        exact congrArg Accepted.callbacks accepted
      have agree : Download.engine.raised p (.lending kind h payload.length) d =
          Scripted.engine.raised p (.lending kind h payload.length) s :=
        raised.trans ((congrArg (_ :: ·) (if_congr same rfl rfl)).trans scripted.symm)
      have counters := abreast.counters_receiving live kind
      refine ⟨agree, ?_⟩
      by_cases last : d.total ≤ (d.receiving kind).blocks
      · obtain ⟨notes, served⟩ := Download.serve_last sort live fits last unsubscribe
        obtain ⟨notes', served'⟩ := Scripted.serve_completing
          (s := ⟨.lending kind h payload.length, p⟩) uncrashed (same.mp last) unsubscribe
        rw [if_pos last] at raised
        rw [raised, show x = _ from served, show y = _ from served']
        exact ⟨⟨rfl, rfl, rfl, counters⟩, .ended rfl List.prefix_rfl (Nat.le_refl 1)⟩
      · obtain ⟨notes, served⟩ := Download.serve_next sort live fits last
          (abreast.phase_eq ▸ abreast.awake.1) unsubscribe
        have next := abreast.receiving sort live last
        obtain ⟨notes', served'⟩ := Scripted.serve_recording
          (s := ⟨.lending kind h payload.length, p⟩) uncrashed (mt same.mpr last) unsubscribe
        rw [if_neg (not_or.mpr next.awake)] at served'
        rw [if_neg last] at raised
        rw [raised, show x = _ from served, show y = _ from served']
        exact ⟨⟨rfl, rfl, next.phase_eq, counters⟩, .going rfl rfl rfl next left⟩

/-- What comes of more events, after others were taken whole. -/
theorem Progress.append {x : Engine.Served Download} {y : Engine.Served Scripted}
    {first second : List Report} {taken : List Event} (all : Report.events first = taken)
    (quiet : Report.activations first = 0) (more : Progress k events later x y second)
    (notes notes' : List Note) :
    Progress k (taken ++ events) later { x with notes } { y with notes := notes' }
      (first ++ second) := by
  subst all
  cases more with
  | going waiting all quiet' abreast backs =>
      refine .going waiting ?_ ?_ abreast backs
      · rw [Report.events_append, all]
      · rw [Report.activations_append, quiet, quiet']
  | ended finished part once =>
      refine .ended finished ?_ ?_
      · rw [Report.events_append]
        exact (List.prefix_append_right_inj _).mpr part
      · rwa [Report.activations_append, quiet, Nat.zero_add]

/-- Any events come to the same with both. -/
theorem serveAll_agree (abreast : Abreast k d s)
    (backs : p.Backs Download.blockSize (events ++ later)) (unsubscribe : Bool) :
    let x := Download.engine.serveAll unsubscribe p d events
    let y := Scripted.engine.serveAll unsubscribe p s events
    let reports := Download.engine.reports unsubscribe p d events
    Scripted.engine.reports unsubscribe p s events = reports ∧ Alike x y ∧
      Progress k events later x y reports := by
  induction events generalizing p d s with
  | nil =>
      exact ⟨rfl, ⟨rfl, rfl, abreast.phase_eq, abreast.counters_eq⟩,
        .going rfl rfl rfl abreast backs⟩
  | cons event events ih =>
      obtain ⟨raised, alike, progress⟩ := serve_agree abreast backs unsubscribe
      cases progress with
      | going waiting all quiet next left =>
          obtain ⟨reports, alike', progress⟩ := ih next left
          have waiting' := alike.task_eq.symm.trans waiting
          simp only [Engine.serveAll, Engine.reports, waiting, waiting']
          rw [← alike.pool_eq, ← raised, reports]
          exact ⟨rfl, ⟨alike'.task_eq, alike'.pool_eq, alike'.phase_eq, alike'.counters_eq⟩,
            progress.append all quiet _ _⟩
      | ended finished part once =>
          have finished' := alike.task_eq.symm.trans finished
          simp only [Engine.serveAll, Engine.reports, finished, finished', raised]
          exact ⟨trivial, ⟨rfl, alike.pool_eq, alike.phase_eq, alike.counters_eq⟩,
            .ended rfl (List.prefix_append [event] events) (raised ▸ once)⟩

end UpdateBridge
