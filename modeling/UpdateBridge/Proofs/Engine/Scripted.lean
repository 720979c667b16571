import UpdateBridge.Engine.Scripted
import UpdateBridge.Proofs.Intake.Loans
import UpdateBridge.Proofs.Route.Exclusive

/-!
# What the scripted engine keeps

A scripted engine that has started keeps the messages that are lent to it, in
order, and gives each buffer back. It goes on until the block that its script
waits for, keeps that block too and is finished. So what it has kept in the end
is `Script.cut` of all that it was given: everything, or what there is up to
that block (`serveAll_loans`).
-/

namespace UpdateBridge

namespace Message

def blocks (messages : List Message) : Nat :=
  messages.countP fun m => m.kind = .fileBlock

/-- The messages up to the block of that number, counted from one, or all of
them if there are fewer blocks. -/
def upToBlock : Nat → List Message → List Message
  | 0, _ => []
  | _, [] => []
  | number + 1, m :: messages =>
    m :: upToBlock (if m.kind = .fileBlock then number else number + 1) messages

variable {number : Nat} {m : Message} {messages first second : List Message}

theorem upToBlock_zero (messages : List Message) : upToBlock 0 messages = [] := by
  unfold upToBlock
  rfl

theorem upToBlock_nil (number : Nat) : upToBlock number [] = [] := by
  cases number <;> rfl

theorem blocks_cons (m : Message) (messages : List Message) :
    blocks (m :: messages) = blocks messages + if m.kind = .fileBlock then 1 else 0 := by
  simp [blocks, List.countP_cons]

theorem blocks_singleton (m : Message) :
    blocks [m] = if m.kind = .fileBlock then 1 else 0 := by
  rw [blocks_cons]
  exact Nat.zero_add _

theorem blocks_append (first second : List Message) :
    blocks (first ++ second) = blocks first + blocks second :=
  List.countP_append

/-- The cut falls into the first part or into the second. -/
theorem upToBlock_append (number : Nat) (first second : List Message) :
    upToBlock number (first ++ second) =
      upToBlock number first ++ upToBlock (number - blocks first) second := by
  induction first generalizing number with
  | nil => rw [upToBlock_nil]; rfl
  | cons m first ih =>
      cases number with
      | zero => rw [Nat.zero_sub, upToBlock_zero, upToBlock_zero, upToBlock_zero]; rfl
      | succ number =>
          rw [List.cons_append, upToBlock, upToBlock, ih, blocks_cons, List.cons_append]
          by_cases block : m.kind = .fileBlock
          · rw [if_pos block, if_pos block, Nat.add_sub_add_right]
          · rw [if_neg block, if_neg block]
            rfl

theorem upToBlock_of_lt (few : blocks messages < number) :
    upToBlock number messages = messages := by
  induction messages generalizing number with
  | nil => exact upToBlock_nil number
  | cons m messages ih =>
      rw [blocks_cons] at few
      cases number with
      | zero => omega
      | succ number =>
          rw [upToBlock]
          by_cases block : m.kind = .fileBlock
          · rw [if_pos block] at few ⊢
            rw [ih (by omega)]
          · rw [if_neg block] at few ⊢
            rw [ih few]

/-- The update routes make a job document or a block of a message, or nothing. -/
theorem kind_cases (m : Message) :
    m.kind = .jobDocument ∨ m.kind = .fileBlock ∨ m.kind = .ignored := by
  rw [kind]
  split
  · next kind found =>
      obtain ⟨route, member, rfl⟩ | rfl := Route.kindOf_cases found
      · obtain job | block := Route.kind_of_mem_updates member
        · exact Or.inl job
        · exact Or.inr (Or.inl block)
      · exact Or.inr (Or.inr rfl)
  · exact Or.inr (Or.inr rfl)

theorem phaseAfter_kind (m : Message) (phase : Phase) :
    Scripted.phaseAfter m.kind phase = phase := by
  obtain job | block | ignored := m.kind_cases
  · rw [job]
    rfl
  · rw [block]
    rfl
  · rw [ignored]
    rfl

end Message

namespace Script

/-- Whether the block that the script waits for is among the messages. -/
def reached (messages : List Message) : Script → Prop
  | .activate block => block.toNat ≤ Message.blocks messages
  | .nothing | .crash => False

/-- What an engine with that script keeps of the messages. -/
def cut (messages : List Message) : Script → List Message
  | .activate block => Message.upToBlock block.toNat messages
  | .nothing | .crash => messages

variable {script : Script} {messages : List Message} {m : Message}

theorem cut_of_not_reached (going : ¬script.reached messages) : script.cut messages = messages := by
  cases script with
  | activate block => exact Message.upToBlock_of_lt (Nat.lt_of_not_le going)
  | _ => rfl

theorem cut_append_of_reached (reached : script.reached messages) (later : List Message) :
    script.cut (messages ++ later) = script.cut messages := by
  cases script with
  | activate block =>
      rw [cut, cut, Message.upToBlock_append, Nat.sub_eq_zero_of_le reached, Message.upToBlock_zero,
        List.append_nil]
  | _ => exact absurd reached id

/-- The block that the script waits for is kept itself. -/
theorem cut_concat_of_not_reached (going : ¬script.reached messages) (m : Message) :
    script.cut (messages ++ [m]) = messages ++ [m] := by
  cases script with
  | activate block =>
      have few : Message.blocks messages < block.toNat := Nat.lt_of_not_le going
      rw [cut, Message.upToBlock_append, Message.upToBlock_of_lt few]
      congr 1
      obtain ⟨rest, left⟩ := Nat.exists_eq_add_one_of_ne_zero (Nat.sub_ne_zero_of_lt few)
      rw [left, Message.upToBlock, Message.upToBlock_nil]
  | _ => rfl

theorem reached_append (reached : script.reached messages) (later : List Message) :
    script.reached (messages ++ later) := by
  cases script with
  | activate block =>
      rw [Script.reached, Message.blocks_append]
      exact Nat.le_trans reached (Nat.le_add_right _ _)
  | _ => exact reached

end Script

namespace Scripted

/-- The engine has kept the start and these messages. -/
structure Kept (e : Scripted) (messages : List Message) : Prop where
  kinds_eq : e.kinds = .start :: messages.map Message.kind
  payloads_eq : e.payloads = messages.map Message.payload

/-- The engine has started, has kept these messages and goes on. -/
structure Going (e : Scripted) (script : Script) (messages : List Message) : Prop
    extends Kept e messages where
  script_eq : e.script = script
  phase_eq : e.phase = .active
  blocks_eq : e.blocks = UInt32.ofNat (Message.blocks messages)
  going : ¬script.reached messages

/-- The engine with one more message in it. -/
def keeping (e : Scripted) (m : Message) : Scripted :=
  { e with
    kinds := e.kinds ++ [m.kind]
    payloads := e.payloads ++ [m.payload]
    counters := e.counters.countProcessed
    blocks := if m.kind = .fileBlock then e.blocks + 1 else e.blocks }

theorem kept_keeping {e : Scripted} {messages : List Message} (he : e.Kept messages) (m : Message) :
    (e.keeping m).Kept (messages ++ [m]) where
  kinds_eq := by
    rw [keeping, he.kinds_eq, List.map_append]
    rfl
  payloads_eq := by
    rw [keeping, he.payloads_eq, List.map_append]
    rfl

variable {e : Scripted} {p : Pool} {capacity size : Nat} {l : Loan} {loans : List Loan}
  {script : Script} {kept : List Message}

/-- Accepting a loan keeps its message and reports the buffer, and also the end
of the download if the message is the block that the script waits for. -/
theorem accept_loan (hp : p.Lends capacity size (l :: loans)) :
    accept p l.event e =
      ⟨e.keeping l.message, .processed (some l.handle) ::
        if l.message.kind = .fileBlock ∧ e.script.completesWith (e.blocks + 1) = true then
          [.activate] else [], []⟩ := by
  have lent := (hp.contents_iff l.handle l.message.payload).mpr ⟨l, List.mem_cons_self, rfl, rfl⟩
  have room : l.message.payload.length ≤
      (List.replicate l.message.payload.length (0 : UInt8)).length :=
    Nat.le_of_eq List.length_replicate.symm
  have copied := Pool.copy_of_contents lent room
  simp only [accept, noting, Loan.event, Event.lending, Message.phaseAfter_kind, keep, copied,
    keeping, List.take_left']
  by_cases block : l.message.kind = .fileBlock
  · by_cases done : e.script.completesWith (e.blocks + 1) = true
    · simp only [if_pos block, if_pos done, if_pos (And.intro block done)]
    · simp only [if_pos block, if_neg done, if_neg fun both : _ ∧ _ => done both.2]
  · simp only [if_neg block, if_neg fun both : _ ∧ _ => block both.1]

/-- An event of a loan says no more than its buffer holds, so it can be read. -/
theorem crash?_loan (hp : p.Lends capacity size (l :: loans)) (calm : e.script ≠ .crash) :
    crash? p l.event e = none := by
  have lent := (hp.contents_iff l.handle l.message.payload).mpr ⟨l, List.mem_cons_self, rfl, rfl⟩
  have fits := hp.consistent.length_le_of_contents lent
  exact crash?_eq_none calm fun _ => Nat.le_trans fits (Nat.le_max_right _ _)

namespace Going

theorem completes_iff (he : e.Going script kept) {m : Message} :
    m.kind = .fileBlock ∧ e.script.completesWith (e.blocks + 1) = true ↔
      script.reached (kept ++ [m]) := by
  rw [he.script_eq, he.blocks_eq]
  have going := he.going
  cases script with
  | activate block =>
      rw [Script.reached] at going ⊢
      rw [Script.completesWith, Message.blocks_append, beq_iff_eq, Message.blocks_singleton]
      -- The counter cannot have wrapped around: it is below the block waited for.
      have few : Message.blocks kept < block.toNat := Nat.lt_of_not_le going
      have next : UInt32.ofNat (Message.blocks kept) + 1 = UInt32.ofNat (Message.blocks kept + 1) :=
        (UInt32.ofNat_add _ 1).symm
      have counted : (UInt32.ofNat (Message.blocks kept + 1)).toNat = Message.blocks kept + 1 :=
        UInt32.toNat_ofNat_of_lt' (Nat.lt_of_le_of_lt few block.toNat_lt)
      rw [next, ← UInt32.toNat_inj, counted]
      by_cases isBlock : m.kind = .fileBlock
      · rw [if_pos isBlock]
        exact ⟨fun both => Nat.le_of_eq both.2, fun le => ⟨isBlock, by omega⟩⟩
      · rw [if_neg isBlock]
        exact ⟨fun both => absurd both.1 isBlock, fun le => absurd le going⟩
  | _ => simp [Script.reached, Script.completesWith]

theorem keeping (he : e.Going script kept) {m : Message} (going : ¬script.reached (kept ++ [m])) :
    (e.keeping m).Going script (kept ++ [m]) where
  toKept := kept_keeping he.toKept m
  script_eq := he.script_eq
  phase_eq := he.phase_eq
  blocks_eq := by
    rw [Scripted.keeping, he.blocks_eq, Message.blocks_append, Message.blocks_singleton]
    split
    · exact (UInt32.ofNat_add _ 1).symm
    · rfl
  going := going

end Going

/-- The block that the script waits for is kept, given back, and the last. -/
theorem serve_last (hp : p.Lends capacity size (l :: loans)) (calm : e.script ≠ .crash)
    (last : l.message.kind = .fileBlock ∧ e.script.completesWith (e.blocks + 1) = true)
    (unsubscribe : Bool) :
    ∃ q notes, q.Lends capacity size loans ∧
      engine.serve unsubscribe p e l.event =
        ⟨.finished, q,
          { e.keeping l.message with
            phase := .stopped
            requests := e.requests ++ [.activate] ++ [.shutdown unsubscribe] }, [], notes⟩ := by
  obtain ⟨q, released, hq⟩ := hp.release_first
  have accepted := accept_loan hp (e := e)
  have noCrash : engine.crash? p l.event e = none := crash?_loan hp calm
  rw [if_pos last] at accepted
  refine ⟨q, (engine.serve unsubscribe p e l.event).notes, hq, ?_⟩
  rw [Engine.serve, noCrash]
  simp only [engine, accepted, Reaction.ofCallbacks, Reaction.ofCallback, Reaction.givingBack,
    released, Reaction.activating, Reaction.shuttingDown, ask]
  rfl

/-- Any other loan is kept and given back, and the engine goes on. -/
theorem serve_next (hp : p.Lends capacity size (l :: loans)) (calm : e.script ≠ .crash)
    (active : e.phase = .active)
    (more : ¬(l.message.kind = .fileBlock ∧ e.script.completesWith (e.blocks + 1) = true))
    (unsubscribe : Bool) :
    ∃ q notes, q.Lends capacity size loans ∧
      engine.serve unsubscribe p e l.event = ⟨.waiting, q, e.keeping l.message, [], notes⟩ := by
  obtain ⟨q, released, hq⟩ := hp.release_first
  have accepted := accept_loan hp (e := e)
  have noCrash : engine.crash? p l.event e = none := crash?_loan hp calm
  have stays : ((e.keeping l.message).phase == .shuttingDown ||
      (e.keeping l.message).phase == .stopped) = false := by
    rw [keeping, active]
    rfl
  rw [if_neg more] at accepted
  refine ⟨q, (engine.serve unsubscribe p e l.event).notes, hq, ?_⟩
  rw [Engine.serve, noCrash]
  simp only [engine, accepted, Reaction.ofCallbacks, Reaction.ofCallback, Reaction.givingBack,
    released, stays]
  rfl

/-- The engine serves its loans in order, up to the block that the script waits
for. -/
theorem serveAll_loans (hp : p.Lends capacity size loans) (he : e.Going script kept)
    (calm : script ≠ .crash) (unsubscribe : Bool) :
    ∃ s, engine.serveAll unsubscribe p e (loans.map Loan.event) = s ∧
      ((s.task = .waiting ∧ s.pool.Lends capacity size [] ∧
          s.engine.Going script (kept ++ loans.map Loan.message)) ∨
        (s.task = .finished ∧ s.engine.Kept (script.cut (kept ++ loans.map Loan.message)) ∧
          script.reached (kept ++ loans.map Loan.message))) := by
  refine ⟨_, rfl, ?_⟩
  -- Each loan is the first of those left, and giving it back leaves the others lent.
  induction loans generalizing p e kept with
  | nil =>
      rw [List.map_nil, List.map_nil, List.append_nil]
      exact Or.inl ⟨rfl, hp, he⟩
  | cons l loans ih =>
      have calm' : e.script ≠ .crash := by rwa [he.script_eq]
      rw [List.map_cons, List.map_cons, Engine.serveAll, ← List.singleton_append,
        ← List.append_assoc]
      by_cases last : l.message.kind = .fileBlock ∧ e.script.completesWith (e.blocks + 1) = true
      · obtain ⟨q, notes, -, served⟩ := serve_last hp calm' last unsubscribe
        have reached := he.completes_iff.mp last
        have kept' := kept_keeping he.toKept l.message
        rw [served]
        refine Or.inr ⟨rfl, ?_, Script.reached_append reached _⟩
        rw [Script.cut_append_of_reached reached, Script.cut_concat_of_not_reached he.going]
        exact ⟨kept'.kinds_eq, kept'.payloads_eq⟩
      · obtain ⟨q, notes, hq, served⟩ := serve_next hp calm' he.phase_eq last unsubscribe
        rw [served]
        exact ih hq (he.keeping fun reached => last (he.completes_iff.mpr reached))

/-- The start makes the engine active. -/
theorem serveAll_start (p : Pool) (calm : e.script ≠ .crash) (unsubscribe : Bool) :
    engine.serveAll unsubscribe p e [.start] =
      ⟨.waiting, p, { e with kinds := e.kinds ++ [.start], phase := .active }, [], []⟩ := by
  have noCrash : engine.crash? p .start e = none := crash?_eq_none calm nofun
  simp only [Engine.serveAll, Engine.serve, noCrash]
  rfl

end Scripted

namespace Engine.Task

variable {task : Task Scripted} {script : Script} {capacity size depth : Nat} {loans : List Loan}
  {kept : List Message}

/-- The task waits with these loans in its queue, and its engine has kept these
messages. -/
structure Serving (task : Task Scripted) (script : Script) (capacity size depth : Nat)
    (loans : List Loan) (kept : List Message) : Prop where
  state_eq : task.state = .waiting
  queue_eq : task.queue = Loan.queue depth loans
  lends : task.pool.Lends capacity size loans
  engine : task.engine.Going script kept

/-- The task is over, and its engine has kept what there is up to the cut in the
messages that were given to it. -/
structure Done (task : Task Scripted) (script : Script) (given : List Message) : Prop where
  dead : task.state.isAlive = false
  kept : task.engine.Kept (script.cut given)
  reached : script.reached given

/-- Nothing that is given to a task that is over is kept. -/
theorem Done.append {given : List Message} (done : task.Done script given) (later : List Message) :
    task.Done script (given ++ later) where
  dead := done.dead
  kept := by
    rw [Script.cut_append_of_reached done.reached]
    exact done.kept
  reached := Script.reached_append done.reached later

theorem advance_of_over {ε : Type} {task : Task ε} (E : Engine ε) (unsubscribe : Bool)
    (dead : task.state.isAlive = false) : task.advance E unsubscribe = (task, []) := by
  rw [advance, dead]
  rfl

/-- The task serves what is in its queue, and waits again or is over. -/
theorem Serving.advance (serving : task.Serving script capacity size depth loans kept)
    (calm : script ≠ .crash) (unsubscribe : Bool) :
    (task.advance Scripted.engine unsubscribe).1.Serving script capacity size depth []
        (kept ++ loans.map Loan.message) ∨
      (task.advance Scripted.engine unsubscribe).1.Done script
        (kept ++ loans.map Loan.message) := by
  obtain ⟨state, p, queue, e⟩ := task
  obtain ⟨rfl, rfl, lends, engine⟩ := serving
  obtain ⟨s, served, ⟨waiting, lends, going⟩ | ⟨finished, kept', reached⟩⟩ :=
    Scripted.serveAll_loans lends engine calm unsubscribe
  · refine Or.inl ⟨?_, ?_, ?_, ?_⟩ <;>
      simp [Engine.Task.advance, TaskState.isAlive, Loan.queue, served, waiting, Mailbox.drained,
        lends, going]
  · refine Or.inr ⟨?_, ?_, reached⟩ <;>
      simp [Engine.Task.advance, TaskState.isAlive, Loan.queue, served, finished, kept']

/-- A task that runs for the first time serves the start. -/
theorem advance_start {p : Pool} {e : Scripted} (hp : p.Lends capacity size [])
    (fresh : e.kinds = [] ∧ e.payloads = [] ∧ e.blocks = 0) (calm : e.script ≠ .crash)
    (waits : ¬e.script.reached []) (unsubscribe : Bool) :
    (advance Scripted.engine unsubscribe
      ⟨.created, p, ⟨depth, [.start], false, false⟩, e⟩).1.Serving e.script capacity
        size depth [] [] := by
  obtain ⟨kinds, payloads, blocks⟩ := fresh
  have served := Scripted.serveAll_start p calm unsubscribe
  rw [kinds] at served
  refine ⟨?_, ?_, ?_, ?_⟩ <;>
      simp [Engine.Task.advance, TaskState.isAlive, served, Mailbox.drained, hp, Loan.queue]
  exact ⟨⟨rfl, payloads⟩, rfl, rfl, blocks, waits⟩

end Engine.Task

end UpdateBridge
