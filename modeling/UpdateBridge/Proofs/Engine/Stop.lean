import UpdateBridge.Proofs.Engine.Scripted

/-!
# What a scripted engine leaves when it stops

A scripted engine counts as it keeps: each packet that it got is one that it has
read (`Counted`). It gives back the buffer of every event that it has served, also
of the last one, so when it stops the pool has lent what was behind the last
event in the queue and nothing else (`serveAll_stops`). From then on the queue is
closed, and the task is at rest (`Engine.Task.Attending.advance`).
-/

namespace UpdateBridge

/-- The slot of a loan that was given back is free. -/
theorem Pool.Lends.mem_free {p q : Pool} {capacity size : Nat} {used left : List Loan} {l : Loan}
    (hp : p.Lends capacity size (used ++ left)) (hq : q.Lends capacity size left)
    (member : l ∈ used) : l.handle.slot ∈ q.free := by
  have lent : p.contents l.handle ≠ none :=
    (hp.live_iff _).mpr (List.mem_map_of_mem (List.mem_append_left left member))
  obtain ⟨b, held⟩ := contents_ne_none_iff.mp lent
  have inside : l.handle.slot < q.buffers.length := by
    show l.handle.slot < q.capacity
    rw [hq.capacity_eq, ← hp.capacity_eq]
    exact (List.getElem?_eq_some_iff.mp (getElem?_of_held held)).1
  refine (hq.consistent.mem_free_iff _).mpr ⟨_, List.getElem?_eq_getElem inside, ?_⟩
  by_contra taken
  have other : q.held? ⟨l.handle.slot, q.buffers[l.handle.slot].generation⟩ =
      some q.buffers[l.handle.slot] :=
    held?_iff.mpr ⟨List.getElem?_eq_getElem inside, by simpa using taken, rfl⟩
  have left' := (hq.live_iff _).mp (contents_ne_none_iff.mpr ⟨_, other⟩)
  have live : p.contents ⟨l.handle.slot, q.buffers[l.handle.slot].generation⟩ ≠ none := by
    rw [hp.live_iff, List.map_append]
    exact List.mem_append_right _ left'
  have distinct := hp.distinct
  rw [List.map_append] at distinct
  have differ : (⟨l.handle.slot, q.buffers[l.handle.slot].generation⟩ : Handle) ≠ l.handle :=
    fun same => List.disjoint_of_nodup_append distinct (List.mem_map_of_mem member) (same ▸ left')
  exact live (contents_eq_none_iff.mpr (held?_eq_none_of_ne held rfl differ))

namespace Scripted

variable {e : Scripted} {p : Pool} {capacity size : Nat} {l : Loan} {loans : List Loan}

/-- The counters are those of an engine that has read each packet that it got, and
kept it. -/
def Counted (e : Scripted) : Prop :=
  e.counters = ⟨UInt32.ofNat e.payloads.length, 0, UInt32.ofNat e.payloads.length, 0⟩

theorem counted_keeping (counted : e.Counted) (m : Message) : (e.keeping m).Counted := by
  have one : UInt32.ofNat (e.payloads ++ [m.payload]).length =
      UInt32.ofNat e.payloads.length + 1 := by
    rw [List.length_append]
    exact UInt32.ofNat_add _ 1
  rw [Counted, keeping, one, counted]
  rfl

/-- The engine runs, its script makes it go on, and its counters are right. -/
structure Working (e : Scripted) : Prop where
  active : e.phase = .active
  calm : e.script ≠ .crash
  counted : e.Counted

theorem Working.keeping (working : e.Working) (m : Message) : (e.keeping m).Working :=
  ⟨working.active, working.calm, counted_keeping working.counted m⟩

theorem length_payloads_keeping (e : Scripted) (m : Message) :
    (e.keeping m).payloads.length = e.payloads.length + 1 :=
  List.length_append

/-- What serving some loans comes to: the engine has served all of them, or it has
stopped with some of them left. -/
inductive Outcome (e : Scripted) (capacity size : Nat) (loans : List Loan)
    (s : Engine.Served Scripted) : Prop where
  | going (waiting : s.task = .waiting) (lends : s.pool.Lends capacity size [])
      (working : s.engine.Working)
      (count : s.engine.payloads.length = e.payloads.length + loans.length)
  | stopped (used left : List Loan) (parts : loans = used ++ left) (finished : s.task = .finished)
      (rest : s.rest = left.map Loan.event) (lends : s.pool.Lends capacity size left)
      (phase : s.engine.phase = .stopped) (counted : s.engine.Counted)
      (count : s.engine.payloads.length = e.payloads.length + used.length)

/-- Serving gives back the buffer of each event served, and only those. -/
theorem serveAll_stops (hp : p.Lends capacity size loans) (working : e.Working)
    (unsubscribe : Bool) :
    Outcome e capacity size loans
      (engine.serveAll unsubscribe p e (loans.map Loan.event)) := by
  induction loans generalizing p e with
  | nil => exact .going rfl hp working rfl
  | cons l loans ih =>
      have one := length_payloads_keeping e l.message
      rw [List.map_cons, Engine.serveAll]
      by_cases last : l.message.kind = .fileBlock ∧ e.script.completesWith (e.blocks + 1) = true
      · obtain ⟨q, notes, hq, served⟩ := serve_last hp working.calm last unsubscribe
        rw [served]
        exact .stopped [l] loans rfl rfl rfl hq rfl (counted_keeping working.counted l.message) one
      · obtain ⟨q, notes, hq, served⟩ := serve_next hp working.calm working.active last unsubscribe
        rw [served]
        cases ih hq (working.keeping l.message) with
        | going waiting lends working count =>
            refine .going waiting lends working (count.trans ?_)
            rw [one, List.length_cons]
            omega
        | stopped used left parts finished rest lends phase counted count =>
            refine .stopped (l :: used) left (congrArg (l :: ·) parts) finished rest lends phase
              counted (count.trans ?_)
            rw [one, List.length_cons]
            omega

end Scripted

namespace Engine

variable {ε : Type} {E : Engine ε} {task : Task ε} {unsubscribe : Bool} {s : Served ε}

theorem Task.advance_of_waiting (alive : task.state.isAlive = true)
    (awaited : task.queue.ended = false)
    (served : E.serveAll unsubscribe task.pool task.engine task.queue.items = s)
    (waiting : s.task = .waiting) :
    (task.advance E unsubscribe).1 = ⟨.waiting, s.pool, task.queue.drained, s.engine⟩ := by
  simp [Task.advance, alive, awaited, served, waiting]

/-- A task that leaves its loop, in whatever way, loses what is still in its queue. -/
theorem Task.advance_of_left {state : TaskState} (alive : task.state.isAlive = true)
    (served : E.serveAll unsubscribe task.pool task.engine task.queue.items = s)
    (left : s.task = state) (gone : state ≠ .waiting) :
    (task.advance E unsubscribe).1 = ⟨state, s.pool, task.queue.close, s.engine⟩ := by
  cases state with
  | waiting => exact absurd rfl gone
  | _ => simp [Task.advance, alive, served, left]

end Engine

namespace Engine.Task

variable {task : Task Scripted} {capacity size depth : Nat} {loans : List Loan}

/-- There is no task yet, and the engine was given nothing. -/
structure Fresh (task : Task Scripted) (capacity size : Nat) : Prop where
  state_eq : task.state = .absent
  lends : task.pool.Lends capacity size []
  calm : task.engine.script ≠ .crash
  phase_eq : task.engine.phase = .init
  payloads_eq : task.engine.payloads = []
  counted : task.engine.Counted

/-- The task waits with these loans in its queue. -/
structure Attending (task : Task Scripted) (capacity size depth : Nat) (loans : List Loan) :
    Prop where
  state_eq : task.state = .waiting
  queue_eq : task.queue = Loan.queue depth loans
  lends : task.pool.Lends capacity size loans
  working : task.engine.Working

/-- The task is finished, nothing can be posted to it, and some buffers stay lent. -/
structure AtRest (task : Task Scripted) (capacity size : Nat) : Prop where
  state_eq : task.state = .finished
  closed : task.queue.closed = true
  phase_eq : task.engine.phase = .stopped
  lends : ∃ left, task.pool.Lends capacity size left

/-- The accounts of a task that has stopped: of the events that it found in its
queue it has served some, and `rest` is left. -/
structure Accounts (task : Task Scripted) (queued rest : List Event) : Prop where
  /-- The buffers in use are those of the events that are left. -/
  in_use : task.pool.handles.Perm (rest.filterMap Event.buffer)
  /-- The buffers of the events that were served are free. -/
  free : ∃ served, queued = served ++ rest ∧
    ∀ event ∈ served, ∀ h ∈ event.buffer, task.pool.contents h = none ∧ h.slot ∈ task.pool.free
  /-- Each packet that the engine got is one that it has read, and kept. -/
  counted : task.engine.Counted

/-- A task that finds the start in its queue waits with an empty queue. -/
theorem attending_start {p : Pool} {e : Scripted} (hp : p.Lends capacity size [])
    (calm : e.script ≠ .crash) (counted : e.Counted) (depth : Nat) (unsubscribe : Bool) :
    let next := (advance Scripted.engine unsubscribe
      ⟨.created, p, ⟨depth, [.start], false, false⟩, e⟩).1
    next.Attending capacity size depth [] ∧ next.engine.payloads = e.payloads := by
  intro next
  have after : next = _ :=
    advance_of_waiting rfl rfl (Scripted.serveAll_start p calm unsubscribe) rfl
  rw [after]
  exact ⟨⟨rfl, rfl, hp, rfl, calm, counted⟩, rfl⟩

/-- A task that waits serves what is in its queue and waits again, or it stops. -/
theorem Attending.advance (attending : task.Attending capacity size depth loans)
    (unsubscribe : Bool) :
    let next := (task.advance Scripted.engine unsubscribe).1
    next.engine.payloads.length ≤ task.engine.payloads.length + loans.length ∧
      (next.Attending capacity size depth [] ∨
        next.AtRest capacity size ∧
          next.Accounts task.queue.items (Scripted.engine.serveAll unsubscribe task.pool
            task.engine task.queue.items).rest) := by
  intro next
  have alive : task.state.isAlive = true := by rw [attending.state_eq]; rfl
  have awaited : task.queue.ended = false := by rw [attending.queue_eq]; rfl
  have events : task.queue.items = loans.map Loan.event := by rw [attending.queue_eq]; rfl
  have outcome := Scripted.serveAll_stops attending.lends attending.working unsubscribe
  rw [← events] at outcome
  cases outcome with
  | going waiting lends working count =>
      have after : next = _ := advance_of_waiting alive awaited rfl waiting
      rw [after]
      refine ⟨Nat.le_of_eq count, .inl ⟨rfl, ?_, lends, working⟩⟩
      rw [attending.queue_eq]
      rfl
  | stopped used left parts finished rest lends phase counted count =>
      have after : next = _ := advance_of_left alive rfl finished TaskState.noConfusion
      rw [after, rest]
      have buffers : (left.map Loan.event).filterMap Event.buffer = left.map Loan.handle := by
        rw [List.filterMap_map]
        exact congrFun (List.filterMap_eq_map (f := Loan.handle)) left
      refine ⟨?_, .inr ⟨⟨rfl, rfl, phase, left, lends⟩, ?_, ?_, counted⟩⟩
      · rw [parts, List.length_append]
        exact Nat.le_trans (Nat.le_of_eq count) (by omega)
      · rw [buffers]
        exact Pool.handles_perm_of_iff lends.distinct lends.live_iff
      · refine ⟨used.map Loan.event, by rw [events, parts, List.map_append], ?_⟩
        intro event member h lent
        obtain ⟨l, used', rfl⟩ := List.mem_map.mp member
        obtain rfl := Option.some.inj lent
        have before := attending.lends
        rw [parts] at before
        have distinct := before.distinct
        rw [List.map_append] at distinct
        refine ⟨?_, before.mem_free lends used'⟩
        rw [← not_ne_iff, lends.live_iff]
        exact List.disjoint_of_nodup_append distinct (List.mem_map_of_mem used')

end Engine.Task

end UpdateBridge
