import UpdateBridge.Proofs.Engine.Record
import UpdateBridge.Proofs.Engine.Scripted
import UpdateBridge.Proofs.Exchange.Ownership

/-!
# Events with their buffers behind them

The bridge submits the start, the stop, and what it has dispatched; an event that
was dispatched lends a buffer that holds its packet. If nobody but the engine gives
such a buffer back, the packet is still there when the engine takes the event: the
pool `Backs` the events that wait.

Dispatching a message goes on with that, also where others take buffers in between.
Giving back the buffer of the first event leaves those of the others, since no two
events that wait lend the same one.
-/

namespace UpdateBridge

variable {p q : Pool} {event : Event} {events : List Event} {h : Handle} {limit : Nat}

/-- An event as the bridge submits it, with its packet in the pool. -/
inductive Event.Backed (p : Pool) : Event → Prop
  | start : Backed p .start
  | stop : Backed p .stop
  | packet {kind : EventKind} {h : Handle} {payload : List UInt8}
      (sort : kind = .jobDocument ∨ kind = .fileBlock) (live : p.contents h = some payload) :
      Backed p (.lending kind h payload.length)

theorem Event.Backed.of_kept (backed : event.Backed p)
    (kept : ∀ h payload, event.buffer = some h → p.contents h = some payload →
      q.contents h = some payload) : event.Backed q := by
  cases backed with
  | start => exact .start
  | stop => exact .stop
  | packet sort live => exact .packet sort (kept _ _ rfl live)

theorem Event.Backed.live (backed : event.Backed p) (lent : event.buffer = some h) :
    p.contents h ≠ none := by
  cases backed with
  | start => cases lent
  | stop => cases lent
  | packet sort live =>
      obtain rfl := Option.some.inj lent
      exact live ▸ Option.some_ne_none _

theorem Exchange.mem_buffers :
    h ∈ buffers events ↔ ∃ event ∈ events, event.buffer = some h :=
  List.mem_filterMap

/-- The packets of all these events are in the pool, each in a buffer of its own that
holds at most `limit` octets. -/
structure Pool.Backs (p : Pool) (limit : Nat) (events : List Event) : Prop where
  consistent : p.Consistent
  size_le : p.size ≤ limit
  distinct : (Exchange.buffers events).Nodup
  backed : ∀ event ∈ events, event.Backed p

namespace Pool.Backs

theorem nil (consistent : p.Consistent) (size_le : p.size ≤ limit) : p.Backs limit [] where
  consistent := consistent
  size_le := size_le
  distinct := List.nodup_nil
  backed _ member := absurd member List.not_mem_nil

/-- A pool that keeps what is live keeps backing the events. -/
theorem of_kept (backs : p.Backs limit events) (consistent : q.Consistent)
    (size_eq : q.size = p.size)
    (kept : ∀ h payload, p.contents h = some payload → q.contents h = some payload) :
    q.Backs limit events where
  consistent := consistent
  size_le := size_eq ▸ backs.size_le
  distinct := backs.distinct
  backed event member := (backs.backed event member).of_kept fun h payload _ => kept h payload

theorem acquire (backs : p.Backs limit events) : p.acquire.2.Backs limit events := by
  apply backs.of_kept (backs.consistent.run [.acquire]) (backs.consistent.size_run [.acquire])
  intro h payload live
  have untouched : ∀ operation ∈ [Operation.acquire],
      operation ≠ .release h ∧ ∀ octets, operation ≠ .write h octets := by simp
  exact contents_run backs.consistent live untouched

/-- One more event is backed if its packet is there and no other event lends it. -/
theorem concat (backs : p.Backs limit events) (backed : event.Backed p)
    (unlent : ∀ h ∈ Exchange.buffers [event], h ∉ Exchange.buffers events) :
    p.Backs limit (events ++ [event]) where
  consistent := backs.consistent
  size_le := backs.size_le
  distinct := by
    have single : (Exchange.buffers [event]).Nodup := by
      cases lent : event.buffer <;> simp [Exchange.buffers, lent]
    rw [Exchange.buffers_append]
    exact backs.distinct.append single fun h old new => unlent h new old
  backed other member := by
    obtain old | new := List.mem_append.mp member
    · exact backs.backed other old
    · exact List.mem_singleton.mp new ▸ backed

/-- A message that is dispatched puts one more event in the queue, with its packet
behind it. -/
theorem dispatch {queue : Mailbox Event} (backs : p.Backs limit queue.items) (m : Message) :
    let d := Intake.dispatch Sink.queue Route.updates m.topic m.payload p queue
    d.pool.Backs limit d.sink.items := by
  intro d
  have consistent : d.pool.Consistent := Intake.consistent_dispatch backs.consistent ..
  have size_eq : d.pool.size = p.size := Intake.size_dispatch backs.consistent ..
  cases Intake.dispatch_adds backs.consistent queue m with
  | @loan h outcome routed opened sink unused contents =>
      have written : d.pool.contents h = some m.payload := by
        simp only [d, contents, Function.update_self]
      have kept : d.pool.Backs limit queue.items := by
        apply backs.of_kept consistent size_eq
        intro g payload live
        have other : g ≠ h := by
          rintro rfl
          cases unused.symm.trans live
        simpa only [d, contents, Function.update_of_ne other] using live
      have sort : m.kind = .jobDocument ∨ m.kind = .fileBlock := by
        simpa only [routed, or_false] using m.kind_cases
      have unlent : h ∉ Exchange.buffers queue.items := by
        intro lent
        obtain ⟨event, member, lends⟩ := Exchange.mem_buffers.mp lent
        exact (backs.backed event member).live lends unused
      simp only [d, sink]
      apply kept.concat (.packet sort written)
      intro g member
      obtain rfl := List.mem_singleton.mp member
      exact unlent
  | nothing outcome sink contents =>
      simp only [d, sink]
      exact backs.of_kept consistent size_eq fun h payload live => contents ▸ live

/-- Once the first event was taken and its buffer given back, the others are still
backed. -/
theorem left (backs : p.Backs limit (event :: events)) :
    (Glance.left ⟨event, p⟩).Backs limit events := by
  have others : ∀ other ∈ events, other.Backed p := fun other member =>
    backs.backed other (List.mem_cons_of_mem event member)
  cases lent : event.buffer with
  | none =>
      have distinct := backs.distinct
      simp only [Exchange.buffers, List.filterMap_cons_none lent] at distinct
      simp only [Glance.left, lent]
      exact ⟨backs.consistent, backs.size_le, distinct, others⟩
  | some h =>
      have distinct := backs.distinct
      simp only [Exchange.buffers, List.filterMap_cons_some lent, List.nodup_cons] at distinct
      simp only [Glance.left, lent]
      refine ⟨backs.consistent.run [.release h], ?_, distinct.2, ?_⟩
      · exact Nat.le_trans (Nat.le_of_eq (backs.consistent.size_run [.release h])) backs.size_le
      · intro other member
        apply (others other member).of_kept
        intro g payload lends live
        have apart : g ≠ h := by
          rintro rfl
          exact distinct.1 (Exchange.mem_buffers.mpr ⟨other, member, lends⟩)
        simpa only [backs.consistent.contents_release, Function.update_of_ne apart] using live

end Pool.Backs

end UpdateBridge
