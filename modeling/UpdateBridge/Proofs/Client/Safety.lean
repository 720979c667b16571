import UpdateBridge.Proofs.Client.Steady

/-!
# One call at a time

When every call is over the account of all calls is closed: the line is empty,
so each call that was issued has ended exactly once, and the passages are the
calls that ended otherwise than by an end of patience. What is known of them
are the laws of the shared client: the link is never given two calls at a time,
it is given them in the order of their issue and each with what its caller
asked for, never twice, and a caller is told what the link said about its own
call, or that its patience is over and then the link was not asked at all.

The times at which calls are issued, the patience, the pauses and failures of
the link and the times at which the broker is switched are arbitrary.
-/

namespace UpdateBridge.SharedClient

/-- Where keys are not repeated, each finds its own item only. -/
theorem filter_key_eq {α : Type} {key : α → Nat} {items : List α} {a : α}
    (distinct : (items.map key).Nodup) (member : a ∈ items) :
    items.filter (fun b => key b = key a) = [a] := by
  induction items with
  | nil => cases member
  | cons b items ih =>
      rw [List.map_cons, List.nodup_cons] at distinct
      obtain ⟨new, distinct⟩ := distinct
      obtain rfl | member := List.mem_cons.mp member
      · rw [List.filter_cons_of_pos (by simp), List.filter_eq_nil_iff.mpr]
        intro other among same
        rw [← of_decide_eq_true same] at new
        exact new (List.mem_map_of_mem among)
      · rw [List.filter_cons_of_neg, ih distinct member]
        intro same
        rw [of_decide_eq_true same] at new
        exact new (List.mem_map_of_mem member)

namespace Accounts

variable {c : SharedClient} {patience now : Nat} {plan : List Conduct}
  {tickets waiting : List Ticket} {t : Ticket}

theorem number_of_getElem? (hc : c.Accounts patience plan now tickets waiting) {n : Nat}
    (found : tickets[n]? = some t) : t.number = n := by
  have number : (tickets.map Ticket.number)[n]? = some t.number := by
    rw [List.getElem?_map, found]
    rfl
  rw [hc.numbers] at number
  obtain ⟨bound, same⟩ := List.getElem?_eq_some_iff.mp number
  rw [List.getElem_range] at same
  exact same.symm

theorem getElem?_number (hc : c.Accounts patience plan now tickets waiting) (member : t ∈ tickets) :
    tickets[t.number]? = some t := by
  obtain ⟨n, found⟩ := List.mem_iff_getElem?.mp member
  rwa [hc.number_of_getElem? found]

theorem nodup_passages (hc : c.Accounts patience plan now tickets waiting) :
    (c.passages.map fun p => p.ticket.number).Nodup := by
  have passed := (List.pairwise_append.mp hc.line).1
  rw [List.pairwise_map] at passed
  rw [List.nodup_iff_pairwise_ne, List.pairwise_map]
  exact passed.imp Nat.ne_of_lt

/-- A call of an empty line has ended, once. -/
theorem ended (hc : c.Accounts patience plan now tickets []) (free : c.holder = none)
    (member : t ∈ tickets) :
    ∃ e, c.endings.filter (fun e => e.ticket.number = t.number) = [e] ∧ e ∈ c.endings ∧
      e.ticket = t := by
  have all := hc.all
  rw [held_of_none free, List.append_nil, List.append_nil] at all
  obtain ⟨e, ended, rfl⟩ := List.mem_map.mp (all.mem_iff.mpr member)
  have distinct : (c.endings.map fun e => e.ticket.number).Nodup := by
    have numbers := (all.map Ticket.number).nodup_iff
    rw [List.map_map, hc.numbers] at numbers
    exact numbers.mpr List.nodup_range
  exact ⟨e, filter_key_eq distinct ended, ended, rfl⟩

/-- A call that ended once did so by the end of its patience, and then the link
never had it, or the link had it once and the ending is what the link said. -/
theorem outcome {e : Ending} (hc : c.Accounts patience plan now tickets waiting)
    (ended : e ∈ c.endings)
    (once : c.endings.filter (fun f => f.ticket.number = e.ticket.number) = [e]) :
    (e.result = .error (.lockTimeout patience) ∧
        c.passages.filter (fun p => p.ticket.number = e.ticket.number) = []) ∨
      ∃ p, c.passages.filter (fun p => p.ticket.number = e.ticket.number) = [p] ∧
        p.ending = e := by
  cases gone : e.gaveUp with
  | true =>
      refine Or.inl ⟨hc.gave_up e ended gone, ?_⟩
      rw [List.filter_eq_nil_iff]
      intro p member same
      -- Had the link been asked, its answer would be a second ending of the call.
      have found : p.ending ∈ c.endings.filter fun f => f.ticket.number = e.ticket.number :=
        List.mem_filter.mpr ⟨hc.ending_mem member, same⟩
      rw [once, List.mem_singleton] at found
      rw [← found, Passage.gaveUp_ending] at gone
      cases gone
  | false =>
      have told : e ∈ c.endings.filter fun e => !e.gaveUp :=
        List.mem_filter.mpr ⟨ended, by rw [gone]; rfl⟩
      rw [hc.served] at told
      obtain ⟨p, member, rfl⟩ := List.mem_map.mp told
      exact Or.inr ⟨p, filter_key_eq hc.nodup_passages member, rfl⟩

end Accounts

/-- For every patience, every conduct of the link and every course of calls,
the link has one call at a time, in the order of their issue, each with what its
caller asked for. A call ends once: the caller gave up and the link was not
asked, or the link was asked once and the caller is told what it said. -/
theorem one_call_at_a_time (patience : Nat) (plan : List Conduct) (broker : Broker)
    (actions : List Action) :
    let c := ((fresh patience plan broker).run actions).finish
    let calls := actions.flatMap Action.calls
    c.carried = c.passages.map (fun p => (p.since, p.ticket)) ∧
    (∀ p ∈ c.passages, p.since ≤ p.till) ∧
    c.passages.Pairwise (fun p q => p.till ≤ q.since ∧ p.ticket.number < q.ticket.number) ∧
    (∀ (n : Nat) (p : Passage), c.passages[n]? = some p →
      calls[p.ticket.number]? = some p.ticket.call ∧
      ∃ b, p.answer = p.ticket.call.answer (plan.getD n .prompt).failure b) ∧
    ∀ (number : Nat) (call : Call), calls[number]? = some call →
      ∃ e, c.endings.filter (fun e => e.ticket.number = number) = [e] ∧ e.ticket.call = call ∧
        ((e.result = .error (.lockTimeout patience) ∧
            c.passages.filter (fun p => p.ticket.number = number) = []) ∨
          ∃ p, c.passages.filter (fun p => p.ticket.number = number) = [p] ∧
            p.ticket = e.ticket ∧ p.till = e.ended ∧ (e.result = .ok () ↔ p.answer = .ok ()) ∧
            ∀ cause, e.result = .error (.link cause) ↔ p.answer = .error cause) := by
  intro c calls
  obtain ⟨later, tickets, issued, ran⟩ := (Steady.fresh patience plan broker).run actions
  obtain ⟨moment, finished, free⟩ := ran.finishWith (Nat.le_refl _)
  have hc := finished.accounts
  rw [finished.idle free, List.nil_append] at hc
  change c.Accounts patience plan moment tickets [] at hc
  change c.holder = none at free
  change tickets.map Ticket.call = calls at issued
  have line := hc.line
  rw [held_of_none free, List.append_nil, List.append_nil, List.pairwise_map] at line
  have all := hc.all
  rw [held_of_none free, List.append_nil, List.append_nil] at all
  refine ⟨?_, fun p member => (hc.past p member).1, hc.apart.and line, ?_, ?_⟩
  · have carried := hc.carried
    rwa [free, Option.toList_none, List.map_nil, List.append_nil] at carried
  · intro n p found
    refine ⟨?_, hc.answered n p found⟩
    have member : p.ticket ∈ tickets :=
      all.mem_iff.mp (List.mem_map_of_mem (f := Ending.ticket)
        (hc.ending_mem (List.mem_of_getElem? found)))
    rw [← issued, List.getElem?_map, hc.getElem?_number member]
    rfl
  · intro number call asked
    rw [← issued, List.getElem?_map, Option.map_eq_some_iff] at asked
    obtain ⟨t, found, rfl⟩ := asked
    obtain rfl := hc.number_of_getElem? found
    obtain ⟨e, once, ended, rfl⟩ := hc.ended free (List.mem_of_getElem? found)
    refine ⟨e, once, rfl, ?_⟩
    obtain lapsed | ⟨p, passed, rfl⟩ := hc.outcome ended once
    · exact Or.inl lapsed
    · exact Or.inr ⟨p, passed, rfl, rfl, p.result_ending_eq_ok_iff, p.result_ending_eq_link_iff⟩

end UpdateBridge.SharedClient
