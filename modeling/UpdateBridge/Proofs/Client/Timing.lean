import UpdateBridge.Proofs.Client.History

/-!
# How long a call can take

A caller that waits gives up when its patience ends, and the link is done with
a call after the longest pause at the latest. Whoever gets the client had not
given up before, so a call is over within its caller's patience and one longest
pause (`Steady.due_of_open`), whatever the others do in the meantime.
-/

namespace UpdateBridge.SharedClient

variable {c : SharedClient} {patience now moment : Nat} {plan : List Conduct}
  {tickets waiting : List Ticket} {t : Ticket} {h : Holding}

/-- The call that has the client got it before its caller would have given up. -/
def Timely (c : SharedClient) (patience : Nat) : Prop :=
  ∀ h ∈ c.holder, h.till ≤ h.ticket.issued + patience + Pause.longest

theorem Timely.of_free (free : c.holder = none) : c.Timely patience := by
  intro h member
  rw [free] at member
  cases member

theorem Timely.of_holder_eq {d : SharedClient} (timely : c.Timely patience)
    (same : d.holder = c.holder) : d.Timely patience := by
  rwa [Timely, same]

theorem timely_serve (free : c.holder = none)
    (patient : ∀ t ∈ waiting, c.now ≤ t.issued + patience) : (c.serve waiting).Timely patience := by
  induction waiting generalizing c with
  | nil => exact .of_free free
  | cons t others ih =>
      obtain ⟨first, rest⟩ := List.forall_mem_cons.mp patient
      rw [serve_cons free]
      split
      · exact ih (c := (c.handing (c.holding t)).completing (c.holding t)) rfl rest
      · intro h member
        cases member
        have short := Pause.length_le_longest (c.plan.headD .prompt).delay
        show c.now + Pause.length (c.plan.headD .prompt).delay ≤ t.issued + patience + Pause.longest
        omega

theorem Timely.passOn (timely : c.Timely patience)
    (patient : ∀ t ∈ c.waiting, c.now ≤ t.issued + patience) : c.passOn.Timely patience := by
  cases holding : c.holder with
  | none => rwa [passOn_of_none holding]
  | some h =>
      rw [passOn_of_some holding]
      split
      · exact timely_serve (c := c.completing h) rfl patient
      · exact timely

theorem Timely.dropImpatient (timely : c.Timely patience) (among : Ticket → Bool) :
    (c.dropImpatient among).Timely patience :=
  timely.of_holder_eq (holder_dropImpatient c among)

theorem Timely.settle (timely : c.Timely patience)
    (patient : ∀ t ∈ c.waiting, c.now ≤ t.issued + patience) : c.settle.Timely patience := by
  refine Timely.dropImpatient ((timely.dropImpatient _).passOn fun t member => ?_) _
  rw [waiting_dropImpatient] at member
  rw [now_dropImpatient]
  exact patient t (List.mem_filter.mp member).1

namespace Steady

/-- Nobody's patience ends before the next due moment. -/
theorem patient_until (hc : c.Steady patience plan now tickets)
    (early : ∀ t, c.due? = some t → moment ≤ t) (t : Ticket) (member : t ∈ c.waiting) :
    moment ≤ t.issued + patience := by
  cases holding : c.holder with
  | none =>
      rw [hc.idle holding] at member
      cases member
  | some h =>
      have due : c.due? = some (c.waiting.foldl (fun t w => min t (c.deadline w)) h.till) := by
        rw [due?, holding]
      have patient := ((le_foldl_min _ _ _ _).mp (early _ due)).2 t member
      rwa [deadline, hc.accounts.patience_eq] at patient

theorem timely_jump (hc : c.Steady patience plan now tickets) (timely : c.Timely patience)
    (early : ∀ t, c.due? = some t → moment ≤ t) : (c.jump moment).Timely patience :=
  Timely.settle (c := { c with now := moment }) timely (hc.patient_until early)

theorem timely_issue (hc : c.Steady patience plan now tickets) (timely : c.Timely patience)
    (call : Call) : (c.issue call).2.Timely patience := by
  cases holding : c.holder with
  | none =>
      rw [issue_of_none holding, hc.idle holding]
      refine timely_serve (c := { c with waiting := [], issued := c.issued + 1 }) holding ?_
      intro t member
      obtain rfl := List.mem_singleton.mp member
      exact Nat.le_add_right _ _
  | some h =>
      by_cases impatient : c.patience = 0
      · rw [issue_of_impatient holding impatient]
        exact timely
      · rw [issue_of_patient holding impatient]
        exact timely

theorem timely_invariant (patience : Nat) (plan : List Conduct) :
    Invariant patience plan fun c => c.Timely patience where
  issue hc timely := hc.timely_issue timely
  setOnline timely _ := timely
  jump hc timely due := by
    refine hc.timely_jump timely fun t same => ?_
    rw [due] at same
    exact Nat.le_of_eq (Option.some.inj same)
  wait _ timely _ := timely

theorem timely_run (hc : c.Steady patience plan now tickets) (timely : c.Timely patience)
    (actions : List Action) : (c.run actions).Timely patience :=
  (timely_invariant patience plan).run hc timely actions

/-- A call that was issued is over, has the client or waits. -/
theorem mem_line_of_open (hc : c.Steady patience plan now tickets) (member : t ∈ tickets)
    (under : c.ending? t.number = none) : t ∈ c.held ++ c.waiting := by
  obtain ended | present := List.mem_append.mp (hc.accounts.all.mem_iff.mpr member)
  · obtain ⟨e, listed, rfl⟩ := List.mem_map.mp ended
    rw [ending?, List.find?_eq_none] at under
    exact absurd (beq_self_eq_true _) (under e listed)
  · exact present

/-- As long as a call is under way something is due within its caller's patience
and one longest pause. -/
theorem due_of_open (hc : c.Steady patience plan now tickets) (timely : c.Timely patience)
    (member : t ∈ tickets) (under : c.ending? t.number = none) :
    ∃ due, c.due? = some due ∧ due ≤ t.issued + patience + Pause.longest := by
  have present := hc.mem_line_of_open member under
  cases holding : c.holder with
  | none =>
      rw [held_of_none holding, hc.idle holding] at present
      cases present
  | some h =>
      have due : c.due? = some (c.waiting.foldl (fun t w => min t (c.deadline w)) h.till) := by
        rw [due?, holding]
      refine ⟨_, due, ?_⟩
      obtain ⟨busy, patient⟩ := (le_foldl_min (fun w => c.deadline w) c.waiting h.till _).mp
        (Nat.le_refl _)
      rw [held_of_some holding, List.singleton_append] at present
      obtain rfl | member := List.mem_cons.mp present
      · exact Nat.le_trans busy (timely h holding)
      · have before := patient t member
        rw [deadline, hc.accounts.patience_eq] at before
        exact Nat.le_trans before (Nat.le_add_right _ _)

end Steady

/-! ## How many calls are under way -/

theorem pending_issue (c : SharedClient) (call : Call) :
    (c.issue call).2.pending ≤ c.pending + 1 := by
  cases holding : c.holder with
  | none =>
      rw [issue_of_none holding]
      refine Nat.le_trans (pending_serve (c := { c with issued := c.issued + 1 }) holding _) ?_
      rw [List.length_append, pending]
      exact Nat.add_le_add_right (Nat.le_add_right _ _) 1
  | some h =>
      by_cases impatient : c.patience = 0
      · rw [issue_of_impatient holding impatient]
        exact Nat.le_succ c.pending
      · rw [issue_of_patient holding impatient, pending, pending, holding, List.length_append,
          Nat.add_right_comm]
        exact Nat.le_refl _

end UpdateBridge.SharedClient
