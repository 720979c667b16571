import UpdateBridge.Proofs.Client.Steady

/-!
# Histories only grow

What a client has written down about its calls stays written down: whatever
happens, the endings and the calls handed to the link are those from before,
followed by new ones (`Extends`). So what is known of a call that is over, or
that the link has had, holds from then on. What a client does at one moment adds
only calls that ended at this moment (`AtOnce`).
-/

namespace UpdateBridge.SharedClient

variable {c d e : SharedClient} {h : Holding}

/-- The histories of the second client begin with those of the first. -/
structure Extends (c d : SharedClient) : Prop where
  endings : c.endings <+: d.endings
  carried : c.carried <+: d.carried

theorem mem_of_ending? {number : Nat} {e : Ending} (ending : c.ending? number = some e) :
    e ∈ c.endings ∧ e.ticket.number = number := by
  refine ⟨List.mem_of_find?_eq_some ending, ?_⟩
  exact beq_iff_eq.mp (List.find?_some (p := fun e : Ending => e.ticket.number == number) ending)

/-- Whatever else is different, histories that are the same have not grown. -/
theorem Extends.of_eq (endings : d.endings = c.endings) (carried : d.carried = c.carried) :
    Extends c d :=
  ⟨endings ▸ List.prefix_refl _, carried ▸ List.prefix_refl _⟩

theorem Extends.trans (first : Extends c d) (second : Extends d e) : Extends c e :=
  ⟨first.endings.trans second.endings, first.carried.trans second.carried⟩

/-- A call that was over is over in the same way. -/
theorem Extends.ending? {number : Nat} {e : Ending} (later : Extends c d)
    (ending : c.ending? number = some e) : d.ending? number = some e := by
  obtain ⟨others, endings⟩ := later.endings
  rw [SharedClient.ending?] at ending
  rw [SharedClient.ending?, ← endings, List.find?_append, ending]
  rfl

/-- The second client comes from the first while no time passes: the calls that are
over only then ended at this moment. -/
structure AtOnce (c d : SharedClient) : Prop where
  now_eq : d.now = c.now
  endings : ∃ added, d.endings = c.endings ++ added ∧ ∀ e ∈ added, e.ended = c.now
  carried : c.carried <+: d.carried

theorem AtOnce.extends (soon : AtOnce c d) : Extends c d := by
  obtain ⟨added, endings, -⟩ := soon.endings
  exact ⟨⟨added, endings.symm⟩, soon.carried⟩

theorem AtOnce.of_eq (now : d.now = c.now) (endings : d.endings = c.endings)
    (carried : d.carried = c.carried) : AtOnce c d where
  now_eq := now
  endings := ⟨[], by rw [endings, List.append_nil], fun _ member => absurd member List.not_mem_nil⟩
  carried := carried ▸ List.prefix_refl _

theorem AtOnce.trans (first : AtOnce c d) (second : AtOnce d e) : AtOnce c e := by
  obtain ⟨added, endings, ended⟩ := first.endings
  obtain ⟨more, endings', ended'⟩ := second.endings
  refine ⟨second.now_eq.trans first.now_eq, ⟨added ++ more, ?_, fun e member => ?_⟩,
    first.carried.trans second.carried⟩
  · rw [endings', endings, List.append_assoc]
  · obtain member | member := List.mem_append.mp member
    · exact ended e member
    · exact (ended' e member).trans first.now_eq

/-- A call that is over was over before, or ended now. -/
theorem AtOnce.ended (soon : AtOnce c d) {e : Ending} (member : e ∈ d.endings) :
    e ∈ c.endings ∨ e.ended = d.now := by
  obtain ⟨added, endings, ended⟩ := soon.endings
  rw [endings] at member
  exact (List.mem_append.mp member).imp id fun new => (ended e new).trans soon.now_eq.symm

theorem atOnce_handing (c : SharedClient) (h : Holding) : AtOnce c (c.handing h) :=
  ⟨rfl, (AtOnce.of_eq rfl rfl rfl).endings, List.prefix_append _ _⟩

theorem atOnce_completing (c : SharedClient) (h : Holding) : AtOnce c (c.completing h) := by
  refine ⟨rfl, ⟨[(c.passing h).ending], endings_completing c h, fun e member => ?_⟩,
    List.prefix_refl _⟩
  obtain rfl := List.mem_singleton.mp member
  rfl

theorem atOnce_dropImpatient (c : SharedClient) (among : Ticket → Bool) :
    AtOnce c (c.dropImpatient among) := by
  rw [dropImpatient_eq, foldl_giveUp]
  refine ⟨rfl, ⟨_, rfl, fun e member => ?_⟩, List.prefix_refl _⟩
  obtain ⟨t, -, rfl⟩ := List.mem_map.mp member
  rfl

theorem atOnce_serve (free : c.holder = none) (waiting : List Ticket) :
    AtOnce c (c.serve waiting) := by
  induction waiting generalizing c with
  | nil => exact .of_eq rfl rfl rfl
  | cons t others ih =>
      have handed := atOnce_handing c (c.holding t)
      rw [serve_cons free]
      split
      · exact (handed.trans (atOnce_completing _ _)).trans (ih rfl)
      · exact handed.trans (.of_eq rfl rfl rfl)

theorem atOnce_passOn (c : SharedClient) : AtOnce c c.passOn := by
  cases holding : c.holder with
  | none =>
      rw [passOn_of_none holding]
      exact .of_eq rfl rfl rfl
  | some h =>
      rw [passOn_of_some holding]
      split
      · exact (atOnce_completing c h).trans (atOnce_serve rfl _)
      · exact .of_eq rfl rfl rfl

theorem atOnce_settle (c : SharedClient) : AtOnce c c.settle :=
  ((atOnce_dropImpatient c _).trans (atOnce_passOn _)).trans (atOnce_dropImpatient _ _)

theorem atOnce_issue (c : SharedClient) (call : Call) : AtOnce c (c.issue call).2 := by
  cases holding : c.holder with
  | none =>
      rw [issue_of_none holding]
      have same : AtOnce c { c with issued := c.issued + 1 } := .of_eq rfl rfl rfl
      exact same.trans (atOnce_serve (c := { c with issued := c.issued + 1 }) holding _)
  | some h =>
      by_cases impatient : c.patience = 0
      · rw [issue_of_impatient holding impatient]
        refine ⟨rfl, ⟨_, rfl, fun e member => ?_⟩, List.prefix_refl _⟩
        obtain rfl := List.mem_singleton.mp member
        rfl
      · rw [issue_of_patient holding impatient]
        exact .of_eq rfl rfl rfl

theorem extends_serve (free : c.holder = none) (waiting : List Ticket) :
    Extends c (c.serve waiting) :=
  (atOnce_serve free waiting).extends

theorem extends_issue (c : SharedClient) (call : Call) : Extends c (c.issue call).2 :=
  (atOnce_issue c call).extends

theorem extends_jump (c : SharedClient) (moment : Nat) : Extends c (c.jump moment) := by
  have same : Extends c { c with now := moment } := Extends.of_eq rfl rfl
  exact same.trans (atOnce_settle _).extends

theorem extends_advanceWith (c : SharedClient) (moment fuel : Nat) :
    Extends c (c.advanceWith moment fuel) := by
  induction fuel generalizing c with
  | zero => exact Extends.of_eq rfl rfl
  | succ fuel ih =>
      rw [advanceWith]
      split
      · split
        · exact (extends_jump c _).trans (ih _)
        · exact Extends.of_eq rfl rfl
      · exact Extends.of_eq rfl rfl

theorem extends_finishWith (c : SharedClient) (fuel : Nat) : Extends c (c.finishWith fuel) := by
  induction fuel generalizing c with
  | zero => exact Extends.of_eq rfl rfl
  | succ fuel ih =>
      rw [finishWith]
      split
      · exact (extends_jump c _).trans (ih _)
      · exact Extends.of_eq rfl rfl

theorem extends_act (c : SharedClient) (action : Action) : Extends c (c.act action) := by
  cases action with
  | issue call => exact extends_issue c call
  | setOnline online => exact Extends.of_eq rfl rfl
  | wait milliseconds => exact extends_advanceWith c _ _

theorem extends_run (c : SharedClient) (actions : List Action) : Extends c (c.run actions) := by
  induction actions generalizing c with
  | nil => exact Extends.of_eq rfl rfl
  | cons action actions ih => exact (extends_act c action).trans (ih _)

end UpdateBridge.SharedClient
