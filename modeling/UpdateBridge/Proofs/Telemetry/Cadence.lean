import UpdateBridge.Proofs.Telemetry.Diary
import UpdateBridge.Proofs.Telemetry.Once

/-!
# The publisher keeps time

When the publisher looks for a reading is settled by the looks before and by the ends
of the calls that they led to (`Cadence.next?`): one pause after the end of its call
when it found a reading, and else when the next round is to begin or when it found
nothing, whichever is later. So the pause lies between any two attempts, and rounds
that are late follow each other at once, each as soon as the one before has found
the mailbox empty.

A `Chronicle` is a list of looks that were all taken when they should be. What
carries it along a course is where the publisher stands after its last look
(`Standing`): what it waits for is what the looks ask for, and it is not late.
-/

namespace UpdateBridge

/-- What a publisher was asked for, and when it began. -/
structure Cadence where
  began : Nat
  interval : Nat
  spacing : Nat
  deriving DecidableEq, Repr, Inhabited

def Publisher.cadence (p : Publisher) : Cadence :=
  ⟨p.began, p.interval, p.spacing⟩

namespace Cadence

variable {k : Cadence} {c d : SharedClient} {looks before : List Look} {look : Look} {n : Nat}

/-- When a round is to begin that has so many before it. -/
def round (k : Cadence) (before : Nat) : Nat :=
  k.began + k.interval + before * Pause.length k.interval

/-- When the look after these is to be taken, and whether a round begins with it. -/
def next? (k : Cadence) (c : SharedClient) (looks : List Look) : Option (Nat × Bool) :=
  match looks.getLast? with
  | none => some (k.round 0, true)
  | some look =>
    match look.finding with
    | .reading n => (c.ending? n).map fun e => (e.ended + Pause.length k.spacing, false)
    | .nothing => some (max (k.round (looks.countP Look.opens)) look.moment, true)
    | .ended => none

theorem next?_of_reading (found : look.finding = .reading n) :
    k.next? c (before ++ [look]) =
      (c.ending? n).map fun e => (e.ended + Pause.length k.spacing, false) := by
  simp only [next?, List.getLast?_concat, found]

theorem next?_of_nothing (found : look.finding = .nothing) :
    k.next? c (before ++ [look]) =
      some (max (k.round ((before ++ [look]).countP Look.opens)) look.moment, true) := by
  simp only [next?, List.getLast?_concat, found]

theorem next?_of_ended (found : look.finding = .ended) : k.next? c (before ++ [look]) = none := by
  simp only [next?, List.getLast?_concat, found]

/-- What is to be done does not change any more once it is known. -/
theorem next?_later {next : Nat × Bool} (later : SharedClient.Extends c d)
    (due : k.next? c looks = some next) : k.next? d looks = some next := by
  obtain rfl | ⟨before, look, rfl⟩ := List.eq_nil_or_concat' looks
  · exact due
  · cases found : look.finding with
    | reading n =>
        rw [next?_of_reading found, Option.map_eq_some_iff] at due
        obtain ⟨e, ending, same⟩ := due
        rw [next?_of_reading found, later.ending? ending, Option.map_some, same]
    | nothing => rwa [next?_of_nothing found] at due ⊢
    | ended =>
        rw [next?_of_ended found] at due
        cases due

/-- The looks were taken one after the other, each when it was to be taken, and the
calls that they led to were issued at once. -/
structure Chronicle (k : Cadence) (c : SharedClient) (looks : List Look) : Prop where
  kept : ∀ i (h : i < looks.length),
    k.next? c (looks.take i) = some (looks[i].moment, looks[i].opens)
  issued : ∀ look ∈ looks, ∀ n, look.attempt? = some n →
    ∃ t ∈ c.known, t.number = n ∧ t.issued = look.moment
  sorted : looks.Pairwise fun a b => a.moment ≤ b.moment
  past : ∀ look ∈ looks, look.moment ≤ c.now

namespace Chronicle

theorem nil (k : Cadence) (c : SharedClient) : Chronicle k c [] where
  kept _ less := absurd less (Nat.not_lt_zero _)
  issued _ member := absurd member List.not_mem_nil
  sorted := .nil
  past _ member := absurd member List.not_mem_nil

theorem later (h : Chronicle k c looks) (later : SharedClient.Extends c d)
    (known : ∀ t ∈ c.known, t ∈ d.known) (present : c.now ≤ d.now) : Chronicle k d looks where
  kept i less := next?_later later (h.kept i less)
  issued look member n attempt := by
    obtain ⟨t, among, same⟩ := h.issued look member n attempt
    exact ⟨t, known t among, same⟩
  sorted := h.sorted
  past look member := Nat.le_trans (h.past look member) present

/-- One more look, taken now. -/
theorem concat (h : Chronicle k c looks) (present : look.moment = c.now)
    (due : k.next? c looks = some (look.moment, look.opens))
    (issued : ∀ n, look.attempt? = some n →
      ∃ t ∈ c.known, t.number = n ∧ t.issued = look.moment) :
    Chronicle k c (looks ++ [look]) where
  kept i less := by
    obtain earlier | rfl : i < looks.length ∨ i = looks.length := by
      rw [List.length_append, List.length_singleton] at less
      omega
    · rw [List.take_append_of_le_length (Nat.le_of_lt earlier), List.getElem_append_left earlier]
      exact h.kept i earlier
    · rw [List.take_left, List.getElem_concat_length rfl]
      exact due
  issued l member n attempt := by
    obtain member | last := List.mem_append.mp member
    · exact h.issued l member n attempt
    · obtain rfl := List.mem_singleton.mp last
      exact issued n attempt
  sorted := by
    refine List.pairwise_append.mpr ⟨h.sorted, List.pairwise_singleton _ _, ?_⟩
    intro l member l' last
    obtain rfl := List.mem_singleton.mp last
    exact Nat.le_trans (h.past l member) (Nat.le_of_eq present.symm)
  past l member := by
    obtain member | last := List.mem_append.mp member
    · exact h.past l member
    · obtain rfl := List.mem_singleton.mp last
      exact Nat.le_of_eq present

/-- Nobody looks before the first round. -/
theorem first_le (h : Chronicle k c looks) (member : look ∈ looks) :
    k.began + k.interval ≤ look.moment := by
  obtain ⟨j, less, rfl⟩ := List.getElem_of_mem member
  have first := h.kept 0 (Nat.zero_lt_of_lt less)
  have begun : k.round 0 = looks[0].moment := congrArg Prod.fst (Option.some.inj first)
  have ordered : looks[0].moment ≤ looks[j].moment := by
    obtain rfl | positive := Nat.eq_zero_or_pos j
    · exact Nat.le_refl _
    · exact List.pairwise_iff_getElem.mp h.sorted 0 j _ less positive
  calc k.began + k.interval ≤ k.round 0 := Nat.le_add_right _ _
    _ ≤ looks[j].moment := begun ▸ ordered

/-- After the end of its call nobody looks before the pause is over. -/
theorem spaced (h : Chronicle k c looks) :
    looks.Pairwise fun a b => ∀ n, a.attempt? = some n →
      ∃ e, c.ending? n = some e ∧ e.ended + Pause.length k.spacing ≤ b.moment := by
  rw [List.pairwise_iff_getElem]
  intro i j less less' before n attempt
  -- The look that follows on the first of the two says when its call ended, and the
  -- second is this look or a later one.
  have next := h.kept (i + 1) (by omega)
  rw [List.take_succ_eq_append_getElem less, next?_of_reading (Look.attempt?_eq_some.mp attempt)]
    at next
  obtain ⟨e, ending, same⟩ := Option.map_eq_some_iff.mp next
  have waited : e.ended + Pause.length k.spacing = looks[i + 1].moment := congrArg Prod.fst same
  refine ⟨e, ending, Nat.le_trans (Nat.le_of_eq waited) ?_⟩
  obtain rfl | beyond : i + 1 = j ∨ i + 1 < j := by omega
  · exact Nat.le_refl _
  · exact List.pairwise_iff_getElem.mp h.sorted _ _ _ less' beyond

end Chronicle

end Cadence

namespace Station

open SharedClient

variable {s s' r start : Station} {k : Cadence} {patience : Nat} {plan : List Conduct}
  {topic : String} {supply accepted : List (List UInt8)} {others called : List Call}
  {tickets : List Ticket} {looks : List Look}

/-- Where the publisher stands after these looks. -/
inductive Standing (s : Station) (k : Cadence) (looks : List Look) : Prop where
  /-- It waits for a moment, and the next look is to be taken then, or now if that
  moment is past. -/
  | waits {t : Nat} : s.publisher.due? = some t →
      k.next? s.client looks = some (max t s.now, s.publisher.opens) → Standing s k looks
  /-- It has called for the reading that it found, and knows at once of the end. -/
  | calls {n : Nat} {before : List Look} {last : Look} : s.publisher.stage = .publishing n →
      looks = before ++ [last] → last.finding = .reading n →
      (∀ e ∈ s.client.endings, e.ticket.number = n → e.ended = s.now) → Standing s k looks
  | ended {before : List Look} {last : Look} : s.publisher.stage = .over last.moment →
      looks = before ++ [last] → last.finding = .ended → Standing s k looks

/-- The publisher has taken these looks, each when it was to be taken. -/
structure OnTime (s : Station) (k : Cadence) (looks : List Look) : Prop where
  cadence : s.publisher.cadence = k
  rounds : s.publisher.rounds = looks.countP Look.opens
  attempts : s.publisher.attempts = looks.filterMap Look.attempt?
  chronicle : k.Chronicle s.client looks
  standing : s.Standing k looks

theorem Standing.waits_of_due {t : Nat} (standing : s.Standing k looks)
    (resting : s.publisher.due? = some t) :
    k.next? s.client looks = some (max t s.now, s.publisher.opens) := by
  cases standing with
  | waits resting' due =>
      rw [resting] at resting'
      cases resting'
      exact due
  | calls publishing _ _ _ =>
      rw [Publisher.due?, publishing] at resting
      cases resting
  | ended stage _ _ =>
      rw [Publisher.due?, stage] at resting
      cases resting

theorem Standing.calls_of_publishing {n : Nat} (standing : s.Standing k looks)
    (publishing : s.publisher.stage = .publishing n) :
    (∃ before last, looks = before ++ [last] ∧ last.finding = .reading n) ∧
      ∀ e ∈ s.client.endings, e.ticket.number = n → e.ended = s.now := by
  cases standing with
  | waits resting _ =>
      rw [Publisher.due?, publishing] at resting
      cases resting
  | calls publishing' last found ended =>
      rw [publishing] at publishing'
      cases publishing'
      exact ⟨⟨_, _, last, found⟩, ended⟩
  | ended stage _ _ =>
      rw [publishing] at stage
      cases stage

/-- The next look is never overdue. -/
theorem Standing.now_le {moment : Nat} {opens : Bool} (standing : s.Standing k looks)
    (next : k.next? s.client looks = some (moment, opens)) : s.now ≤ moment := by
  cases standing with
  | waits _ due =>
      rw [due] at next
      cases next
      exact Nat.le_max_right _ _
  | calls _ last found ended =>
      rw [last, Cadence.next?_of_reading found, Option.map_eq_some_iff] at next
      obtain ⟨e, ending, same⟩ := next
      cases same
      obtain ⟨member, number⟩ := mem_of_ending? ending
      rw [ended e member number]
      exact Nat.le_add_right _ _
  | ended _ last found =>
      rw [last, Cadence.next?_of_ended found] at next
      cases next

/-- The publisher is done with the look that finds the end, and with no other. -/
theorem Standing.over_iff {moment : Nat} (standing : s.Standing k looks) :
    s.publisher.stage = .over moment ↔
      ∃ before opens, looks = before ++ [⟨moment, opens, .ended⟩] := by
  constructor
  · intro stage
    cases standing with
    | waits due _ =>
        rw [Publisher.due?, stage] at due
        cases due
    | calls publishing _ _ _ =>
        rw [stage] at publishing
        cases publishing
    | @ended before last concluded same found =>
        rw [stage] at concluded
        cases concluded
        exact ⟨before, last.opens, by rw [same, ← found]⟩
  · rintro ⟨before, opens, rfl⟩
    cases standing with
    | waits _ due =>
        rw [Cadence.next?_of_ended rfl] at due
        cases due
    | calls _ last found _ =>
        obtain rfl := List.singleton_inj.mp (List.append_inj_right' last rfl)
        cases found
    | ended stage last _ =>
        obtain rfl := List.singleton_inj.mp (List.append_inj_right' last rfl)
        exact stage

/-- What the look is that the publisher is about to take. -/
theorem Looks.look?_eq (seen : s.Looks r) :
    (∃ t, s.publisher.due? = some t ∧ t ≤ s.now) ∧
    s.look? = some ⟨r.now, s.publisher.opens, r.finding⟩ ∧ r.client = s.client ∧
    r.publisher.cadence = s.publisher.cadence ∧ r.publisher.attempts = s.publisher.attempts ∧
    r.publisher.rounds = s.publisher.rounds + if s.publisher.opens then 1 else 0 := by
  cases seen with
  | round waiting due =>
      refine ⟨⟨_, by rw [Publisher.due?, waiting], due⟩, by rw [look?, waiting]; rfl, rfl, rfl,
        rfl, ?_⟩
      rw [Publisher.opens, waiting]
      rfl
  | again pausing due =>
      refine ⟨⟨_, by rw [Publisher.due?, pausing], due⟩, by rw [look?, pausing], rfl, rfl, rfl, ?_⟩
      rw [Publisher.opens, pausing]
      rfl

/-- A look that is taken when it is to be taken. -/
theorem Lawful.check_onTime {opens : Bool}
    (hr : r.Lawful patience plan topic supply others tickets) (cadence : r.publisher.cadence = k)
    (rounds : r.publisher.rounds = looks.countP Look.opens + if opens then 1 else 0)
    (attempts : r.publisher.attempts = looks.filterMap Look.attempt?)
    (chronicle : k.Chronicle r.client looks)
    (due : k.next? r.client looks = some (r.now, opens)) :
    r.check.OnTime k (looks ++ [⟨r.now, opens, r.finding⟩]) := by
  have counted (finding : Finding) :
      r.publisher.rounds = (looks ++ [(⟨r.now, opens, finding⟩ : Look)]).countP Look.opens := by
    rw [rounds, List.countP_append, List.countP_singleton]
  have attempted (finding : Finding) :
      r.publisher.attempts ++ (Look.attempt? ⟨r.now, opens, finding⟩).toList =
        (looks ++ [(⟨r.now, opens, finding⟩ : Look)]).filterMap Look.attempt? := by
    rw [List.filterMap_append, ← attempts]
    cases finding <;> rfl
  cases next : r.readings.items with
  | cons reading left =>
      rw [check_cons next, finding_cons next]
      let call := Publisher.call r.publisher.topic reading
      have soon := atOnce_issue r.client call
      have known {t : Ticket} := hr.steady.mem_known_issue (t := t) call
      have after := chronicle.later soon.extends (fun t member => known.mpr (.inl member))
        (Nat.le_of_eq soon.now_eq.symm)
      refine ⟨cadence, counted _, attempted (.reading r.client.issued),
        after.concat soon.now_eq.symm (Cadence.next?_later soon.extends due) fun n attempt => ?_,
        .calls rfl rfl rfl ?_⟩
      · cases attempt
        exact ⟨r.client.nextTicket call, known.mpr (.inr rfl), rfl, rfl⟩
      · intro e member number
        -- The number is new, so no call that was over before has it.
        obtain old | new := soon.ended member
        · exact absurd (hr.steady.ended_lt old) (number ▸ Nat.lt_irrefl _)
        · exact new
  | nil =>
      cases ended : r.readings.ended with
      | true =>
          rw [check_of_ended next ended, finding_of_ended next ended]
          have after : k.Chronicle r.conclude.client looks :=
            chronicle.later (.of_eq rfl rfl) (fun _ => id) (Nat.le_refl _)
          refine ⟨cadence, counted _, (List.append_nil _).symm.trans (attempted .ended),
            after.concat rfl due fun n attempt => ?_, .ended rfl rfl rfl⟩
          cases attempt
      | false =>
          rw [check_of_empty next ended, finding_of_empty next ended]
          refine ⟨cadence, counted _, (List.append_nil _).symm.trans (attempted .nothing),
            chronicle.concat rfl due fun n attempt => ?_, .waits rfl ?_⟩
          · cases attempt
          · rw [Cadence.next?_of_nothing rfl, ← counted, ← cadence]
            rfl

/-- A publisher that has taken note of the end of its call pauses from this end on. -/
theorem OnTime.afterCall {n : Nat} {e : Ending} (h : s.OnTime k looks)
    (publishing : s.publisher.stage = .publishing n) (ending : s.client.ending? n = some e) :
    (s.afterCall e).OnTime k looks := by
  let till := s.now + Pause.length s.publisher.spacing
  have after : (s.afterCall e).publisher.cadence = s.publisher.cadence ∧
      (s.afterCall e).publisher.rounds = s.publisher.rounds ∧
      (s.afterCall e).publisher.attempts = s.publisher.attempts ∧
      (s.afterCall e).publisher.stage = .pausing till ∧
      AtOnce s.client (s.afterCall e).client ∧ (s.afterCall e).client.known = s.client.known := by
    rw [Station.afterCall]
    cases e.result <;> exact ⟨rfl, rfl, rfl, rfl, .of_eq rfl rfl rfl, rfl⟩
  obtain ⟨cadence, rounds, attempts, stage, soon, known⟩ := after
  have due : k.next? (s.afterCall e).client looks = some (till, false) := by
    obtain ⟨⟨before, last, same, found⟩, ended⟩ := h.standing.calls_of_publishing publishing
    obtain ⟨member, number⟩ := mem_of_ending? ending
    refine Cadence.next?_later soon.extends ?_
    rw [same, Cadence.next?_of_reading found, ending, Option.map_some, ended e member number,
      ← h.cadence]
    rfl
  have ahead : max till (s.afterCall e).now = till :=
    Nat.max_eq_left (Nat.le_trans (Nat.le_of_eq soon.now_eq) (Nat.le_add_right _ _))
  refine ⟨cadence.trans h.cadence, rounds.trans h.rounds, attempts.trans h.attempts,
    h.chronicle.later soon.extends (fun _ member => known ▸ member)
      (Nat.le_of_eq soon.now_eq.symm), .waits (by rw [Publisher.due?, stage]) ?_⟩
  rw [ahead, Publisher.opens, stage]
  exact due

/-- The publisher takes its looks when they are to be taken. -/
theorem Lawful.acts_onTime (hs : s.Lawful patience plan topic supply others tickets)
    (h : s.OnTime k looks) (acted : s.act? = some s') : s'.OnTime k (looks ++ s.look?.toList) := by
  obtain ⟨r, seen, rfl⟩ | ⟨number, e, publishing, ending, rfl⟩ := act_cases acted
  · obtain ⟨⟨t, resting, late⟩, look, client, cadence, attempts, rounds⟩ := seen.look?_eq
    have due := h.standing.waits_of_due resting
    rw [Nat.max_eq_right late] at due
    rw [look]
    refine (hs.looks seen).1.check_onTime (cadence.trans h.cadence) (h.rounds ▸ rounds)
      (attempts.trans h.attempts) (client ▸ h.chronicle) ?_
    rwa [now, client]
  · have look : s.look? = none := by rw [look?, publishing]
    rw [look, Option.toList_none, List.append_nil]
    exact h.afterCall publishing ending

/-- What happens beside the publisher does not make it late. -/
theorem OnTime.beside (h : s.OnTime k looks) (beside : s.Beside s') : s'.OnTime k looks := by
  have publisher := beside.publisher
  refine ⟨publisher ▸ h.cadence, publisher ▸ h.rounds, publisher ▸ h.attempts,
    h.chronicle.later beside.later beside.known beside.present, ?_⟩
  cases h.standing with
  | @waits t resting due =>
      refine .waits (publisher ▸ resting) ?_
      have same : max t s'.now = max t s.now := by
        obtain same | ⟨idle, -, early⟩ := beside.passed
        · rw [same]
        · have before := (act_eq_none idle).2 t resting
          have after := early t resting
          omega
      rw [same, publisher]
      exact Cadence.next?_later beside.later due
  | calls publishing last found ended =>
      -- Had the call been over when time passed, the publisher would have taken note of it.
      refine .calls (publisher ▸ publishing) last found fun e member number => ?_
      obtain old | new := beside.ended e member
      · obtain same | ⟨idle, -, -⟩ := beside.passed
        · rw [same]
          exact ended e old number
        · have under := (act_eq_none idle).1 _ publishing
          rw [ending?, List.find?_eq_none] at under
          exact absurd (beq_iff_eq.mpr number) (under e old)
      · exact new
  | ended stage last found => exact .ended (publisher ▸ stage) last found

/-- A publisher that was on time at the beginning is on time all along. -/
theorem Diary.onTime (diary : Diary start accepted called looks s)
    (begun : start.Lawful patience plan topic supply others tickets)
    (first : start.OnTime k []) : s.OnTime k looks := by
  induction diary with
  | begin => exact first
  | acts diary acted ih =>
      obtain ⟨made, hs⟩ := diary.course.lawful begun
      exact hs.acts_onTime ih acted
  | happens diary happened ih =>
      obtain ⟨made, hs⟩ := diary.course.lawful begun
      exact ih.beside (hs.beside happened)

/-- A publisher that begins has taken no looks and waits for its first round. -/
theorem onTime_create {c : SharedClient} {interval spacing : Nat} {device : String}
    {publisher : Publisher} (readings : Mailbox (List UInt8)) (positive : 0 < interval)
    (created : Publisher.create device interval spacing c.now = .ok publisher) :
    (create c readings publisher).OnTime ⟨c.now, interval, spacing⟩ [] := by
  have named := Publisher.create_eq_ok created
  rw [if_neg (Nat.ne_of_gt positive)] at named
  obtain rfl := named
  refine ⟨rfl, rfl, rfl, .nil _ _, .waits rfl ?_⟩
  have ahead : c.now ≤ c.now + interval + 0 * Pause.length interval := by omega
  exact congrArg (fun t => some (t, true)) (Nat.max_eq_left ahead).symm

/-- Every look of the publisher is taken when the looks before it say: one pause after
the end of its call if the last one found a reading, and if it found nothing when the
next round is to begin, or at once if the round is late. No look is overdue, and time
can always pass. The attempts are the looks that found a reading, and their calls are
issued at that moment. So no attempt is made before the interval is over, and the
whole pause lies between the end of an attempt and every later one. The publisher is
done exactly when it finds the mailbox empty and the readings at their end. Pauses and
the time from round to round are cut to the longest pause. The patience of callers,
the link, the calls of others and the moments at which readings come are arbitrary. -/
theorem looks_keep_time (patience : Nat) (plan : List Conduct) (broker : Broker)
    (earlier : List Action) (box : Mailbox (List UInt8)) (device : String)
    (interval spacing : Nat) (publisher : Publisher) (accepted : List (List UInt8))
    (called : List Call) (looks : List Look) (s : Station) (positive : 0 < interval)
    (created : Publisher.create device interval spacing
      ((fresh patience plan broker).run earlier).now = .ok publisher)
    (diary : Diary (create ((fresh patience plan broker).run earlier) box publisher)
      accepted called looks s) :
    let client := (fresh patience plan broker).run earlier
    let cadence : Cadence := ⟨client.now, interval, spacing⟩
    let attempts := s.publisher.attempts
    (∀ i (h : i < looks.length),
      cadence.next? s.client (looks.take i) = some (looks[i].moment, looks[i].opens)) ∧
    (∀ moment opens, cadence.next? s.client looks = some (moment, opens) → s.now ≤ moment) ∧
    attempts = looks.filterMap Look.attempt? ∧
    (∀ look ∈ looks, client.now + interval ≤ look.moment ∧ look.moment ≤ s.now ∧
      ∀ n, look.attempt? = some n → s.client.issuedAt? n = some look.moment) ∧
    (attempts.Pairwise fun n m => ∃ e t, s.client.ending? n = some e ∧
      s.client.issuedAt? m = some t ∧ e.ended + Pause.length spacing ≤ t) ∧
    (∀ moment, s.publisher.stage = .over moment ↔
      ∃ before opens, looks = before ++ [⟨moment, opens, .ended⟩]) ∧
    ∀ moment, s.now ≤ moment →
      ∃ added, Diary (create client box publisher) accepted called (looks ++ added)
        (s.advanceTo moment) ∧ (s.advanceTo moment).now = moment := by
  intro client cadence attempts
  have fresh := Steady.fresh patience plan broker
  obtain ⟨now, before, calls, ran⟩ := fresh.run earlier
  have begun := lawful_create box ran (fresh.timely_run (.of_free rfl) earlier) positive created
  obtain ⟨made, hs⟩ := diary.course.lawful begun
  have onTime : s.OnTime cadence looks := diary.onTime begun (onTime_create box positive created)
  have issued : ∀ look ∈ looks, ∀ n, look.attempt? = some n →
      s.client.issuedAt? n = some look.moment := by
    intro look member n attempt
    obtain ⟨t, among, rfl, same⟩ := onTime.chronicle.issued look member n attempt
    rw [hs.steady.issuedAt?_eq (hs.steady.mem_known.mp among), same]
  refine ⟨onTime.chronicle.kept, fun moment opens => onTime.standing.now_le, onTime.attempts,
    fun look member => ⟨onTime.chronicle.first_le member, onTime.chronicle.past look member,
      issued look member⟩, ?_, fun moment => onTime.standing.over_iff, fun moment le => ?_⟩
  · show s.publisher.attempts.Pairwise _
    rw [onTime.attempts, List.pairwise_filterMap]
    refine onTime.chronicle.spaced.imp_of_mem fun {a b} _ member spaced n first m second => ?_
    obtain ⟨e, ending, waited⟩ := spaced n first
    exact ⟨e, b.moment, ending, issued b member m second, waited⟩
  · obtain ⟨course, present⟩ := Course.begin.advanceTo hs moment le
    obtain ⟨added, later⟩ := diary.extend course
    rw [List.append_nil, List.append_nil] at later
    exact ⟨added, later, present⟩

/-- A slow call makes the publisher late for three rounds, which it begins one after the
other as soon as its second attempt and the pause are over. -/
theorem looks_keep_time_late :
    let c := fresh 20 [⟨25, none⟩] Broker.fresh
    let publisher : Publisher := ⟨"core2/", 0, 10, 5, 0, [], 0, .waiting⟩
    let start := create c (Mailbox.empty 2) publisher
    let s := (((start.offer [[1], [2]]).2.advanceTo 47).endReadings).advanceTo 60
    0 < 10 ∧ Publisher.create "core2" 10 5 (c.run []).now = .ok publisher ∧
      ∃ looks, start.Diary [[1], [2]] [] looks s ∧ looks.filterMap Look.attempt? = [0, 1] ∧
        s.client.issuedAt? 0 = some 10 ∧ (s.client.ending? 0).map Ending.ended = some 35 ∧
        s.client.issuedAt? 1 = some 40 ∧
        (∀ look ∈ looks, 10 ≤ look.moment) ∧
        ∃ before opens, looks = before ++ [⟨50, opens, .ended⟩] := by
  intro c publisher start s
  have created : Publisher.create "core2" 10 5 (c.run []).now = .ok publisher := by
    decide +kernel
  have begun := lawful_create (Mailbox.empty 2) (Steady.fresh 20 [⟨25, none⟩] Broker.fresh)
    (.of_free rfl) (by decide) created
  obtain ⟨taken, among, count, offered⟩ := Course.offer begun .begin [[1], [2]]
  obtain rfl : taken = [[1], [2]] := among.eq_of_length (count.trans (by decide +kernel))
  have waited := (offered.advanceTo begun 47 (by decide +kernel)).1
  have course := ((waited.endReadings begun).advanceTo begun 60 (by decide +kernel)).1
  have stage : s.publisher.stage = .over 50 := by decide +kernel
  obtain ⟨looks, diary⟩ := course.diary
  obtain ⟨-, -, attempts, moments, -, finished, -⟩ := looks_keep_time 20 [⟨25, none⟩]
    Broker.fresh [] (Mailbox.empty 2) "core2" 10 5 publisher [[1], [2]] [] looks s (by decide)
    created diary
  refine ⟨by decide, created, looks, diary, attempts.symm.trans (by decide +kernel),
    by decide +kernel, by decide +kernel, by decide +kernel, fun look member => ?_,
    (finished 50).mp stage⟩
  exact (moments look member).1

/-- It is not so that the spacing that was asked for always lies between two attempts:
one that is longer than the longest pause is cut. -/
theorem not_spaced_as_asked :
    ¬∀ (interval spacing : Nat) (publisher : Publisher) (accepted : List (List UInt8))
      (called : List Call) (s : Station), 0 < interval →
      Publisher.create "c" interval spacing 0 = .ok publisher →
      Course (create (fresh 20 [] Broker.fresh) (Mailbox.empty 2) publisher) accepted called s →
      s.publisher.attempts.Pairwise fun n m => ∀ e t, s.client.ending? n = some e →
        s.client.issuedAt? m = some t → e.ended + spacing ≤ t := by
  intro all
  let publisher : Publisher := ⟨"c/", 0, 100, 1000000000000, 0, [], 0, .waiting⟩
  let start := create (fresh 20 [] Broker.fresh) (Mailbox.empty 2) publisher
  let s := (start.offer [[97], [98]]).2.advanceTo 1000000000000
  have created : Publisher.create "c" 100 1000000000000 0 = .ok publisher := by decide +kernel
  have begun := lawful_create (Mailbox.empty 2) (Steady.fresh 20 [] Broker.fresh)
    (.of_free rfl) (by decide) created
  obtain ⟨taken, among, count, offered⟩ := Course.offer begun .begin [[97], [98]]
  obtain rfl : taken = [[97], [98]] := among.eq_of_length (count.trans (by decide +kernel))
  have course := (offered.advanceTo begun 1000000000000 (by decide +kernel)).1
  have spaced := all 100 1000000000000 publisher [[97], [98]] [] s (by decide) created course
  have attempts : s.publisher.attempts = [0, 1] := by decide +kernel
  have first : (s.client.ending? 0).map Ending.ended = some 100 := by decide +kernel
  have second : s.client.issuedAt? 1 = some (100 + Pause.longest) := by decide +kernel
  obtain ⟨e, ending, ended⟩ := Option.map_eq_some_iff.mp first
  rw [attempts, List.pairwise_pair] at spaced
  have late := spaced e _ ending second
  rw [ended] at late
  exact absurd late (by decide)

end Station

end UpdateBridge
