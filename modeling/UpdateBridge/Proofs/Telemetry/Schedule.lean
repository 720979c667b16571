import UpdateBridge.Proofs.Broker.Delivery
import UpdateBridge.Proofs.Telemetry.Attempts

/-!
# The steps of a station are courses

`advanceTo` takes a number of steps that it computes beforehand. They are enough:
what is left to be done up to the moment (`load`) gets less with everything that
the publisher does and with every moment at which something is due. So what
`advanceTo` arrives at is what the station comes to when nothing happens from
outside, and the other steps of a station are courses as well.

A round counts for two steps, since the publisher waits for it and then looks; a
reading counts for five, since it is handed over, its call ends, the publisher
takes note of this, pauses and looks again.
-/

namespace UpdateBridge.Station

open SharedClient

variable {s s' r start : Station} {patience moment fuel : Nat} {plan : List Conduct}
  {topic : String} {supply accepted : List (List UInt8)} {others called : List Call}
  {tickets : List Ticket}

/-- Rounds that may begin up to the moment. -/
def roundsLeft (s : Station) (moment : Nat) : Nat :=
  moment / Pause.length s.publisher.interval - s.publisher.rounds

/-- Steps until the publisher looks for a reading again. -/
def stepsToLook (s : Station) : Nat :=
  match s.publisher.stage with
  | .publishing _ => 4
  | .pausing _ => 2
  | _ => 0

/-- One step if the publisher has to wait for a later moment. -/
def stepsToWait (s : Station) : Nat :=
  if s.publisher.due?.any fun t => s.now < t then 1 else 0

/-- Steps that are left up to the moment. -/
def load (s : Station) (moment : Nat) : Nat :=
  2 * s.roundsLeft moment + 5 * s.readings.items.length + s.client.pending + s.stepsToLook +
    s.stepsToWait

theorem stepsToWait_le (s : Station) : s.stepsToWait ≤ 1 := by
  rw [stepsToWait]
  split <;> omega

theorem load_le_steps (s : Station) (moment : Nat) : s.load moment ≤ s.steps moment := by
  have look : s.stepsToLook ≤ 4 := by
    rw [stepsToLook]
    split <;> omega
  have wait := s.stepsToWait_le
  rw [load, steps, roundsLeft]
  omega

/-- Looking for a reading costs what the reading counts for. -/
theorem load_check (s : Station) (moment : Nat) :
    s.check.load moment ≤
      2 * s.roundsLeft moment + 5 * s.readings.items.length + s.client.pending + 1 := by
  cases next : s.readings.items with
  | cons reading left =>
      have issued := pending_issue s.client (Publisher.call s.publisher.topic reading)
      rw [check_cons next]
      show 2 * s.roundsLeft moment + 5 * left.length + _ + 4 + 0 ≤ _
      rw [List.length_cons]
      show _ + (s.client.issue _).2.pending + 4 + 0 ≤ _
      omega
  | nil =>
      cases ended : s.readings.ended with
      | true =>
          rw [check_of_ended next ended]
          show 2 * s.roundsLeft moment + 5 * 0 + s.client.pending + 0 + 0 ≤ _
          omega
      | false =>
          have wait := (s.enter .waiting).stepsToWait_le
          rw [check_of_empty next ended, load]
          show 2 * s.roundsLeft moment + 5 * s.readings.items.length + s.client.pending + 0 + _ ≤ _
          rw [next]
          omega

theorem load_looks (positive : 0 < s.publisher.interval) (le : s.now ≤ moment) (looks : s.Looks r) :
    2 * r.roundsLeft moment + 5 * r.readings.items.length + r.client.pending + 1 <
      s.load moment := by
  cases looks with
  | round waiting due =>
      have short : Pause.length s.publisher.interval ≤ s.publisher.interval := Pause.length_le _
      have long : 0 < Pause.length s.publisher.interval :=
        Nat.pos_of_ne_zero fun none => by
          rw [Pause.length_eq_zero] at none
          omega
      have rounds : s.publisher.rounds + 1 ≤ moment / Pause.length s.publisher.interval := by
        rw [Nat.le_div_iff_mul_le long, Nat.add_mul, Nat.one_mul]
        rw [Publisher.nextRound] at due
        omega
      show 2 * (moment / Pause.length s.publisher.interval - (s.publisher.rounds + 1)) +
        5 * s.readings.items.length + s.client.pending + 1 < s.load moment
      rw [load, roundsLeft]
      omega
  | again pausing due =>
      have look : s.stepsToLook = 2 := by rw [stepsToLook, pausing]
      rw [load, look]
      omega

/-- Whatever the publisher does is one of the steps that are left. -/
theorem load_acts (positive : 0 < s.publisher.interval) (le : s.now ≤ moment)
    (acted : s.act? = some s') : s'.load moment < s.load moment := by
  obtain ⟨r, looks, rfl⟩ | ⟨number, e, publishing, ending, rfl⟩ := act_cases acted
  · exact Nat.lt_of_le_of_lt (load_check r moment) (load_looks positive le looks)
  · have look : s.stepsToLook = 4 := by rw [stepsToLook, publishing]
    have wait := (s.afterCall e).stepsToWait_le
    have after : (s.afterCall e).load moment =
        2 * s.roundsLeft moment + 5 * s.readings.items.length + s.client.pending + 2 +
          (s.afterCall e).stepsToWait := by
      rw [load, afterCall]
      cases e.result <;> rfl
    rw [after, load, look]
    omega

theorem stepsToWait_of_due {t : Nat} (due : s.publisher.due? = some t) :
    s.stepsToWait = if s.now < t then 1 else 0 := by
  rw [stepsToWait, due, Option.any_some]
  simp only [decide_eq_true_eq]

/-- As time passes the publisher waits for less. -/
theorem stepsToWait_later {client : SharedClient} (le : s.client.now ≤ client.now) :
    { s with client }.stepsToWait ≤ s.stepsToWait := by
  cases due : s.publisher.due? with
  | none =>
      rw [stepsToWait, stepsToWait, due]
      exact Nat.le_refl _
  | some t =>
      rw [stepsToWait_of_due due, stepsToWait_of_due (s := { s with client }) due, now, now]
      split
      · next before => exact Nat.le_of_eq (if_pos (Nat.lt_of_le_of_lt le before)).symm
      · exact Nat.zero_le _

/-- So is going on to the next moment at which something is due. -/
theorem Lawful.load_passes (hs : s.Lawful patience plan topic supply others tickets)
    (idle : s.act? = none) {t : Nat} (next : s.due? = some t) (moment : Nat) :
    { s with client := s.client.jump t }.load moment < s.load moment := by
  show 2 * s.roundsLeft moment + 5 * s.readings.items.length + (s.client.jump t).pending +
    s.stepsToLook + _ < _
  rw [load]
  obtain client | ⟨publisher, early⟩ := due_eq_some next
  · have fewer := hs.steady.pending_jump client
    have wait : { s with client := s.client.jump t }.stepsToWait ≤ s.stepsToWait := by
      refine stepsToWait_later ?_
      rw [(hs.steady.jump client).accounts.now_eq]
      exact Nat.le_of_lt (hs.steady.lt_due client)
    omega
  · have before : s.now < t := (act_eq_none idle).2 t publisher
    have stands := hs.steady.jump_of_early (Nat.le_of_lt before) early
    have wait : s.stepsToWait = 1 := by rw [stepsToWait_of_due publisher, if_pos before]
    have reached : { s with client := s.client.jump t }.stepsToWait = 0 := by
      rw [stepsToWait_of_due (s := { s with client := s.client.jump t }) publisher, stands]
      exact if_neg (Nat.lt_irrefl t)
    have same : (s.client.jump t).pending = s.client.pending := by rw [stands]; rfl
    omega

/-- The publisher takes no time for what it does. -/
theorem Lawful.now_acts (hs : s.Lawful patience plan topic supply others tickets)
    (acted : s.act? = some s') : s'.now = s.now := by
  obtain ⟨r, looks, rfl⟩ | ⟨number, e, -, -, rfl⟩ := act_cases acted
  · obtain ⟨lawful, -⟩ := hs.looks looks
    have begun : r.now = s.now := by cases looks <;> rfl
    rw [← begun]
    cases next : r.readings.items with
    | cons reading left =>
        rw [check_cons next]
        exact (lawful.steady.issue _).accounts.now_eq
    | nil =>
        cases ended : r.readings.ended with
        | true => rw [check_of_ended next ended]; rfl
        | false => rw [check_of_empty next ended]; rfl
  · rw [Station.afterCall]
    cases e.result <;> rfl

/-- What is due is due later than now when the publisher can do nothing. -/
theorem Lawful.lt_due (hs : s.Lawful patience plan topic supply others tickets)
    (idle : s.act? = none) {t : Nat} (next : s.due? = some t) : s.now < t := by
  obtain client | ⟨publisher, -⟩ := due_eq_some next
  · exact hs.steady.lt_due client
  · exact (act_eq_none idle).2 t publisher

section

variable (begun : start.Lawful patience plan topic supply others tickets)
include begun

/-- Time passes while nothing is due. -/
theorem Course.stands (course : Course start accepted called s) (idle : s.act? = none)
    (le : s.now ≤ moment) (early : ∀ t, s.due? = some t → moment < t) :
    Course start accepted called { s with client := s.client.advanceTo moment } ∧
      { s with client := s.client.advanceTo moment }.now = moment := by
  obtain ⟨made, hs⟩ := course.lawful begun
  have first : ∀ t, s.client.due? = some t → moment < t := by
    intro t next
    obtain ⟨d, due, before⟩ := due_le_client next
    exact Nat.lt_of_lt_of_le (early d due) before
  have same : s.client.advanceTo moment = s.client.jump moment := by
    rw [SharedClient.advanceTo, advanceWith_of_early first, hs.steady.jump_of_early le first]
  rw [same]
  refine ⟨course.passes moment idle le fun t due => Nat.le_of_lt (early t due), ?_⟩
  exact (hs.steady.jump_of_le le).accounts.now_eq

/-- With steps enough the publisher does everything that is due up to the moment. -/
theorem Course.advanceWith (course : Course start accepted called s) (le : s.now ≤ moment)
    (enough : s.load moment ≤ fuel) :
    Course start accepted called (s.advanceWith moment fuel) ∧
      (s.advanceWith moment fuel).now = moment := by
  induction fuel generalizing s with
  | zero =>
      obtain ⟨made, hs⟩ := course.lawful begun
      have idle : s.act? = none := by
        cases acted : s.act? with
        | none => rfl
        | some s' =>
            have less := load_acts hs.positive le acted
            omega
      refine course.stands begun idle le fun t next => Nat.lt_of_not_le fun soon => ?_
      have less := hs.load_passes idle next moment
      omega
  | succ fuel ih =>
      obtain ⟨made, hs⟩ := course.lawful begun
      rw [Station.advanceWith]
      split
      · next s' acted =>
          have less := load_acts hs.positive le acted
          refine ih (course.acts acted) ?_ (by omega)
          rwa [hs.now_acts acted]
      · next idle =>
          split
          · next t next =>
              split
              · next soon =>
                  have less := hs.load_passes idle next moment
                  have later := Nat.le_of_lt (hs.lt_due idle next)
                  refine ih (course.passes t idle later fun u due => ?_) ?_ (by omega)
                  · rw [next] at due
                    cases due
                    exact Nat.le_refl _
                  · show (s.client.jump t).now ≤ moment
                    rwa [(hs.steady.jump_of_le later).accounts.now_eq]
              · next far =>
                  refine course.stands begun idle le fun u due => ?_
                  rw [next] at due
                  cases due
                  exact Nat.lt_of_not_le far
          · next nothing =>
              refine course.stands begun idle le fun u due => ?_
              rw [nothing] at due
              cases due

theorem Course.advanceTo (course : Course start accepted called s) (moment : Nat)
    (le : s.now ≤ moment) :
    Course start accepted called (s.advanceTo moment) ∧ (s.advanceTo moment).now = moment :=
  course.advanceWith begun le (s.load_le_steps moment)

theorem Course.settle (course : Course start accepted called s) :
    Course start accepted called s.settle :=
  (course.advanceTo begun s.now (Nat.le_refl s.now)).1

theorem Course.endReadings (course : Course start accepted called s) :
    Course start accepted called s.endReadings :=
  course.ends.settle begun

theorem Course.callByOther (course : Course start accepted called s) (call : Call) :
    Course start accepted (called ++ [call]) (s.callByOther call) :=
  (course.calls call).settle begun

omit begun in
/-- Of the readings that are offered the mailbox accepts as many as it says. -/
theorem Course.postAll (course : Course start accepted called s) (readings : List (List UInt8)) :
    ∃ taken, taken.Sublist readings ∧ taken.length = (s.readings.postAll readings).1 ∧
      Course start (accepted ++ taken) called
        { s with readings := (s.readings.postAll readings).2 } := by
  induction readings generalizing accepted s with
  | nil =>
      refine ⟨[], List.Sublist.refl _, rfl, ?_⟩
      rw [List.append_nil]
      exact course
  | cons reading readings ih =>
      obtain ⟨-, posted⟩ | ⟨-, fault, refused⟩ := s.readings.post_cases reading
      · obtain ⟨taken, among, count, after⟩ := ih (course.accepts reading posted)
        rw [List.append_assoc, List.singleton_append] at after
        rw [Mailbox.postAll, posted]
        exact ⟨reading :: taken, among.cons_cons reading, congrArg (· + 1) count, after⟩
      · obtain ⟨taken, among, count, after⟩ := ih course
        rw [Mailbox.postAll, refused]
        exact ⟨taken, among.cons reading, count, after⟩

theorem Course.offer (course : Course start accepted called s) (readings : List (List UInt8)) :
    ∃ taken, taken.Sublist readings ∧ taken.length = (s.offer readings).1 ∧
      Course start (accepted ++ taken) called (s.offer readings).2 := by
  obtain ⟨taken, among, count, after⟩ := course.postAll readings
  exact ⟨taken, among, count, after.settle begun⟩

end

end UpdateBridge.Station
