import UpdateBridge.Proofs.Telemetry.Attempts

/-!
# The looks of a publisher

By itself a publisher does two things: it looks for a reading, and it takes note of
how its call ended. A `Diary` is a course of a station in which every look is
written down, with its moment, whether a round begins with it and what it found.
Writing changes nothing, so every course has a diary (`Course.diary`).

Whatever else happens at a station leaves the publisher as it is (`Happens`). What
such a thing does to the calls and to the time is said once (`Beside`).
-/

namespace UpdateBridge

/-- What the publisher finds when it looks for a reading. -/
inductive Finding where
  /-- A reading, for which it makes the call of that number. -/
  | reading (number : Nat)
  /-- Nothing, but readings may still come. -/
  | nothing
  /-- Nothing, and no reading will come. -/
  | ended
  deriving DecidableEq, Repr, Inhabited

/-- One look for a reading. -/
structure Look where
  moment : Nat
  /-- Whether a round begins with it. -/
  opens : Bool
  finding : Finding
  deriving DecidableEq, Repr, Inhabited

/-- The call that the look led to, if it did. -/
def Look.attempt? (l : Look) : Option Nat :=
  match l.finding with
  | .reading number => some number
  | _ => none

theorem Look.attempt?_eq_some {l : Look} {number : Nat} :
    l.attempt? = some number ↔ l.finding = .reading number := by
  rw [attempt?]
  cases l.finding <;> simp

/-- Whether a round begins with the next look. -/
def Publisher.opens (p : Publisher) : Bool :=
  p.stage = .waiting

namespace Station

open SharedClient

/-- What the publisher finds if it looks now. -/
def finding (s : Station) : Finding :=
  match s.readings.take.1 with
  | .item _ => .reading s.client.issued
  | .empty => .nothing
  | .ended => .ended

/-- The look that the publisher takes if it acts now. -/
def look? (s : Station) : Option Look :=
  match s.publisher.stage with
  | .waiting | .pausing _ => some ⟨s.now, s.publisher.opens, s.finding⟩
  | _ => none

/-- What can happen at a station that is not done by the publisher, with the
readings that are accepted and the calls that others make. -/
inductive Happens (s : Station) : List (List UInt8) → List Call → Station → Prop where
  | passes (moment : Nat) : s.act? = none → s.now ≤ moment →
      (∀ t, s.due? = some t → moment ≤ t) →
      Happens s [] [] { s with client := s.client.jump moment }
  | accepts {readings} (reading : List UInt8) : s.readings.post reading = (.ok (), readings) →
      Happens s [reading] [] { s with readings }
  | ends : Happens s [] [] { s with readings := s.readings.finish }
  | calls (call : Call) : Happens s [] [call] { s with client := (s.client.issue call).2 }
  | switches (online : Bool) : Happens s [] [] { s with client := s.client.setOnline online }

/-- A course with the looks that the publisher takes in it. -/
inductive Diary (start : Station) :
    List (List UInt8) → List Call → List Look → Station → Prop where
  | begin : Diary start [] [] [] start
  | acts {accepted others looks s s'} : Diary start accepted others looks s →
      s.act? = some s' → Diary start accepted others (looks ++ s.look?.toList) s'
  | happens {accepted others looks s more called s'} : Diary start accepted others looks s →
      s.Happens more called s' → Diary start (accepted ++ more) (others ++ called) looks s'

variable {s s' start : Station} {patience : Nat} {plan : List Conduct} {topic : String}
  {supply accepted accepted' more : List (List UInt8)} {others others' called : List Call}
  {tickets : List Ticket} {looks : List Look} {reading : List UInt8} {left : List (List UInt8)}

theorem finding_cons (next : s.readings.items = reading :: left) :
    s.finding = .reading s.client.issued := by
  rw [finding, Mailbox.take_cons next]

theorem finding_of_empty (nothing : s.readings.items = []) (goes : s.readings.ended = false) :
    s.finding = .nothing := by
  rw [finding, Mailbox.take, nothing, goes]
  rfl

theorem finding_of_ended (nothing : s.readings.items = []) (ended : s.readings.ended = true) :
    s.finding = .ended := by
  rw [finding, Mailbox.take, nothing, ended]
  rfl

theorem Happens.course (happened : s.Happens more called s') : Course s more called s' := by
  cases happened with
  | passes moment idle later early => exact Course.begin.passes moment idle later early
  | accepts reading taken => exact Course.begin.accepts reading taken
  | ends => exact Course.begin.ends
  | calls call => exact Course.begin.calls call
  | switches online => exact Course.begin.switches online

theorem Diary.course (diary : Diary start accepted others looks s) :
    Course start accepted others s := by
  induction diary with
  | begin => exact .begin
  | acts _ acted ih => exact ih.acts acted
  | happens _ happened ih => exact ih.trans happened.course

/-- A diary goes on when the course does. -/
theorem Diary.extend (diary : Diary start accepted others looks s)
    (course : Course s accepted' others' s') :
    ∃ added, Diary start (accepted ++ accepted') (others ++ others') (looks ++ added) s' := by
  induction course with
  | begin => exact ⟨[], by simpa using diary⟩
  | acts _ acted ih =>
      obtain ⟨added, later⟩ := ih
      exact ⟨_, List.append_assoc .. ▸ later.acts acted⟩
  | passes moment _ idle after early ih =>
      obtain ⟨added, later⟩ := ih
      exact ⟨added, by simpa using later.happens (.passes moment idle after early)⟩
  | accepts reading _ taken ih =>
      obtain ⟨added, later⟩ := ih
      exact ⟨added, by simpa using later.happens (.accepts reading taken)⟩
  | ends _ ih =>
      obtain ⟨added, later⟩ := ih
      exact ⟨added, by simpa using later.happens .ends⟩
  | calls call _ ih =>
      obtain ⟨added, later⟩ := ih
      exact ⟨added, by simpa using later.happens (.calls call)⟩
  | switches online _ ih =>
      obtain ⟨added, later⟩ := ih
      exact ⟨added, by simpa using later.happens (.switches online)⟩

theorem Course.diary (course : Course start accepted others s) :
    ∃ looks, Diary start accepted others looks s :=
  Diary.begin.extend course

/-- The second station comes from the first without the publisher: calls are only
added, and those that are over only then ended at this moment. Time passes only when
the publisher has nothing to do, and not beyond the moment for which it waits. -/
structure Beside (s s' : Station) : Prop where
  publisher : s'.publisher = s.publisher
  later : Extends s.client s'.client
  ended : ∀ e ∈ s'.client.endings, e ∈ s.client.endings ∨ e.ended = s'.now
  known : ∀ t ∈ s.client.known, t ∈ s'.client.known
  passed : s'.now = s.now ∨
    s.act? = none ∧ s.now ≤ s'.now ∧ ∀ t, s.publisher.due? = some t → s'.now ≤ t

theorem Beside.present (beside : s.Beside s') : s.now ≤ s'.now := by
  obtain same | ⟨-, present, -⟩ := beside.passed
  · exact Nat.le_of_eq same.symm
  · exact present

/-- What takes no time. -/
theorem Beside.atOnce {client : SharedClient} {readings : Mailbox (List UInt8)}
    (soon : AtOnce s.client client) (known : ∀ t ∈ s.client.known, t ∈ client.known) :
    s.Beside ⟨client, readings, s.publisher⟩ where
  publisher := rfl
  later := soon.extends
  ended _ := soon.ended
  known := known
  passed := .inl soon.now_eq

theorem Lawful.beside (hs : s.Lawful patience plan topic supply others tickets)
    (happened : s.Happens more called s') : s.Beside s' := by
  have same : AtOnce s.client s.client := .of_eq rfl rfl rfl
  cases happened with
  | passes moment idle later early =>
      have steady := hs.steady.jump_of_le later
      have now : (s.client.jump moment).now = moment := steady.accounts.now_eq
      refine ⟨rfl, extends_jump _ _, fun e => (atOnce_settle { s.client with now := moment }).ended,
        fun t member => steady.mem_known.mpr (hs.steady.mem_known.mp member),
        .inr ⟨idle, Nat.le_trans later (Nat.le_of_eq now.symm), fun t due => ?_⟩⟩
      obtain ⟨d, first, le⟩ := due_le_publisher due
      exact Nat.le_trans (Nat.le_of_eq now) (Nat.le_trans (early d first) le)
  | accepts reading taken => exact .atOnce same fun _ => id
  | ends => exact .atOnce same fun _ => id
  | calls call =>
      exact .atOnce (atOnce_issue _ call) fun t member =>
        (hs.steady.mem_known_issue call).mpr (.inl member)
  | switches online => exact .atOnce (.of_eq rfl rfl rfl) fun _ => id

end Station

end UpdateBridge
