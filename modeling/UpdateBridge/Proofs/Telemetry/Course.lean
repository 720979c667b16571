import UpdateBridge.Telemetry.Station
import UpdateBridge.Proofs.Client.Timing

/-!
# What can happen at a station

A `Course` is any succession of what can happen at a station: the publisher does
what it can do, a reading is accepted, the readings end, somebody else calls the
client, the broker is switched, and time passes up to a moment before which
nothing is due. Only time waits for the publisher: it passes when there is
nothing that the publisher can do. In what order everything else happens at one
moment is open. A course keeps the readings that were accepted and the calls of
the others; what the publisher makes of them is to be proved.
-/

namespace UpdateBridge

def Publisher.call (topic : String) (reading : List UInt8) : Call :=
  .publish ⟨topic, reading⟩ .atMostOnce

/-- Nothing is accepted after the end. -/
theorem Mailbox.post_eq_ok {α : Type} {m m' : Mailbox α} {a : α} (taken : m.post a = (.ok (), m')) :
    m.ended = false ∧ m' = { m with items := m.items ++ [a] } := by
  rw [post] at taken
  split at taken
  · cases taken
  · next opened =>
      rw [Bool.not_eq_true, Bool.or_eq_false_iff] at opened
      split at taken
      · exact ⟨opened.2, (Prod.mk.inj taken).2.symm⟩
      · cases taken

namespace Station

/-- What can happen at a station, with the readings that were accepted and the
calls that others made. -/
inductive Course (start : Station) : List (List UInt8) → List Call → Station → Prop where
  | begin : Course start [] [] start
  | acts {accepted others s s'} : Course start accepted others s → s.act? = some s' →
      Course start accepted others s'
  | passes {accepted others s} (moment : Nat) : Course start accepted others s →
      s.act? = none → s.now ≤ moment → (∀ t, s.due? = some t → moment ≤ t) →
      Course start accepted others { s with client := s.client.jump moment }
  | accepts {accepted others s readings} (reading : List UInt8) : Course start accepted others s →
      s.readings.post reading = (.ok (), readings) →
      Course start (accepted ++ [reading]) others { s with readings }
  | ends {accepted others s} : Course start accepted others s →
      Course start accepted others { s with readings := s.readings.finish }
  | calls {accepted others s} (call : Call) : Course start accepted others s →
      Course start accepted (others ++ [call]) { s with client := (s.client.issue call).2 }
  | switches {accepted others s} (online : Bool) : Course start accepted others s →
      Course start accepted others { s with client := s.client.setOnline online }

variable {s s' start : Station} {reading : List UInt8} {left : List (List UInt8)}
  {accepted accepted' : List (List UInt8)} {others others' : List Call}

theorem Course.trans (first : Course start accepted others s)
    (second : Course s accepted' others' s') :
    Course start (accepted ++ accepted') (others ++ others') s' := by
  induction second with
  | begin => rwa [List.append_nil, List.append_nil]
  | acts _ acted ih => exact ih.acts acted
  | passes moment _ idle later early ih => exact ih.passes moment idle later early
  | accepts reading _ taken ih =>
      rw [← List.append_assoc]
      exact ih.accepts reading taken
  | ends _ ih => exact ih.ends
  | calls call _ ih =>
      rw [← List.append_assoc]
      exact ih.calls call
  | switches online _ ih => exact ih.switches online

/-! ## What the publisher does -/

def beginRound (s : Station) : Station :=
  { s with publisher := { s.publisher with rounds := s.publisher.rounds + 1 } }

/-- The reading is handed to the client, and these are left. -/
def attempt (s : Station) (reading : List UInt8) (left : List (List UInt8)) : Station where
  client := (s.client.issue (Publisher.call s.publisher.topic reading)).2
  readings := { s.readings with items := left }
  publisher := { s.publisher with
    attempts := s.publisher.attempts ++ [s.client.issued]
    stage := .publishing s.client.issued }

def conclude (s : Station) : Station where
  client := s.client.noting [.readingsEnded s.publisher.published]
  readings := s.readings.close
  publisher := { s.publisher with stage := .over s.now }

theorem check_cons (next : s.readings.items = reading :: left) :
    s.check = s.attempt reading left := by
  rw [check, Mailbox.take_cons next]
  rfl

theorem check_of_empty (nothing : s.readings.items = []) (goes : s.readings.ended = false) :
    s.check = s.enter .waiting := by
  rw [check, Mailbox.take, nothing, goes]
  rfl

theorem check_of_ended (nothing : s.readings.items = []) (ended : s.readings.ended = true) :
    s.check = s.conclude := by
  rw [check, Mailbox.take, nothing, ended]
  rfl

/-- The publisher is going to look for a reading, and the station is then this. -/
inductive Looks (s : Station) : Station → Prop where
  | round : s.publisher.stage = .waiting → s.publisher.nextRound ≤ s.now → Looks s s.beginRound
  | again {till : Nat} : s.publisher.stage = .pausing till → till ≤ s.now → Looks s s

/-- The publisher looks for a reading, or it takes note of how its call ended. -/
theorem act_cases (acted : s.act? = some s') :
    (∃ r, s.Looks r ∧ s' = r.check) ∨
      ∃ number e, s.publisher.stage = .publishing number ∧ s.client.ending? number = some e ∧
        s' = s.afterCall e := by
  rw [act?] at acted
  split at acted
  · next waiting =>
      split at acted
      · next due => exact Or.inl ⟨s.beginRound, .round waiting due, (Option.some.inj acted).symm⟩
      · cases acted
  · next till pausing =>
      split at acted
      · next due => exact Or.inl ⟨s, .again pausing due, (Option.some.inj acted).symm⟩
      · cases acted
  · next number publishing =>
      obtain ⟨e, ending, after⟩ := Option.map_eq_some_iff.mp acted
      exact Or.inr ⟨number, e, publishing, ending, after.symm⟩
  · cases acted
  · cases acted

/-- A publisher that cannot do anything waits for its call or for a later moment,
or is done. -/
theorem act_eq_none (idle : s.act? = none) :
    (∀ number, s.publisher.stage = .publishing number → s.client.ending? number = none) ∧
      ∀ t, s.publisher.due? = some t → s.now < t := by
  refine ⟨fun number publishing => ?_, fun t due => ?_⟩
  · rw [act?, publishing] at idle
    exact Option.map_eq_none_iff.mp idle
  · rw [act?] at idle
    rw [Publisher.due?] at due
    split at due
    · next waiting =>
        cases due
        rw [waiting] at idle
        exact Nat.lt_of_not_le fun le => by simp [le] at idle
    · next till pausing =>
        cases due
        rw [pausing] at idle
        exact Nat.lt_of_not_le fun le => by simp [le] at idle
    · cases due

/-- Nothing is due later at the station than at the client. -/
theorem due_le_client {t : Nat} (next : s.client.due? = some t) : ∃ d, s.due? = some d ∧ d ≤ t := by
  rw [due?, next]
  cases s.publisher.due? with
  | none => exact ⟨t, rfl, Nat.le_refl t⟩
  | some b => exact ⟨min t b, rfl, Nat.min_le_left t b⟩

theorem due_le_publisher {t : Nat} (next : s.publisher.due? = some t) :
    ∃ d, s.due? = some d ∧ d ≤ t := by
  rw [due?, next]
  cases s.client.due? with
  | none => exact ⟨t, rfl, Nat.le_refl t⟩
  | some a => exact ⟨min a t, rfl, Nat.min_le_right a t⟩

/-- What is due at the station is due at the client, or else at the publisher and
earlier than at the client. -/
theorem due_eq_some {t : Nat} (next : s.due? = some t) :
    s.client.due? = some t ∨
      s.publisher.due? = some t ∧ ∀ u, s.client.due? = some u → t < u := by
  rw [due?] at next
  split at next
  · next a b client publisher =>
      obtain rfl := Option.some.inj next
      obtain first | first := Nat.lt_or_ge b a
      · refine Or.inr ⟨?_, fun u same => ?_⟩
        · rw [publisher, Nat.min_eq_right (Nat.le_of_lt first)]
        · rw [client] at same
          cases same
          exact Nat.lt_of_le_of_lt (Nat.min_le_right a b) first
      · rw [client, Nat.min_eq_left first]
        exact Or.inl rfl
  · next a client publisher =>
      rw [client, next]
      exact Or.inl rfl
  · next client =>
      refine Or.inr ⟨next, fun u same => ?_⟩
      rw [client] at same
      cases same

end Station

end UpdateBridge
