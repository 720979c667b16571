import UpdateBridge.Proofs.Client.Safety
import UpdateBridge.Proofs.Telemetry.Course

/-!
# Every reading is attempted once

The publisher's calls, among all calls to the client, are one call for each
reading that it has taken from its mailbox, in the order of the mailbox; the
other calls are those of the others (`Lawful`). This holds at every point of
every course: when a call is issued, it is the publisher's or it is not, and when
anything else happens no call is added. How a call ends, and when, decides only
when the publisher looks for the next reading and what it counts.
-/

namespace UpdateBridge

namespace SharedClient

variable {c d : SharedClient} {patience now : Nat} {plan : List Conduct} {tickets : List Ticket}
  {t : Ticket}

/-- All calls that were issued: those that are over, the one that has the client
and those that wait. -/
def known (c : SharedClient) : List Ticket :=
  c.endings.map Ending.ticket ++ (c.held ++ c.waiting)

def call? (c : SharedClient) (number : Nat) : Option Call :=
  (c.known.find? fun t => t.number == number).map Ticket.call

def issuedAt? (c : SharedClient) (number : Nat) : Option Nat :=
  (c.known.find? fun t => t.number == number).map Ticket.issued

def nextTicket (c : SharedClient) (call : Call) : Ticket :=
  ⟨c.issued, c.now, call⟩

/-- Whether the call of that number is over and was successful. -/
def succeeded (c : SharedClient) (number : Nat) : Bool :=
  (c.ending? number).any fun e => e.result.isOk

theorem Steady.present (hc : c.Steady patience plan now tickets) :
    c.Steady patience plan c.now tickets := by
  rwa [hc.accounts.now_eq]

theorem Steady.noting (hc : c.Steady patience plan now tickets) (notes : List Note) :
    (c.noting notes).Steady patience plan now tickets :=
  ⟨{ hc.accounts with }, hc.idle, hc.busy, hc.patient⟩

/-- Two calls with one number are one call. -/
theorem Steady.eq_of_number (hc : c.Steady patience plan now tickets) {u : Ticket}
    (member : t ∈ tickets) (member' : u ∈ tickets) (same : u.number = t.number) : u = t := by
  have found := hc.accounts.getElem?_number member
  rw [← same, hc.accounts.getElem?_number member'] at found
  exact Option.some.inj found

theorem Steady.number_lt (hc : c.Steady patience plan now tickets) (member : t ∈ tickets) :
    t.number < c.issued := by
  have numbered : t.number ∈ tickets.map Ticket.number := List.mem_map_of_mem member
  rw [hc.accounts.numbers] at numbered
  exact List.mem_range.mp numbered

theorem Steady.mem_known (hc : c.Steady patience plan now tickets) : t ∈ c.known ↔ t ∈ tickets :=
  hc.accounts.all.mem_iff

/-- A call that is over was issued. -/
theorem Steady.ended_lt (hc : c.Steady patience plan now tickets) {e : Ending}
    (member : e ∈ c.endings) : e.ticket.number < c.issued :=
  hc.number_lt (hc.mem_known.mp (List.mem_append_left _ (List.mem_map_of_mem member)))

theorem Steady.mem_known_issue (hc : c.Steady patience plan now tickets) (call : Call) :
    t ∈ (c.issue call).2.known ↔ t ∈ c.known ∨ t = c.nextTicket call := by
  rw [(hc.issue call).mem_known, List.mem_append, hc.mem_known, List.mem_singleton]
  rfl

theorem Steady.find?_known (hc : c.Steady patience plan now tickets) (member : t ∈ tickets) :
    c.known.find? (fun u => u.number == t.number) = some t := by
  cases found : c.known.find? fun u => u.number == t.number with
  | none =>
      rw [List.find?_eq_none] at found
      exact absurd (beq_self_eq_true _) (found t (hc.mem_known.mpr member))
  | some u =>
      have same : u = t := hc.eq_of_number member
        (hc.mem_known.mp (List.mem_of_find?_eq_some found))
        (beq_iff_eq.mp (List.find?_some (p := fun u : Ticket => u.number == t.number) found))
      rw [same]

theorem Steady.call?_eq (hc : c.Steady patience plan now tickets) (member : t ∈ tickets) :
    c.call? t.number = some t.call := by
  rw [call?, hc.find?_known member]
  rfl

theorem Steady.issuedAt?_eq (hc : c.Steady patience plan now tickets) (member : t ∈ tickets) :
    c.issuedAt? t.number = some t.issued := by
  rw [issuedAt?, hc.find?_known member]
  rfl

/-- The calls of these numbers are over, and so many of them were successful. -/
structure Told (c : SharedClient) (numbers : List Nat) (count : Nat) : Prop where
  ended : ∀ n ∈ numbers, (c.ending? n).isSome
  count_eq : count = numbers.countP c.succeeded

theorem Told.later {numbers : List Nat} {count : Nat} (told : Told c numbers count)
    (later : Extends c d) : Told d numbers count := by
  have same : ∀ n ∈ numbers, d.ending? n = c.ending? n := by
    intro n member
    obtain ⟨e, ending⟩ := Option.isSome_iff_exists.mp (told.ended n member)
    rw [ending, later.ending? ending]
  refine ⟨fun n member => ?_, ?_⟩
  · rw [same n member]
    exact told.ended n member
  · rw [told.count_eq]
    refine List.countP_congr fun n member => ?_
    rw [succeeded, succeeded, same n member]

/-- One more call is over. -/
theorem Told.concat {numbers : List Nat} {count number : Nat} {e : Ending}
    (told : Told c numbers count) (ending : c.ending? number = some e) :
    Told c (numbers ++ [number]) (count + if e.result.isOk then 1 else 0) := by
  refine ⟨fun n member => ?_, ?_⟩
  · obtain member | last := List.mem_append.mp member
    · exact told.ended n member
    · rw [List.mem_singleton.mp last, ending]
      rfl
  · have ok : c.succeeded number = e.result.isOk := by
      rw [succeeded, ending]
      rfl
    rw [List.countP_append, ← told.count_eq, List.countP_singleton, ok]

end SharedClient

/-- The attempts whose call the publisher has taken note of. -/
def Publisher.finished (p : Publisher) : List Nat :=
  match p.stage with
  | .publishing _ => p.attempts.dropLast
  | _ => p.attempts

namespace Station

open SharedClient

variable {s s' r start : Station} {patience : Nat} {plan : List Conduct} {topic : String}
  {supply accepted : List (List UInt8)} {others called : List Call} {tickets : List Ticket}
  {t : Ticket}

/-- The calls among these that the publisher made. -/
def own (s : Station) (tickets : List Ticket) : List Ticket :=
  tickets.filter fun t => s.publisher.attempts.contains t.number

/-- The calls among these that somebody else made. -/
def foreign (s : Station) (tickets : List Ticket) : List Ticket :=
  tickets.filter fun t => !s.publisher.attempts.contains t.number

/-- The publisher's calls are those for the readings that it has taken, the others
made the other calls, and the publisher knows of its calls what it should. -/
structure Lawful (s : Station) (patience : Nat) (plan : List Conduct) (topic : String)
    (supply : List (List UInt8)) (others : List Call) (tickets : List Ticket) : Prop where
  steady : s.client.Steady patience plan s.client.now tickets
  timely : s.client.Timely patience
  topic_eq : s.publisher.topic = topic
  positive : 0 < s.publisher.interval
  numbers : s.publisher.attempts = (s.own tickets).map Ticket.number
  supplied : (s.own tickets).map Ticket.call ++ s.readings.items.map (Publisher.call topic) =
    supply.map (Publisher.call topic)
  others_eq : (s.foreign tickets).map Ticket.call = others
  told : s.client.Told s.publisher.finished s.publisher.published
  calling : ∀ n, s.publisher.stage = .publishing n →
    s.publisher.attempts = s.publisher.attempts.dropLast ++ [n] ∧
      ∃ t ∈ tickets, t.number = n ∧ s.client.now ≤ t.issued + patience + Pause.longest
  done : ∀ moment, s.publisher.stage = .over moment →
    s.readings.ended = true ∧ s.readings.items = []
  running : ∀ crash, s.publisher.stage ≠ .crashed crash

/-- A call with a new number is not among those that were made. -/
theorem own_concat (s : Station) (tickets : List Ticket) (t : Ticket) :
    s.own (tickets ++ [t]) =
      s.own tickets ++ if s.publisher.attempts.contains t.number then [t] else [] := by
  rw [own, List.filter_append, List.filter_singleton]
  cases s.publisher.attempts.contains t.number <;> rfl

theorem foreign_concat (s : Station) (tickets : List Ticket) (t : Ticket) :
    s.foreign (tickets ++ [t]) =
      s.foreign tickets ++ if s.publisher.attempts.contains t.number then [] else [t] := by
  rw [foreign, List.filter_append, List.filter_singleton]
  cases s.publisher.attempts.contains t.number <;> rfl

namespace Lawful

/-- The numbers of the publisher's calls were given to calls. -/
theorem attempt_lt (hs : s.Lawful patience plan topic supply others tickets) {n : Nat}
    (member : n ∈ s.publisher.attempts) : n < s.client.issued := by
  rw [hs.numbers] at member
  obtain ⟨t, among, rfl⟩ := List.mem_map.mp member
  exact hs.steady.number_lt (List.mem_filter.mp among).1

theorem issued_new (hs : s.Lawful patience plan topic supply others tickets) :
    s.publisher.attempts.contains s.client.issued = false := by
  rw [Bool.eq_false_iff, ne_eq, List.contains_iff_mem]
  exact fun member => Nat.lt_irrefl _ (hs.attempt_lt member)

/-- What happens at the client leaves the publisher's calls as they are. -/
theorem withClient {client : SharedClient} (hs : s.Lawful patience plan topic supply others tickets)
    (steady : client.Steady patience plan client.now tickets) (timely : client.Timely patience)
    (later : Extends s.client client)
    (soon : ∀ t ∈ tickets, s.publisher.stage = .publishing t.number →
      s.client.now ≤ t.issued + patience + Pause.longest →
      client.now ≤ t.issued + patience + Pause.longest) :
    { s with client }.Lawful patience plan topic supply others tickets := by
  refine { hs with steady, timely, told := hs.told.later later, calling := ?_ }
  intro n publishing
  obtain ⟨last, t, member, rfl, before⟩ := hs.calling n publishing
  exact ⟨last, t, member, rfl, soon t member publishing before⟩

/-- A call of somebody else. -/
theorem calls (hs : s.Lawful patience plan topic supply others tickets) (call : Call) :
    { s with client := (s.client.issue call).2 }.Lawful patience plan topic supply
      (others ++ [call]) (tickets ++ [s.client.nextTicket call]) := by
  have steady := hs.steady.issue call
  have own : s.own (tickets ++ [s.client.nextTicket call]) = s.own tickets := by
    rw [own_concat, nextTicket, hs.issued_new]
    exact List.append_nil _
  have foreign : s.foreign (tickets ++ [s.client.nextTicket call]) =
      s.foreign tickets ++ [s.client.nextTicket call] := by
    rw [foreign_concat, nextTicket, hs.issued_new]
    rfl
  refine { hs with
    steady := steady.present, timely := hs.steady.timely_issue hs.timely call, numbers := ?_,
    supplied := ?_, others_eq := ?_, told := hs.told.later (extends_issue _ _), calling := ?_ }
  · exact own ▸ hs.numbers
  · exact own ▸ hs.supplied
  · show (s.foreign (tickets ++ [s.client.nextTicket call])).map Ticket.call = _
    rw [foreign, List.map_append, hs.others_eq]
    rfl
  · intro n publishing
    obtain ⟨last, t, member, rfl, before⟩ := hs.calling n publishing
    refine ⟨last, t, List.mem_append_left _ member, rfl, ?_⟩
    show (s.client.issue call).2.now ≤ _
    rwa [steady.accounts.now_eq]

/-- With its next call the publisher keeps the calls that it has made. -/
theorem contains_attempt {reading : List UInt8} {left : List (List UInt8)}
    (hs : s.Lawful patience plan topic supply others tickets) (member : t ∈ tickets) :
    (s.attempt reading left).publisher.attempts.contains t.number =
      s.publisher.attempts.contains t.number := by
  have other : t.number ≠ s.client.issued := Nat.ne_of_lt (hs.steady.number_lt member)
  show (s.publisher.attempts ++ [s.client.issued]).contains t.number = _
  simp [other]

/-- The publisher calls for the next reading. -/
theorem attempt {reading : List UInt8} {left : List (List UInt8)}
    (hs : s.Lawful patience plan topic supply others tickets)
    (free : s.publisher.finished = s.publisher.attempts)
    (next : s.readings.items = reading :: left) :
    (s.attempt reading left).Lawful patience plan topic supply others
      (tickets ++ [s.client.nextTicket (Publisher.call topic reading)]) := by
  obtain rfl := hs.topic_eq
  let call := Publisher.call s.publisher.topic reading
  let ticket := s.client.nextTicket call
  have steady := hs.steady.issue call
  have mine : (s.attempt reading left).publisher.attempts.contains ticket.number = true :=
    List.contains_iff_mem.mpr (List.mem_append_right _ (List.mem_singleton.mpr rfl))
  have own : (s.attempt reading left).own (tickets ++ [ticket]) = s.own tickets ++ [ticket] := by
    rw [own_concat, mine]
    congr 1
    exact List.filter_congr fun t member => hs.contains_attempt member
  have foreign : (s.attempt reading left).foreign (tickets ++ [ticket]) = s.foreign tickets := by
    rw [foreign_concat, mine]
    refine (List.append_nil _).trans (List.filter_congr fun t member => ?_)
    rw [hs.contains_attempt member]
  have last : (s.publisher.attempts ++ [s.client.issued]).dropLast = s.publisher.attempts :=
    List.dropLast_concat
  refine { hs with
    steady := steady.present, timely := hs.steady.timely_issue hs.timely call, numbers := ?_,
    supplied := ?_, others_eq := foreign ▸ hs.others_eq, told := ?_, calling := ?_, done := ?_,
    running := ?_ }
  · rw [own, List.map_append, ← hs.numbers]
    rfl
  · rw [own, List.map_append, ← hs.supplied, next, List.append_assoc]
    rfl
  · have finished : (s.attempt reading left).publisher.finished = s.publisher.finished :=
      last.trans free.symm
    rw [finished]
    exact hs.told.later (extends_issue s.client call)
  · intro n publishing
    cases publishing
    refine ⟨congrArg (· ++ [s.client.issued]) last.symm, ticket,
      List.mem_append_right _ List.mem_cons_self, rfl, ?_⟩
    show (s.client.issue call).2.now ≤ s.client.now + patience + Pause.longest
    rw [steady.accounts.now_eq]
    omega
  · intro moment stage
    cases stage
  · intro crash crashed
    cases crashed

/-- The publisher goes on to wait or to pause, and has taken note of all its calls. -/
theorem rest {stage : PublisherStage} {published : Nat}
    (hs : s.Lawful patience plan topic supply others tickets)
    (quiet : stage = .waiting ∨ ∃ till, stage = .pausing till)
    (told : s.client.Told s.publisher.attempts published) :
    { s with publisher := { s.publisher with stage, published } }.Lawful patience plan topic supply
      others tickets := by
  obtain rfl | ⟨till, rfl⟩ := quiet
  all_goals
    refine { hs with told, calling := ?_, done := ?_, running := ?_ }
    · intro n publishing
      cases publishing
    · intro moment stage
      cases stage
    · intro crash crashed
      cases crashed

theorem noting (hs : s.Lawful patience plan topic supply others tickets) (notes : List Note) :
    { s with client := s.client.noting notes }.Lawful patience plan topic supply others tickets :=
  hs.withClient (hs.steady.noting notes) hs.timely (.of_eq rfl rfl) fun _ _ _ before => before

/-- The publisher is done when no reading is left and none will come. -/
theorem conclude (hs : s.Lawful patience plan topic supply others tickets)
    (told : s.client.Told s.publisher.attempts s.publisher.published)
    (nothing : s.readings.items = []) (ended : s.readings.ended = true) :
    s.conclude.Lawful patience plan topic supply others tickets := by
  have supplied := hs.supplied
  rw [nothing] at supplied
  refine { hs.noting [.readingsEnded s.publisher.published] with
    supplied, told := told.later (.of_eq rfl rfl), calling := ?_,
    done := fun _ _ => ⟨ended, rfl⟩, running := ?_ }
  · intro n publishing
    cases publishing
  · intro crash crashed
    cases crashed

/-- Looking for a reading begins its call, if there is one. -/
theorem check (hs : s.Lawful patience plan topic supply others tickets)
    (free : s.publisher.finished = s.publisher.attempts) :
    ∃ made, s.check.Lawful patience plan topic supply others (tickets ++ made) := by
  have told : s.client.Told s.publisher.attempts s.publisher.published := free ▸ hs.told
  cases next : s.readings.items with
  | cons reading left =>
      rw [check_cons next]
      exact ⟨_, hs.attempt free next⟩
  | nil =>
      refine ⟨[], ?_⟩
      rw [List.append_nil]
      cases ended : s.readings.ended with
      | true =>
          rw [check_of_ended next ended]
          exact hs.conclude told next ended
      | false =>
          rw [check_of_empty next ended]
          exact hs.rest (.inl rfl) told

/-- The publisher takes note of how its call ended. -/
theorem afterCall {number : Nat} {e : Ending}
    (hs : s.Lawful patience plan topic supply others tickets)
    (publishing : s.publisher.stage = .publishing number)
    (ending : s.client.ending? number = some e) :
    (s.afterCall e).Lawful patience plan topic supply others tickets := by
  obtain ⟨last, -⟩ := hs.calling number publishing
  have before : s.publisher.finished = s.publisher.attempts.dropLast := by
    rw [Publisher.finished, publishing]
  have told := hs.told.concat ending
  rw [before, ← last] at told
  rw [Station.afterCall]
  cases result : e.result with
  | ok _ =>
      rw [result] at told
      exact hs.rest (.inr ⟨_, rfl⟩) told
  | error fault =>
      rw [result] at told
      exact (hs.rest (.inr ⟨_, rfl⟩) told).noting _

theorem looks (hs : s.Lawful patience plan topic supply others tickets) (looks : s.Looks r) :
    r.Lawful patience plan topic supply others tickets ∧
      r.publisher.finished = r.publisher.attempts := by
  cases looks with
  | round waiting _ => exact ⟨{ hs with }, by rw [Publisher.finished, beginRound, waiting]⟩
  | again pausing _ => exact ⟨hs, by rw [Publisher.finished, pausing]⟩

/-- Whatever the publisher does, it has called for the readings that it took. -/
theorem acts (hs : s.Lawful patience plan topic supply others tickets) (acted : s.act? = some s') :
    ∃ made, s'.Lawful patience plan topic supply others (tickets ++ made) := by
  obtain ⟨r, looks, rfl⟩ | ⟨number, e, publishing, ending, rfl⟩ := act_cases acted
  · obtain ⟨lawful, free⟩ := hs.looks looks
    exact lawful.check free
  · refine ⟨[], ?_⟩
    rw [List.append_nil]
    exact hs.afterCall publishing ending

/-- A call that is under way is over in time. -/
theorem passes {moment : Nat} (hs : s.Lawful patience plan topic supply others tickets)
    (idle : s.act? = none) (le : s.now ≤ moment) (early : ∀ t, s.due? = some t → moment ≤ t) :
    { s with client := s.client.jump moment }.Lawful patience plan topic supply others tickets := by
  have first : ∀ t, s.client.due? = some t → moment ≤ t := by
    intro t next
    obtain ⟨d, due, before⟩ := due_le_client next
    exact Nat.le_trans (early d due) before
  have steady := hs.steady.jump_of_le le
  refine hs.withClient steady.present (hs.steady.timely_jump hs.timely first) (extends_jump _ _) ?_
  intro t member publishing before
  obtain ⟨due, next, soon⟩ :=
    hs.steady.due_of_open hs.timely member ((act_eq_none idle).1 _ publishing)
  rw [steady.accounts.now_eq]
  exact Nat.le_trans (first due next) soon

theorem accepts {reading : List UInt8} {readings : Mailbox (List UInt8)}
    (hs : s.Lawful patience plan topic supply others tickets)
    (taken : s.readings.post reading = (.ok (), readings)) :
    { s with readings }.Lawful patience plan topic (supply ++ [reading]) others tickets := by
  obtain ⟨goes, rfl⟩ := Mailbox.post_eq_ok taken
  refine { hs with supplied := ?_, done := ?_ }
  · rw [List.map_append, List.map_append, ← List.append_assoc]
    exact congrArg (· ++ [Publisher.call topic reading]) hs.supplied
  · intro moment stage
    rw [(hs.done moment stage).1] at goes
    cases goes

theorem ends (hs : s.Lawful patience plan topic supply others tickets) :
    { s with readings := s.readings.finish }.Lawful patience plan topic supply others tickets :=
  { hs with done := fun moment stage => ⟨rfl, (hs.done moment stage).2⟩ }

theorem switches (hs : s.Lawful patience plan topic supply others tickets) (online : Bool) :
    { s with client := s.client.setOnline online }.Lawful patience plan topic supply others
      tickets :=
  hs.withClient (hs.steady.setOnline online) hs.timely (.of_eq rfl rfl) fun _ _ _ before => before

end Lawful

/-- What is lawful at the beginning of a course is lawful all along. -/
theorem Course.lawful (course : Course start accepted called s)
    (begun : start.Lawful patience plan topic supply others tickets) :
    ∃ made, s.Lawful patience plan topic (supply ++ accepted) (others ++ called)
      (tickets ++ made) := by
  induction course with
  | begin =>
      refine ⟨[], ?_⟩
      rwa [List.append_nil, List.append_nil, List.append_nil]
  | acts _ acted ih =>
      obtain ⟨made, lawful⟩ := ih
      obtain ⟨more, after⟩ := lawful.acts acted
      refine ⟨made ++ more, ?_⟩
      rwa [← List.append_assoc]
  | passes moment _ idle later early ih =>
      obtain ⟨made, lawful⟩ := ih
      exact ⟨made, lawful.passes idle later early⟩
  | accepts reading _ taken ih =>
      obtain ⟨made, lawful⟩ := ih
      refine ⟨made, ?_⟩
      rw [← List.append_assoc]
      exact lawful.accepts taken
  | ends _ ih =>
      obtain ⟨made, lawful⟩ := ih
      exact ⟨made, lawful.ends⟩
  | calls call _ ih =>
      obtain ⟨made, lawful⟩ := ih
      have after := lawful.calls call
      rw [List.append_assoc, List.append_assoc] at after
      exact ⟨_, after⟩
  | switches online _ ih =>
      obtain ⟨made, lawful⟩ := ih
      exact ⟨made, lawful.switches online⟩

end Station

end UpdateBridge
