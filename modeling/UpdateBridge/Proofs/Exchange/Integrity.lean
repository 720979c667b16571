import UpdateBridge.Proofs.Exchange.Basic

/-!
# A lent payload stays as it was sent

The event of a dispatched message lends a handle. Until that handle is given
back, it reaches the payload of the message, whole and unchanged, whatever else
happens in the exchange; from then on it reaches nothing, however often its
buffer is used again. Nobody but the intake is supposed to write through a lent
handle, and no slot to come back 2^32 times; all else is allowed, in any order
and through any handles.
-/

namespace UpdateBridge

open Pool (WithinGenerations Spent)

namespace Exchange

variable {ε : Type} {setting : Setting ε} {x : Exchange ε} {a : Action} {actions : List Action}
variable {h : Handle} {payload : List UInt8}

/-- No operation of an action other than a message concerns a handle that the
action does not name. -/
theorem operations_untouched (foreign : ∀ topic octets, a ≠ .message topic octets)
    (unwritten : ∀ octets, a ≠ .write h octets) (kept : h ∉ a.givesBack) :
    ∀ operation ∈ x.operations setting a,
      operation ≠ .release h ∧ ∀ octets, operation ≠ .write h octets := by
  intro operation member
  cases a with
  | message topic octets => exact absurd rfl (foreign topic octets)
  | callback c =>
      obtain ⟨g, reported, rfl⟩ := List.mem_map.mp member
      refine ⟨?_, fun octets => nofun⟩
      rintro ⟨⟩
      exact kept reported
  | acquire =>
      rw [List.mem_singleton.mp member]
      exact ⟨nofun, fun octets => nofun⟩
  | write g octets =>
      rw [List.mem_singleton.mp member]
      refine ⟨nofun, fun octets' equal => unwritten octets ?_⟩
      cases equal
      rfl
  | release g =>
      rw [List.mem_singleton.mp member]
      refine ⟨?_, fun octets => nofun⟩
      rintro ⟨⟩
      exact kept (List.mem_singleton.mpr rfl)
  | _ => exact absurd member List.not_mem_nil

/-- What a live handle reaches outlasts every action that neither writes
through it nor gives it back. -/
theorem contents_act (hx : x.pool.Consistent) (live : x.pool.contents h = some payload)
    (unwritten : ∀ octets, a ≠ .write h octets) (kept : h ∉ a.givesBack) :
    (x.act setting a).pool.contents h = some payload := by
  by_cases message : ∃ topic octets, a = .message topic octets
  · obtain ⟨topic, octets, rfl⟩ := message
    cases arrival hx setting topic octets with
    | unheld outcome contents => rw [contents, live]
    | @held kind g outcome acquired unused contents =>
        have other : h ≠ g := by
          rintro rfl
          rw [live] at unused
          cases unused
        rw [contents, Function.update_of_ne other, live]
  · rw [pool_act]
    refine Pool.contents_run hx live (operations_untouched ?_ unwritten kept)
    rintro topic octets rfl
    exact message ⟨topic, octets, rfl⟩

theorem spent_run (spent : Spent x.back h) : Spent (x.run setting actions).back h := by
  obtain ⟨more, later⟩ := back_run setting x actions
  rw [later]
  exact spent.append more

/-- A live handle that nobody writes through reaches the same until it is given
back, and is spent afterwards. -/
theorem contents_run (hx : x.pool.Aged x.back)
    (bounded : WithinGenerations (x.run setting actions).back)
    (live : x.pool.contents h = some payload)
    (unwritten : ∀ octets, Action.write h octets ∉ actions) :
    ((∀ a ∈ actions, h ∉ a.givesBack) →
      (x.run setting actions).pool.contents h = some payload) ∧
    ((∃ a ∈ actions, h ∈ a.givesBack) → Spent (x.run setting actions).back h) := by
  induction actions generalizing x with
  | nil => exact ⟨fun _ => live, fun ⟨_, member, _⟩ => absurd member List.not_mem_nil⟩
  | cons a actions ih =>
      by_cases given : h ∈ a.givesBack
      · have reached : x.pool.contents h ≠ none := by
          rw [live]
          exact Option.some_ne_none _
        have spent : Spent (x.act setting a).back h := spent_act hx reached given
        refine ⟨fun kept => absurd given (kept a List.mem_cons_self), fun _ => ?_⟩
        rw [run_cons]
        exact spent_run spent
      · have ha := aged_act hx (withinGenerations_of_run bounded)
        have first : ∀ octets, a ≠ .write h octets := by
          rintro octets rfl
          exact unwritten octets List.mem_cons_self
        have others : ∀ octets, Action.write h octets ∉ actions :=
          fun octets member => unwritten octets (List.mem_cons_of_mem a member)
        have live' : (x.act setting a).pool.contents h = some payload :=
          contents_act hx.consistent live first given
        obtain ⟨reached, spent⟩ := ih ha bounded live' others
        refine ⟨fun kept => reached fun b member => kept b (List.mem_cons_of_mem a member), ?_⟩
        rintro ⟨b, member, back⟩
        rcases List.mem_cons.mp member with rfl | later
        · exact absurd back given
        · exact spent ⟨b, later, back⟩

/-- The handle of a dispatched message reaches its payload, and the event that
lends it is the last one in the queue. -/
theorem contents_act_of_dispatched (hx : x.pool.Consistent) {topic : String} {kind : EventKind}
    {length : Nat}
    (dispatched : (x.dispatch setting topic payload).outcome = .dispatched kind h length) :
    length = payload.length ∧
      (x.act setting (.message topic payload)).pool.contents h = some payload ∧
      (x.act setting (.message topic payload)).queue.items =
        x.queue.items ++ [Event.lending kind h length] := by
  cases arrival hx setting topic payload with
  | unheld outcome => exact absurd dispatched (outcome kind h length)
  | held outcome acquired unused contents opened queue =>
      rw [dispatched] at outcome
      cases outcome
      refine ⟨rfl, ?_, ?_⟩
      · rw [contents, Function.update_self]
      · rw [queue]

/-- The event of a dispatched message lends its payload: at every later moment
the handle reaches exactly these octets, as many as the event says, if it was
not given back in between, and is stale if it was. -/
theorem lent_payload_intact {capacity size depth : Nat} {engine : ε} {before after : List Action}
    {topic : String} {kind : EventKind} {length : Nat}
    (dispatched : (((create capacity size depth engine).run setting before).dispatch setting
      topic payload).outcome = .dispatched kind h length)
    (unwritten : ∀ octets, Action.write h octets ∉ after)
    (bounded : WithinGenerations ((create capacity size depth engine).run setting
      (before ++ .message topic payload :: after)).back) :
    let sent := (create capacity size depth engine).run setting before
    let lent := sent.act setting (.message topic payload)
    let now := lent.run setting after
    lent.queue.items = sent.queue.items ++ [Event.lending kind h payload.length] ∧
      ((∀ a ∈ after, h ∉ a.givesBack) →
        now.pool.read h = .ok payload ∧
          ∀ out, payload.length ≤ out.length →
            now.pool.copy h out = (.ok payload.length, payload ++ out.drop payload.length)) ∧
      ((∃ a ∈ after, h ∈ a.givesBack) →
        now.pool.read h = .error (.staleHandle h.slot) ∧
          ∀ out, now.pool.copy h out = (.error (.staleHandle h.slot), out)) := by
  intro sent lent now
  rw [run_append, run_cons] at bounded
  change WithinGenerations now.back at bounded
  have boundedLent : WithinGenerations lent.back := withinGenerations_of_run bounded
  have boundedSent : WithinGenerations sent.back := withinGenerations_of_act boundedLent
  have start : (create capacity size depth engine).pool.Aged
      (create capacity size depth engine).back := Pool.aged_create capacity size
  have agedSent : sent.pool.Aged sent.back := aged_run start boundedSent
  have agedLent : lent.pool.Aged lent.back := aged_act agedSent boundedLent
  have agedNow : now.pool.Aged now.back := aged_run agedLent bounded
  obtain ⟨rfl, live, queued⟩ := contents_act_of_dispatched agedSent.consistent dispatched
  obtain ⟨reached, spent⟩ := contents_run agedLent bounded live unwritten
  refine ⟨queued, fun kept => ?_, fun given => ?_⟩
  · have found := reached kept
    exact ⟨Pool.read_of_contents found, fun out fits => Pool.copy_of_contents found fits⟩
  · have stale := agedNow.contents_of_spent (spent given)
    exact ⟨Pool.read_of_contents_eq_none stale, fun out => Pool.copy_of_contents_eq_none stale⟩

/-- The one buffer was used before its second message and is used again after
it came back; on the way a handle of the first message is given back twice. -/
theorem lent_payload_intact_reuse :
    let setting : Setting Answering := ⟨[⟨"a", .fileBlock⟩], Control.answering, false⟩
    let started := create 1 4 2 (⟨[], .ready, .ok (), .ok ()⟩ : Answering)
    let before : List Action :=
      [.message "a" [1, 2, 3], .receive, .callback (.processed (some ⟨0, 0⟩))]
    let waiting : List Action :=
      [.callback (.processed (some ⟨0, 0⟩)), .message "a" [5, 5], .receive]
    let after : List Action := waiting ++ [.release ⟨0, 1⟩, .message "a" [8]]
    let sent := started.run setting before
    let lent := sent.act setting (.message "a" [9])
    lent.queue.items = [Event.lending .fileBlock ⟨0, 1⟩ 1] ∧
      (lent.run setting waiting).pool.read ⟨0, 1⟩ = .ok [9] ∧
      (lent.run setting after).pool.read ⟨0, 1⟩ = .error (.staleHandle 0) := by
  intro setting started before waiting after sent lent
  have dispatched : (sent.dispatch setting "a" [9]).outcome = .dispatched .fileBlock ⟨0, 1⟩ 1 := by
    decide +kernel
  have few : WithinGenerations (started.run setting (before ++ .message "a" [9] :: after)).back :=
    Pool.withinGenerations_of_length_lt (by decide +kernel)
  have fewer : WithinGenerations
      (started.run setting (before ++ .message "a" [9] :: waiting)).back :=
    Pool.withinGenerations_of_length_lt (by decide +kernel)
  obtain ⟨queued, kept, -⟩ := lent_payload_intact dispatched (by simp [waiting]) fewer
  obtain ⟨-, -, given⟩ := lent_payload_intact dispatched (by simp [after, waiting]) few
  refine ⟨queued, (kept ?_).1, (given ?_).1⟩
  · decide
  · exact ⟨.release ⟨0, 1⟩, by simp [after], by decide⟩

end Exchange

end UpdateBridge
