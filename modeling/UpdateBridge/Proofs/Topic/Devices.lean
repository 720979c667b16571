import UpdateBridge.Proofs.Topic.Language
import UpdateBridge.Proofs.Topic.Naming

/-!
# The topics of devices

A device's topics begin with its identifier as it is, so levels of the identifier
may be empty or wildcards. Whatever they are, the filter for what is sent to the
device takes the identifier and all that is below it, since every level stands for
itself (`covers_commands`).

It takes nothing else if no level of the identifier is `+`
(`covers_commands_iff`): a `#` in the identifier is never the last level of the
filter. An identifier that could name a thing is a single level and no wildcard,
and what is below it has it as the first level, so two such devices share no topic.
-/

namespace UpdateBridge.Topic

variable {limit : Nat} {client other name : String} {pattern text : List Char}

/-- The name is the client's identifier or below it. -/
def Below (client name : String) : Prop :=
  name = client ∨ ∃ rest, name = client ++ "/" ++ rest

/-- The whole is returned if there is a client and the whole fits; otherwise the
fault says which of the two is wrong. -/
structure Builds (limit : Nat) (client whole : String) (built : Except Fault String) : Prop where
  ok_iff : ∀ topic, built = .ok topic ↔
    client ≠ "" ∧ whole.utf8ByteSize ≤ limit ∧ topic = whole
  error_iff : ∀ fault, built = .error fault ↔
    client = "" ∧ fault = .invalidArgument "client identifier is empty" ∨
      client ≠ "" ∧ limit < whole.utf8ByteSize ∧ fault = .tooLarge limit whole.utf8ByteSize

theorem ofClient_of_nonempty (some : client ≠ "") (limit : Nat) (suffix : String) :
    ofClient limit client suffix =
      if (client ++ suffix).utf8ByteSize ≤ limit then .ok (client ++ suffix)
      else .error (.tooLarge limit (client ++ suffix).utf8ByteSize) := by
  have size : Text.totalSize [client, suffix] = (client ++ suffix).utf8ByteSize := by simp
  have join : String.join [client, suffix] = client ++ suffix := by simp [String.join]
  have named : client.isEmpty = false := by simpa using some
  rw [ofClient, named, build_eq, size, join]
  rfl

theorem builds_ofClient (limit : Nat) (client suffix : String) :
    Builds limit client (client ++ suffix) (ofClient limit client suffix) := by
  by_cases none : client = ""
  · subst none
    exact ⟨fun topic => by simp [ofClient], fun fault => by simp [ofClient, @eq_comm _ fault]⟩
  · rw [ofClient_of_nonempty none]
    generalize client ++ suffix = whole
    by_cases fits : whole.utf8ByteSize ≤ limit
    · rw [if_pos fits]
      refine ⟨fun topic => ?_, fun fault => ?_⟩
      · simp [none, fits, @eq_comm _ topic]
      · simp [none, Nat.not_lt.mpr fits]
    · rw [if_neg fits]
      refine ⟨fun topic => ?_, fun fault => ?_⟩
      · simp [fits]
      · simp [none, Nat.not_le.mp fits, @eq_comm _ fault]

/-! ## What the filter of a device takes -/

theorem toList_commands (client : String) :
    (client ++ "/#").toList = client.toList ++ separator :: anyRest :=
  String.toList_append

/-- Every text fills itself, wildcards included. -/
theorem fills_self (text : List Char) : Fills text text := by
  refine fills_iff.mpr (List.forall₂_same.mpr fun level member => ?_)
  exact (stands_iff (separator_notMem member)).mpr (.inr rfl)

/-- A text without a `+` level is filled by itself only. -/
theorem fills_iff_eq (plain : anyLevel ∉ levels pattern) : Fills pattern text ↔ text = pattern := by
  rw [fills_iff, forall₂_stands_iff_eq plain]
  exact levels_injective.eq_iff

theorem Below.nonempty (below : Below client name) (some : client ≠ "") : name ≠ "" := by
  obtain rfl | ⟨rest, rfl⟩ := below
  · exact some
  · simp

/-- The filter of a device takes the identifier and what is below it. -/
theorem covers_commands (some : client ≠ "") (below : Below client name) :
    covers (client ++ "/#") name = true := by
  have produced : Produces (client ++ "/#").toList name.toList := by
    rw [toList_commands, produces_rest_iff]
    refine ⟨client.toList, fills_self _, ?_⟩
    obtain rfl | ⟨rest, rfl⟩ := below
    · exact .inl rfl
    · exact .inr ⟨rest.toList, by simp [separator]⟩
  exact covers_iff_produces.mpr ⟨below.nonempty some, by simp, produced⟩

/-- Without a `+` level in the identifier it takes nothing else. -/
theorem covers_commands_iff (some : client ≠ "") (plain : anyLevel ∉ levels client.toList) :
    covers (client ++ "/#") name = true ↔ Below client name := by
  refine ⟨?_, covers_commands some⟩
  intro taken
  obtain ⟨-, -, produced⟩ := covers_iff_produces.mp taken
  rw [toList_commands, produces_rest_iff] at produced
  obtain ⟨above, fills, taken⟩ := produced
  obtain rfl := (fills_iff_eq plain).mp fills
  obtain same | ⟨rest, under⟩ := taken
  · exact .inl (String.toList_inj.mp same)
  · refine .inr ⟨String.ofList rest, String.toList_inj.mp ?_⟩
    rw [under]
    simp [separator]

theorem NamesThing.anyLevel_notMem (names : NamesThing client) :
    anyLevel ∉ levels client.toList := by
  rw [levels_of_notMem names.separator_notMem, List.mem_singleton]
  exact names.ne_anyLevel.symm

/-- An identifier of one level is the first level of all that is below it. -/
theorem head?_levels_of_below (whole : separator ∉ client.toList) (below : Below client name) :
    (levels name.toList).head? = some client.toList := by
  obtain rfl | ⟨rest, rfl⟩ := below
  · rw [levels_of_notMem whole]
    rfl
  · have text : (client ++ "/" ++ rest).toList = client.toList ++ separator :: rest.toList := by
      simp [separator]
    rw [text, levels_append_separator whole]
    rfl

/-- What is below one device is not taken by the filter of another. -/
theorem not_covers_commands (names : NamesThing client) (names' : NamesThing other)
    (apart : other ≠ client) (below : Below other name) :
    ¬covers (client ++ "/#") name = true := by
  intro taken
  have below' := (covers_commands_iff names.nonempty names.anyLevel_notMem).mp taken
  have first := head?_levels_of_below names.separator_notMem below'
  have first' := head?_levels_of_below names'.separator_notMem below
  exact apart (String.toList_inj.mp (Option.some.inj (first'.symm.trans first)))

/-- Both builders return the whole topic or say what is wrong. The filter takes the
identifier, the topic that readings are published on and everything else below the
identifier. If the identifier could name a thing it takes no other name, and so
nothing that belongs to another such device. -/
theorem device_topics_fit (limit : Nat) (client : String) :
    let namesThing (name : String) := ∃ limit suffix topic, ofThing limit name suffix = .ok topic
    Builds limit client (client ++ "/") (readingsOf limit client) ∧
      Builds limit client (client ++ "/#") (commandsOf limit client) ∧
      ∀ filter, commandsOf limit client = .ok filter →
        (∃ topic, readingsOf limit client = .ok topic ∧ matchesFilter topic filter = .ok true) ∧
        (∀ name, Below client name → matchesFilter name filter = .ok true) ∧
        (namesThing client →
          (∀ name, matchesFilter name filter = .ok true ↔ Below client name) ∧
          ∀ other, namesThing other → other ≠ client → ∀ name, Below other name →
            matchesFilter name filter = .ok false) := by
  intro namesThing
  have readings : Builds limit client (client ++ "/") (readingsOf limit client) :=
    builds_ofClient limit client "/"
  have commands : Builds limit client (client ++ "/#") (commandsOf limit client) :=
    builds_ofClient limit client "/#"
  have valid : ∀ name, namesThing name → NamesThing name := by
    rintro name ⟨limit, suffix, topic, accepted⟩
    exact (ofThing_eq_ok_iff.mp accepted).1
  refine ⟨readings, commands, ?_⟩
  intro filter accepted
  obtain ⟨some, fits, rfl⟩ := (commands.ok_iff filter).mp accepted
  have takes : ∀ name, Below client name → matchesFilter name (client ++ "/#") = .ok true :=
    fun name below => covers_iff.mp (covers_commands some below)
  refine ⟨?_, takes, ?_⟩
  · -- What leaves room for the filter leaves room for the shorter topic.
    have shorter : (client ++ "/").utf8ByteSize ≤ limit := by
      have slash : "/".utf8ByteSize = 1 := by decide
      have both : "/#".utf8ByteSize = 2 := by decide
      rw [String.utf8ByteSize_append, both] at fits
      rw [String.utf8ByteSize_append, slash]
      omega
    have below : Below client (client ++ "/") := .inr ⟨"", by simp⟩
    exact ⟨_, (readings.ok_iff _).mpr ⟨some, shorter, rfl⟩, takes _ below⟩
  · intro thing
    have names := valid client thing
    refine ⟨?_, ?_⟩
    · intro name
      rw [← covers_iff]
      exact covers_commands_iff some names.anyLevel_notMem
    · intro other thing' apart name below
      have names' := valid other thing'
      have untaken := not_covers_commands names names' apart below
      exact matchesFilter_of_not_covers (below.nonempty names'.nonempty) (by simp) untaken

/-- Without a client no size is reported, although nothing fits. -/
theorem not_size_reported :
    ¬∀ (limit : Nat) (client : String),
      ¬(client ≠ "" ∧ (client ++ "/").utf8ByteSize ≤ limit) →
        readingsOf limit client = .error (.tooLarge limit (client ++ "/").utf8ByteSize) := by
  intro reported
  have sized := reported 0 "" fun valid => valid.1 rfl
  revert sized
  decide

/-- A wildcard in an identifier is a wildcard in the filter, and a `#` before the
end is not. -/
example :
    commandsOf 8 "+/a" = .ok "+/a/#" ∧ matchesFilter "b/a/c" "+/a/#" = .ok true ∧
      matchesFilter "+/a/c" "+/a/#" = .ok true ∧
      commandsOf 8 "#/a" = .ok "#/a/#" ∧ matchesFilter "b/a/c" "#/a/#" = .ok false ∧
      matchesFilter "#/a/c" "#/a/#" = .ok true := by
  decide +kernel

end UpdateBridge.Topic
