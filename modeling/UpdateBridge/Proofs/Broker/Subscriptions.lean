import UpdateBridge.Broker

/-!
# The table of subscriptions as a map

A table gives a filter at most one mailbox, so it is a map from filters to
mailboxes: `mailboxOf` looks a filter up. Subscribing changes the map at one
filter, also where the filter was somebody else's, and unsubscribing takes one
filter out of it. Subscribing leaves the table itself as it is only if the filter
delivers to that mailbox already.

Both look at nothing of an entry but its filter. So a selection of entries of other
filters is the same before and after (`filter_subscribedTo`,
`filter_entriesExcept`).
-/

namespace UpdateBridge.Broker

variable {filter topic : String} {filters : List String} {id : MailboxId}
variable {table : List Subscription} {p : Subscription → Bool}

/-- The mailbox that the filter delivers to. -/
def mailboxOf (filter : String) : List Subscription → Option MailboxId
  | [] => none
  | s :: others => if s.filter = filter then some s.mailbox else mailboxOf filter others

theorem mailboxOf_cons (filter : String) (s : Subscription) (others : List Subscription) :
    mailboxOf filter (s :: others) =
      if s.filter = filter then some s.mailbox else mailboxOf filter others := rfl

theorem isSubscribed_iff {b : Broker} :
    b.isSubscribed filter = true ↔ ∃ id, mailboxOf filter b.table = some id := by
  unfold isSubscribed
  induction b.table with
  | nil => simp [mailboxOf]
  | cons s others ih =>
      by_cases same : s.filter = filter
      · simp [mailboxOf_cons, same]
      · simpa [mailboxOf_cons, same] using ih

/-- Subscribing changes what is found for one filter. -/
theorem mailboxOf_subscribedTo (filter topic : String) (id : MailboxId)
    (table : List Subscription) :
    mailboxOf filter (subscribedTo topic id table) =
      if filter = topic then some id else mailboxOf filter table := by
  induction table with
  | nil => simp [subscribedTo, mailboxOf, @eq_comm _ topic]
  | cons s others ih =>
      by_cases here : s.filter = topic
      · simp only [subscribedTo, here, if_true, mailboxOf_cons, @eq_comm _ topic]
        split <;> rfl
      · simp only [subscribedTo, here, if_false, mailboxOf_cons, ih]
        by_cases same : s.filter = filter
        · have other : filter ≠ topic := fun equal => here (same.trans equal)
          simp [same, other]
        · simp [same]

theorem subscribedTo_of_mailboxOf (there : mailboxOf topic table = some id) :
    subscribedTo topic id table = table := by
  induction table with
  | nil => cases there
  | cons s others ih =>
      by_cases here : s.filter = topic
      · rw [mailboxOf_cons, if_pos here, Option.some_inj] at there
        subst here there
        simp [subscribedTo]
      · rw [mailboxOf_cons, if_neg here] at there
        simp [subscribedTo, here, ih there]

theorem mailboxOf_eq_none_iff : mailboxOf filter table = none ↔ ∀ s ∈ table, s.filter ≠ filter := by
  induction table with
  | nil => simp [mailboxOf]
  | cons s others ih =>
      rw [mailboxOf_cons]
      by_cases here : s.filter = filter
      · simp [here]
      · simp [here, ih]

/-- Subscribing a filter leaves a selection of entries of other filters as it is. -/
theorem filter_subscribedTo (blind : ∀ s, p s = true → s.filter ≠ topic) (id : MailboxId)
    (table : List Subscription) : (subscribedTo topic id table).filter p = table.filter p := by
  have unseen : p ⟨topic, id⟩ = false :=
    Bool.eq_false_iff.mpr fun seen => blind ⟨topic, id⟩ seen rfl
  induction table with
  | nil => simp [subscribedTo, unseen]
  | cons s others ih =>
      by_cases here : s.filter = topic
      · have unseen' : p s = false := Bool.eq_false_iff.mpr fun seen => blind s seen here
        simp [subscribedTo, here, unseen, unseen']
      · simp [subscribedTo, here, List.filter_cons, ih]

/-! ## Entries by their filters -/

/-- The entries of the table for these filters. -/
def entriesOf (filters : List String) (table : List Subscription) : List Subscription :=
  table.filter fun s => s.filter ∈ filters

/-- The entries of the table for all other filters. -/
def entriesExcept (filters : List String) (table : List Subscription) : List Subscription :=
  table.filter fun s => s.filter ∉ filters

theorem entriesExcept_nil (table : List Subscription) : entriesExcept [] table = table := by
  simp [entriesExcept]

theorem unsubscribedFrom_eq (topic : String) (table : List Subscription) :
    unsubscribedFrom topic table = entriesExcept [topic] table := by
  refine List.filter_congr fun s _ => ?_
  by_cases here : s.filter = topic <;> simp [here]

theorem entriesExcept_unsubscribedFrom (filters : List String) (topic : String)
    (table : List Subscription) :
    entriesExcept filters (unsubscribedFrom topic table) =
      entriesExcept (topic :: filters) table := by
  simp [unsubscribedFrom_eq, entriesExcept, List.filter_filter, Bool.and_comm]

/-- A selection that has none of the filters loses nothing with them. -/
theorem filter_entriesExcept (blind : ∀ s, p s = true → s.filter ∉ filters)
    (table : List Subscription) : (entriesExcept filters table).filter p = table.filter p := by
  rw [entriesExcept, List.filter_filter]
  congr 1
  funext s
  cases seen : p s with
  | false => rfl
  | true => simp [blind s seen]

/-- Nothing is found for a filter whose entries were taken out. -/
theorem mailboxOf_entriesExcept (filter : String) (filters : List String)
    (table : List Subscription) :
    mailboxOf filter (entriesExcept filters table) =
      if filter ∈ filters then none else mailboxOf filter table := by
  induction table with
  | nil => simp [entriesExcept, mailboxOf]
  | cons s others ih =>
      unfold entriesExcept at ih ⊢
      by_cases out : s.filter ∈ filters
      · rw [List.filter_cons_of_neg (by simpa using out), ih, mailboxOf_cons]
        split
        · rfl
        · next kept =>
            have other : s.filter ≠ filter := fun same => kept (same ▸ out)
            rw [if_neg other]
      · rw [List.filter_cons_of_pos (by simpa using out), mailboxOf_cons, mailboxOf_cons, ih]
        by_cases same : s.filter = filter
        · subst same
          simp [out]
        · simp [same]

/-- Unsubscribing leaves nothing to be found for one filter. -/
theorem mailboxOf_unsubscribedFrom (filter topic : String) (table : List Subscription) :
    mailboxOf filter (unsubscribedFrom topic table) =
      if filter = topic then none else mailboxOf filter table := by
  rw [unsubscribedFrom_eq, mailboxOf_entriesExcept]
  simp only [List.mem_singleton]

/-- A table without these filters is its entries for all others. -/
theorem entriesExcept_eq_self (absent : ∀ filter ∈ filters, mailboxOf filter table = none) :
    entriesExcept filters table = table := by
  refine List.filter_eq_self.mpr fun s member => decide_eq_true fun listed => ?_
  exact mailboxOf_eq_none_iff.mp (absent s.filter listed) s member rfl

end UpdateBridge.Broker
