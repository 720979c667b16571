import UpdateBridge.Mailbox

/-!
# The accounts of a mailbox

Whatever is done to a mailbox, what was posted to it was taken, was lost when the
taker went, or still waits, in the order in which it was posted (`Accounts`).
Nothing is lost before the taker goes and nothing waits afterwards, so of lost and
waiting items there are never both.
-/

namespace UpdateBridge

namespace Mailbox

variable {α : Type} {m : Mailbox α} {posted taken lost : List α} {a : α} {items : List α}

/-- What was posted to a mailbox was taken, was lost with the taker or waits. -/
structure Accounts (m : Mailbox α) (posted taken lost : List α) : Prop where
  account : taken ++ lost ++ m.items = posted
  none_lost : m.closed = false → lost = []
  none_waiting : m.closed = true → m.items = []

namespace Accounts

theorem empty (capacity : Nat) : (Mailbox.empty capacity : Mailbox α).Accounts [] [] [] where
  account := rfl
  none_lost _ := rfl
  none_waiting _ := rfl

/-- An item that is accepted waits behind all others. -/
theorem post (hm : m.Accounts posted taken lost) (opened : m.closed = false) (a : α) :
    { m with items := m.items ++ [a] }.Accounts (posted ++ [a]) taken lost where
  account := by
    rw [← hm.account]
    exact (List.append_assoc _ _ _).symm
  none_lost := hm.none_lost
  none_waiting closed := Bool.noConfusion (opened.symm.trans closed)

/-- As long as something waits the taker is there. -/
theorem opened_of_waiting (hm : m.Accounts posted taken lost) (waiting : m.items = a :: items) :
    m.closed = false := by
  cases closed : m.closed with
  | false => rfl
  | true => exact absurd (waiting.symm.trans (hm.none_waiting closed)) (List.cons_ne_nil a items)

theorem take (hm : m.Accounts posted taken lost) (waiting : m.items = a :: items) :
    { m with items }.Accounts posted (taken ++ [a]) lost := by
  have opened := hm.opened_of_waiting waiting
  refine ⟨?_, hm.none_lost, fun closed => Bool.noConfusion (opened.symm.trans closed)⟩
  have account := hm.account
  simp only [hm.none_lost opened, List.append_nil, waiting] at account ⊢
  rw [← account]
  exact List.append_assoc _ _ _

theorem close (hm : m.Accounts posted taken lost) :
    m.close.Accounts posted taken (lost ++ m.items) where
  account := by
    rw [← hm.account]
    simp [Mailbox.close]
  none_lost opened := Bool.noConfusion opened
  none_waiting _ := rfl

theorem finish (hm : m.Accounts posted taken lost) : m.finish.Accounts posted taken lost :=
  ⟨hm.account, hm.none_lost, hm.none_waiting⟩

/-- What was taken is the beginning of what was posted. -/
theorem taken_prefix (hm : m.Accounts posted taken lost) : taken <+: posted := by
  rw [← hm.account, List.append_assoc]
  exact List.prefix_append taken _

/-- Once the taker has gone, what was posted was taken or lost. -/
theorem posted_of_closed (hm : m.Accounts posted taken lost) (closed : m.closed = true) :
    posted = taken ++ lost := by
  rw [← hm.account, hm.none_waiting closed, List.append_nil]

end Accounts

end Mailbox

end UpdateBridge
