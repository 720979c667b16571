import UpdateBridge.Fault

/-!
# Mailboxes

A mailbox holds a bounded number of items between those who post and the one
who takes. Items leave in the order in which they came. Posting never waits:
it fails when the taker has gone, or else when the mailbox is full. Taking
tells an empty mailbox that may be posted to again from one that will stay
empty because everybody who could post has gone.
-/

namespace UpdateBridge

/-- A bounded queue between those who post and the one who takes. -/
structure Mailbox (α : Type) where
  capacity : Nat
  /-- What is waiting, the oldest first. -/
  items : List α
  /-- Whether the taker has gone. -/
  closed : Bool
  /-- Whether everybody who could post has gone. -/
  ended : Bool
  deriving DecidableEq, Repr, Inhabited

inductive PostFault where
  | full
  | closed
  deriving DecidableEq, Repr, Inhabited

def PostFault.message : PostFault → String
  | .full => "no available capacity"
  | .closed => "channel closed"

inductive Taken (α : Type) where
  | item (a : α)
  /-- Nothing is waiting, but something may still come. -/
  | empty
  /-- Nothing is waiting and nothing will come. -/
  | ended
  deriving DecidableEq, Repr, Inhabited

namespace Mailbox

variable {α : Type}

def empty (capacity : Nat) : Mailbox α :=
  ⟨capacity, [], false, false⟩

/-- The most places that a mailbox can have: three bits of a word are not for counting. -/
def mostPlaces : Nat := (UInt64.size - 1) / 8

/-- Whether there can be a mailbox with that many places. -/
def Possible (capacity : Nat) : Prop :=
  0 < capacity ∧ capacity ≤ mostPlaces

instance (capacity : Nat) : Decidable (Possible capacity) :=
  inferInstanceAs (Decidable (_ ∧ _))

/-- A new mailbox with that many places. -/
def create (capacity : Nat) : Except Crash (Mailbox α) :=
  if capacity = 0 then .error .emptyMailbox
  else if mostPlaces < capacity then .error .hugeMailbox
  else .ok (empty capacity)

/-- Places left; where nobody can post there are none. -/
def room (m : Mailbox α) : Nat :=
  if m.closed || m.ended then 0 else m.capacity - m.items.length

def post (m : Mailbox α) (a : α) : Except PostFault Unit × Mailbox α :=
  if m.closed || m.ended then (.error .closed, m)
  else if m.items.length < m.capacity then (.ok (), { m with items := m.items ++ [a] })
  else (.error .full, m)

def take (m : Mailbox α) : Taken α × Mailbox α :=
  match m.items with
  | a :: items => (.item a, { m with items })
  | [] => (if m.ended then .ended else .empty, m)

/-- The taker goes, and what was waiting is lost. -/
def close (m : Mailbox α) : Mailbox α :=
  { m with items := [], closed := true }

/-- Everybody who could post goes. -/
def finish (m : Mailbox α) : Mailbox α :=
  { m with ended := true }

def drop (m : Mailbox α) (count : Nat) : Mailbox α :=
  { m with items := m.items.drop count }

/-- The mailbox after everything waiting was taken. -/
def drained (m : Mailbox α) : Mailbox α :=
  { m with items := [] }

/-- Post the items in order and answer how many were accepted. -/
def postAll (m : Mailbox α) : List α → Nat × Mailbox α
  | [] => (0, m)
  | a :: rest =>
    match m.post a with
    | (.ok (), m) => let (n, m) := m.postAll rest; (n + 1, m)
    | (.error _, m) => m.postAll rest

theorem create_eq_ok_iff {capacity : Nat} {m : Mailbox α} :
    create capacity = .ok m ↔ Possible capacity ∧ m = empty capacity := by
  unfold create Possible
  split
  · simp_all
  · split
    · simp; omega
    · simp [eq_comm]; omega

@[simp] theorem items_empty (capacity : Nat) : (empty capacity : Mailbox α).items = [] := rfl

@[simp] theorem post_of_closed {m : Mailbox α} (h : m.closed = true) (a : α) :
    m.post a = (.error .closed, m) := by
  simp [post, h]

theorem post_of_ended {m : Mailbox α} (h : m.ended = true) (a : α) :
    m.post a = (.error .closed, m) := by
  simp [post, h]

theorem post_of_lt {m : Mailbox α} (notClosed : m.closed = false) (notEnded : m.ended = false)
    (free : m.items.length < m.capacity) (a : α) :
    m.post a = (.ok (), { m with items := m.items ++ [a] }) := by
  simp [post, notClosed, notEnded, free]

theorem post_of_le {m : Mailbox α} (notClosed : m.closed = false) (notEnded : m.ended = false)
    (full : m.capacity ≤ m.items.length) (a : α) : m.post a = (.error .full, m) := by
  simp [post, notClosed, notEnded, Nat.not_lt.2 full]

@[simp] theorem take_cons {m : Mailbox α} {a : α} {items : List α} (h : m.items = a :: items) :
    m.take = (.item a, { m with items }) := by
  simp [take, h]

end Mailbox

end UpdateBridge
