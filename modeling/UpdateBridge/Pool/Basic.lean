import UpdateBridge.Fault

/-!
# The pool of event buffers

A pool has a fixed number of buffers of one size. A buffer is taken with
`acquire`, written with `write`, read with `read`, `payloadLength` and `copy`,
and given back with `release`. All but the first go through a handle: the slot
of the buffer and its generation, which advances whenever the buffer is given
back. A handle is good while its buffer is taken and has that generation, so a
handle kept too long never reaches the buffer's next holder.

Free slots form a stack. Its top is handed out next, so slot 0 goes first and
a buffer just given back is the next to go. The stack and the marks on the
buffers record the same fact twice; nothing here assumes that they agree.

The octets of a buffer are never erased: `write` overwrites as many as it
brings, and only the first `length` octets of a buffer are its payload.
-/

namespace UpdateBridge

@[ext] structure Handle where
  slot : Nat
  generation : UInt32
  deriving DecidableEq, Repr, Inhabited

def Handle.text (h : Handle) : String :=
  s!"buffer {h.slot}#{h.generation.toNat}"

structure Buffer where
  /-- As many octets as the pool's buffers hold. -/
  octets : List UInt8
  /-- How many of them are payload. -/
  length : Nat
  /-- Whether the buffer is taken. -/
  taken : Bool
  /-- How often the buffer was given back, modulo 2^32. -/
  generation : UInt32
  deriving DecidableEq, Repr, Inhabited

namespace Buffer

/-- A buffer that was never taken. -/
def fresh (size : Nat) : Buffer :=
  ⟨List.replicate size 0, 0, false, 0⟩

/-- The octets that were written last. -/
def payload (b : Buffer) : List UInt8 :=
  b.octets.take b.length

/-- Whether the handle is good for this buffer. -/
def heldBy (b : Buffer) (h : Handle) : Bool :=
  b.taken && b.generation == h.generation

/-- The buffer in the hands of a new holder. -/
def take (b : Buffer) : Buffer :=
  { b with taken := true, length := 0 }

/-- The buffer with its first octets replaced by the payload. -/
def write (b : Buffer) (payload : List UInt8) : Buffer :=
  { b with octets := payload ++ b.octets.drop payload.length, length := payload.length }

/-- The buffer given back, one generation on. -/
def giveBack (b : Buffer) : Buffer :=
  { b with taken := false, length := 0, generation := b.generation + 1 }

theorem heldBy_iff {b : Buffer} {h : Handle} :
    b.heldBy h = true ↔ b.taken = true ∧ b.generation = h.generation := by
  simp [heldBy]

@[simp] theorem payload_take (b : Buffer) : b.take.payload = [] := by
  simp [take, payload]

/-- Nothing of a longer payload shows behind a shorter one. -/
@[simp] theorem payload_write (b : Buffer) (payload : List UInt8) :
    (b.write payload).payload = payload := by
  simp [write, Buffer.payload]

/-- Writing a payload that fits keeps the size. -/
theorem length_octets_write {b : Buffer} {payload : List UInt8}
    (h : payload.length ≤ b.octets.length) :
    (b.write payload).octets.length = b.octets.length := by
  simp only [write, List.length_append, List.length_drop]
  omega

end Buffer

/-- A fixed number of buffers that hold `size` octets each. -/
structure Pool where
  size : Nat
  buffers : List Buffer
  /-- The slots that are free, the next to be handed out first. -/
  free : List Nat
  deriving DecidableEq, Repr, Inhabited

namespace Pool

def create (capacity size : Nat) : Pool :=
  ⟨size, List.replicate capacity (Buffer.fresh size), List.range capacity⟩

/-- A pool for small payloads. -/
def small : Pool := create 2 1024

/-- A pool for blocks of an image. -/
def standard : Pool := create 4 5120

def capacity (p : Pool) : Nat :=
  p.buffers.length

def freeCount (p : Pool) : Nat :=
  p.free.length

/-- How many buffers are marked as taken. -/
def takenCount (p : Pool) : Nat :=
  p.buffers.countP Buffer.taken

/-- The buffer that the handle is good for. -/
def held? (p : Pool) (h : Handle) : Option Buffer :=
  p.buffers[h.slot]?.filter (·.heldBy h)

def setBuffer (p : Pool) (slot : Nat) (b : Buffer) : Pool :=
  { p with buffers := p.buffers.set slot b }

/-- Take the buffer whose slot is on top of the stack. -/
def acquire (p : Pool) : Except Fault Handle × Pool :=
  match p.free with
  | [] => (.error (.exhausted p.capacity), p)
  | slot :: free =>
    match p.buffers[slot]? with
    | none => (.error (.exhausted p.capacity), p)
    | some b => (.ok ⟨slot, b.generation⟩, { p.setBuffer slot b.take with free })

/-- Write the payload into the buffer and answer its length. A payload that no
buffer could hold is reported before a handle that is not good. -/
def write (p : Pool) (h : Handle) (payload : List UInt8) : Except Fault Nat × Pool :=
  if payload.length > p.size then (.error (.tooLarge p.size payload.length), p)
  else match p.held? h with
    | none => (.error (.staleHandle h.slot), p)
    | some b => (.ok payload.length, p.setBuffer h.slot (b.write payload))

def read (p : Pool) (h : Handle) : Except Fault (List UInt8) :=
  match p.held? h with
  | none => .error (.staleHandle h.slot)
  | some b => .ok b.payload

def payloadLength (p : Pool) (h : Handle) : Except Fault Nat :=
  (p.read h).map List.length

/-- Copy the payload to the front of `out` and answer its length; the octets
behind it, and on a fault all of them, stay as they are. -/
def copy (p : Pool) (h : Handle) (out : List UInt8) : Except Fault Nat × List UInt8 :=
  match p.read h with
  | .error fault => (.error fault, out)
  | .ok payload =>
    if payload.length > out.length then (.error (.tooLarge out.length payload.length), out)
    else (.ok payload.length, payload ++ out.drop payload.length)

/-- Give the buffer back. The stack takes no more slots than the pool has. -/
def release (p : Pool) (h : Handle) : Except Fault Unit × Pool :=
  match p.held? h with
  | none => (.error (.doubleRelease h.slot), p)
  | some b =>
    let given := p.setBuffer h.slot b.giveBack
    if given.free.length < given.capacity then
      (.ok (), { given with free := h.slot :: given.free })
    else (.error (.doubleRelease h.slot), given)

@[simp] theorem capacity_create (capacity size : Nat) :
    (create capacity size).capacity = capacity := by
  simp [create, Pool.capacity]

@[simp] theorem freeCount_create (capacity size : Nat) :
    (create capacity size).freeCount = capacity := by
  simp [create, freeCount]

@[simp] theorem capacity_setBuffer (p : Pool) (slot : Nat) (b : Buffer) :
    (p.setBuffer slot b).capacity = p.capacity := by
  simp [setBuffer, capacity]

theorem held?_eq_some_iff {p : Pool} {h : Handle} {b : Buffer} :
    p.held? h = some b ↔ p.buffers[h.slot]? = some b ∧ b.heldBy h = true := by
  simp [held?, Option.filter_eq_some_iff]

theorem read_of_held {p : Pool} {h : Handle} {b : Buffer} (held : p.held? h = some b) :
    p.read h = .ok b.payload := by
  simp [read, held]

theorem read_of_not_held {p : Pool} {h : Handle} (stale : p.held? h = none) :
    p.read h = .error (.staleHandle h.slot) := by
  simp [read, stale]

theorem release_of_not_held {p : Pool} {h : Handle} (stale : p.held? h = none) :
    p.release h = (.error (.doubleRelease h.slot), p) := by
  simp [release, stale]

/-- Take a buffer, write one octet and give the buffer back. A buffer whose
write fails stays taken. -/
def cycle (p : Pool) (octet : UInt8) : Except Fault Handle × Pool :=
  match p.acquire with
  | (.error fault, p) => (.error fault, p)
  | (.ok h, p) =>
    match p.write h [octet] with
    | (.error fault, p) => (.error fault, p)
    | (.ok _, p) =>
      match p.release h with
      | (.error fault, p) => (.error fault, p)
      | (.ok (), p) => (.ok h, p)

/-- Cycle with the octets `first`, `first + 1` and so on, modulo 256, `count`
times or up to the first fault, and answer what the last round did. -/
def cycles (p : Pool) (first : Nat) : Nat → Except Fault (Option Handle) × Pool
  | 0 => (.ok none, p)
  | count + 1 =>
    match p.cycle (UInt8.ofNat first) with
    | (.error fault, p) => (.error fault, p)
    | (.ok h, p) => if count = 0 then (.ok (some h), p) else p.cycles (first + 1) count

end Pool

end UpdateBridge
