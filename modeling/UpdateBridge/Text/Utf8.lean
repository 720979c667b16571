/-!
# Reading octets as text

`Text.ofOctets` reads UTF-8 and never fails: every longest run of octets that
begins a character but does not complete it, and every octet that begins none,
becomes one replacement character.

The reader remembers a value begun and the ranges in which the octets it still
owes must lie. An octet outside its range ends the run and is read afresh, so
each octet is looked at once and the recursion is on the octets.
-/

namespace UpdateBridge.Text

/-- An inclusive range of octets. -/
structure OctetRange where
  low : UInt8
  high : UInt8
  deriving DecidableEq, Repr

def OctetRange.contains (range : OctetRange) (octet : UInt8) : Bool :=
  range.low ≤ octet && octet ≤ range.high

/-- The octets that continue a character unless its first octet says less. -/
def continuing : OctetRange := ⟨0x80, 0xBF⟩

/-- The character that stands for unreadable octets. -/
def replacement : Char := '\uFFFD'

/-- A character begun: the bits read so far, the next octet's range and the
ranges of the octets after it. -/
structure Begun where
  bits : Nat
  next : OctetRange
  later : List OctetRange
  deriving DecidableEq, Repr

/-- What a first octet is: a whole character, a character begun, or neither. -/
inductive Lead where
  | whole (c : Char)
  | begun (character : Begun)
  | neither
  deriving Repr

/-- Read an octet that stands where a character begins. -/
def lead (octet : UInt8) : Lead :=
  let n := octet.toNat
  if n < 0x80 then .whole (Char.ofNat n)
  else if n < 0xC2 then .neither
  else if n < 0xE0 then .begun ⟨n - 0xC0, continuing, []⟩
  else if n = 0xE0 then .begun ⟨0, ⟨0xA0, 0xBF⟩, [continuing]⟩
  else if n = 0xED then .begun ⟨0xD, ⟨0x80, 0x9F⟩, [continuing]⟩
  else if n < 0xF0 then .begun ⟨n - 0xE0, continuing, [continuing]⟩
  else if n = 0xF0 then .begun ⟨0, ⟨0x90, 0xBF⟩, [continuing, continuing]⟩
  else if n < 0xF4 then .begun ⟨n - 0xF0, continuing, [continuing, continuing]⟩
  else if n = 0xF4 then .begun ⟨4, ⟨0x80, 0x8F⟩, [continuing, continuing]⟩
  else .neither

/-- What is known after an octet: the characters completed by it and the
character it leaves begun, if any. -/
def start (octet : UInt8) : List Char × Option Begun :=
  match lead octet with
  | .whole c => ([c], none)
  | .begun character => ([], some character)
  | .neither => ([replacement], none)

/-- Read one octet after a character that may have been begun. -/
def step (pending : Option Begun) (octet : UInt8) : List Char × Option Begun :=
  match pending with
  | none => start octet
  | some character =>
    if character.next.contains octet then
      let bits := character.bits * 64 + (octet.toNat - 0x80)
      match character.later with
      | [] => ([Char.ofNat bits], none)
      | range :: ranges => ([], some ⟨bits, range, ranges⟩)
    else
      let (characters, pending) := start octet
      (replacement :: characters, pending)

/-- The characters of the octets after a character that may have been begun. -/
def readOctets : Option Begun → List UInt8 → List Char
  | none, [] => []
  | some _, [] => [replacement]
  | pending, octet :: octets =>
    let (characters, pending) := step pending octet
    characters ++ readOctets pending octets

/-- The text that the octets hold, with replacement characters for what cannot
be read. -/
def ofOctets (octets : List UInt8) : String :=
  String.ofList (readOctets none octets)

/-- The octets that write a text. -/
def octets (text : String) : List UInt8 :=
  text.toUTF8.data.toList

end UpdateBridge.Text
