/-!
# Texts of bounded size

A text that may hold at most `limit` octets is built by appending parts, and
an append that would not fit leaves it as it was. The size of a text is its
number of UTF-8 octets.
-/

namespace UpdateBridge.Text

/-- The text with the part appended, if that fits. -/
def append? (limit : Nat) (text part : String) : Option String :=
  if text.utf8ByteSize + part.utf8ByteSize ≤ limit then some (text ++ part) else none

/-- All parts appended in order, if each of them fits in its turn. -/
def appendAll? (limit : Nat) (text : String) : List String → Option String
  | [] => some text
  | part :: parts => do appendAll? limit (← append? limit text part) parts

/-- The octets of all parts together. -/
def totalSize : List String → Nat
  | [] => 0
  | part :: parts => part.utf8ByteSize + totalSize parts

@[simp] theorem totalSize_nil : totalSize [] = 0 := rfl

@[simp] theorem totalSize_cons (part : String) (parts : List String) :
    totalSize (part :: parts) = part.utf8ByteSize + totalSize parts := rfl

@[simp] theorem appendAll?_nil (limit : Nat) (text : String) :
    appendAll? limit text [] = some text := rfl

theorem append?_of_le {limit : Nat} {text part : String}
    (h : text.utf8ByteSize + part.utf8ByteSize ≤ limit) :
    append? limit text part = some (text ++ part) :=
  if_pos h

theorem append?_of_lt {limit : Nat} {text part : String}
    (h : limit < text.utf8ByteSize + part.utf8ByteSize) :
    append? limit text part = none :=
  if_neg (Nat.not_le.2 h)

end UpdateBridge.Text
