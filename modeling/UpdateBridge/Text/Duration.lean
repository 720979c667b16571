/-!
# Durations as text

A duration of whole milliseconds is written in the largest unit it reaches:
seconds with up to three decimals and no trailing zero, milliseconds, or
`0ns` when there is none.
-/

namespace UpdateBridge.Text

/-- The thousandths after a decimal point, without trailing zeros; nothing at
all when there are none. -/
def thousandths (n : Nat) : String :=
  if n = 0 then ""
  else if n % 100 = 0 then s!".{n / 100}"
  else if n % 10 = 0 then s!".{n / 100}{n / 10 % 10}"
  else s!".{n / 100}{n / 10 % 10}{n % 10}"

def duration (milliseconds : Nat) : String :=
  if milliseconds = 0 then "0ns"
  else if milliseconds < 1000 then s!"{milliseconds}ms"
  else s!"{milliseconds / 1000}{thousandths (milliseconds % 1000)}s"

end UpdateBridge.Text
