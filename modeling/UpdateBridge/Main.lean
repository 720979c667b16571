import UpdateBridge.Rehearsal.Basic

/-!
# The command line

Plays the rehearsal and writes its journal as time passes.
-/

open UpdateBridge

/-- Write what is at least informative, each note at its moment. -/
def writeJournal (elapsed : Nat) : Journal → IO Unit
  | [] => return
  | (moment, note) :: entries => do
    if note.level == .debug || note.level == .trace then writeJournal elapsed entries
    else
      if elapsed < moment then IO.sleep (UInt32.ofNat (moment - elapsed))
      IO.eprintln s!"{note.level.text} {note.text}"
      writeJournal (max elapsed moment) entries

def main : IO UInt32 := do
  match Rehearsal.play with
  | .error fault =>
    IO.eprintln fault.message
    return 1
  | .ok r =>
    writeJournal 0 r.journal
    match r.stage with
    | .over (.error fault) =>
      IO.eprintln fault.message
      return 1
    | _ => return 0
