import UpdateBridge.Pool.Basic

/-!
# Sequences of pool operations

Every operation of a pool as data, together with its answer, so that what
callers may do to a pool is a list. `Pool.apply` does one operation and
`Pool.run` does several in order; neither decides anything beyond the
operations themselves. Handles are arbitrary: stale, repeated or never issued.
-/

namespace UpdateBridge

inductive Pool.Operation where
  | acquire
  | write (h : Handle) (payload : List UInt8)
  | read (h : Handle)
  | payloadLength (h : Handle)
  | copy (h : Handle) (out : List UInt8)
  | release (h : Handle)
  deriving DecidableEq, Repr, Inhabited

inductive Pool.Answer where
  | acquired (result : Except Fault Handle)
  | length (result : Except Fault Nat)
  | payload (result : Except Fault (List UInt8))
  /-- The octets are those of the place copied to, afterwards. -/
  | copied (result : Except Fault Nat) (out : List UInt8)
  | released (result : Except Fault Unit)

namespace Pool

def apply (p : Pool) : Operation → Answer × Pool
  | .acquire => let (result, p) := p.acquire; (.acquired result, p)
  | .write h payload => let (result, p) := p.write h payload; (.length result, p)
  | .read h => (.payload (p.read h), p)
  | .payloadLength h => (.length (p.payloadLength h), p)
  | .copy h out => let (result, out) := p.copy h out; (.copied result out, p)
  | .release h => let (result, p) := p.release h; (.released result, p)

def run (p : Pool) : List Operation → List Answer × Pool
  | [] => ([], p)
  | operation :: operations =>
    let (answer, p) := p.apply operation
    let (answers, p) := p.run operations
    (answer :: answers, p)

@[simp] theorem run_nil (p : Pool) : p.run [] = ([], p) := rfl

@[simp] theorem run_cons (p : Pool) (operation : Operation) (operations : List Operation) :
    p.run (operation :: operations) =
      ((p.apply operation).1 :: ((p.apply operation).2.run operations).1,
        ((p.apply operation).2.run operations).2) := rfl

theorem run_append (p : Pool) (first second : List Operation) :
    (p.run (first ++ second)).2 = ((p.run first).2.run second).2 := by
  induction first generalizing p with
  | nil => rfl
  | cons operation operations ih => simpa using ih (p.apply operation).2

@[simp] theorem apply_read (p : Pool) (h : Handle) : (p.apply (.read h)).2 = p := rfl

@[simp] theorem apply_payloadLength (p : Pool) (h : Handle) :
    (p.apply (.payloadLength h)).2 = p := rfl

@[simp] theorem apply_copy (p : Pool) (h : Handle) (out : List UInt8) :
    (p.apply (.copy h out)).2 = p := rfl

end Pool

end UpdateBridge
