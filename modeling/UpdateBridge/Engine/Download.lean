import UpdateBridge.Engine.Basic

/-!
# The download engine

The download engine takes job documents and the blocks of one image, writes
down what it sees, and raises activation once it has all blocks. It reads
buffers of at most 1024 octets. A stop event ends its loop at once and is not
otherwise looked at; apart from that it leaves when it is shutting down.
-/

namespace UpdateBridge

/-- An engine that downloads an image of `total` blocks. -/
structure Download where
  total : UInt32
  phase : Phase
  counters : Counters
  /-- Blocks received so far. -/
  blocks : UInt32
  deriving DecidableEq, Repr, Inhabited

namespace Download

def blockSize : Nat := 1024

def fresh (total : UInt32) : Download :=
  ⟨total, .init, .zero, 0⟩

/-- Count and write down a packet that could be read. -/
def consume (kind : EventKind) (octets : List UInt8) (e : Download) : Download × List Note :=
  let e := { e with counters := e.counters.countProcessed }
  match kind with
  | .jobDocument => (e, [.jobDocument octets])
  | .fileBlock =>
    let e := { e with blocks := e.blocks + 1 }
    (e, [.fileBlock e.blocks e.total octets.length])
  | _ => (e, [])

def readBuffer (pool : Pool) (kind : EventKind) (h : Handle) (e : Download) :
    Download × List Note :=
  match pool.copy h (List.replicate blockSize 0) with
  | (.ok n, octets) => consume kind (octets.take n) e
  | (.error fault, _) =>
    ({ e with counters := e.counters.countDropped }, [.bufferUnreadable h fault])

def accept (pool : Pool) (event : Event) (e : Download) : Accepted Download :=
  match event.kind with
  | .start => ⟨{ e with phase := .active }, [], []⟩
  | .stop => ⟨e, [], []⟩
  | kind =>
    match event.buffer with
    | none => ⟨e, [.processed none], []⟩
    | some h =>
      let (e, notes) := readBuffer pool kind h e
      if e.total ≤ e.blocks then ⟨e, [.processed (some h), .activate], notes⟩
      else ⟨e, [.processed (some h)], notes⟩

/-- Grant a request. -/
def ask (request : Request) (e : Download) : Except Fault Unit × Download :=
  match request with
  | .shutdown _ => (.ok (), { e with phase := .shuttingDown })
  | _ => (.ok (), e)

def requestNotes : Request → List Note
  | .activate => [.imageActivating]
  | .shutdown unsubscribe => [.shutdownRequested unsubscribe]
  | .judge verdict => [.imageJudged verdict]

def engine : Engine Download where
  ask := ask
  notes := requestNotes
  phase := phase
  setPhase phase e := { e with phase }
  counters := counters
  countersRead e := e
  crash? _ _ _ := none
  accept := accept
  leaves event e := event.kind == .stop || e.phase == .shuttingDown

end Download

end UpdateBridge
