import UpdateBridge.Client.Call
import UpdateBridge.Pause

/-!
# The shared client over time

One client serves all callers, one call at a time. Callers queue up and are
served in the order in which they came. A caller that finds the client free
has it at once; a caller that waits gives up after `patience` milliseconds,
which the client never learns of. Nothing is tried twice.

Once a call has the client it is handed to the link, which by its plan pauses
for some time and may then fail; otherwise the call takes effect on the broker
at the end of that time. At the same moment the client passes to the next caller.
A caller's patience may end at the very moment the client becomes free. If it
came before the client went to the one that has it now, its patience is over
first and it gives up. If it came later, the client is free first and the
caller is served, unless one before it keeps the client.

Time is in milliseconds. `advanceTo` goes from one moment at which something
is due to the next; `issue` and `setOnline` happen at the present moment.
-/

namespace UpdateBridge

/-- How the link treats one call. -/
structure Conduct where
  /-- The pause asked for before the call is done, in milliseconds. -/
  delay : Nat
  failure : Option LinkFault
  deriving DecidableEq, Repr, Inhabited

/-- A link that does its work at once. -/
def Conduct.prompt : Conduct := ⟨0, none⟩

structure Ticket where
  number : Nat
  issued : Nat
  call : Call
  deriving DecidableEq, Repr, Inhabited

/-- A call that has the client until the link is done with it. -/
structure Holding where
  ticket : Ticket
  /-- When it was handed to the link. -/
  since : Nat
  till : Nat
  failure : Option LinkFault
  deriving DecidableEq, Repr, Inhabited

structure Ending where
  ticket : Ticket
  ended : Nat
  result : Except Fault Unit

/-- A call that the link is done with. -/
structure Passage where
  ticket : Ticket
  /-- When it was handed to the link. -/
  since : Nat
  till : Nat
  answer : Except LinkFault Unit

/-- The client, those who wait for it and all that has happened. -/
structure SharedClient where
  patience : Nat
  now : Nat
  /-- How the link is going to treat the next calls. -/
  plan : List Conduct
  broker : Broker
  holder : Option Holding
  /-- Who waits, the first to come first. -/
  waiting : List Ticket
  /-- How many calls were issued. -/
  issued : Nat
  /-- The calls that are over, in the order in which they ended. -/
  endings : List Ending
  /-- The calls handed to the link, with the time. -/
  carried : List (Nat × Ticket)
  /-- The calls that the link is done with, in the order in which it was. -/
  passages : List Passage
  journal : Journal

namespace SharedClient

def fresh (patience : Nat) (plan : List Conduct) (broker : Broker) : SharedClient :=
  ⟨patience, 0, plan, broker, none, [], 0, [], [], [], []⟩

/-- When a waiting caller gives up. -/
def deadline (c : SharedClient) (t : Ticket) : Nat :=
  t.issued + c.patience

def noting (c : SharedClient) (notes : List Note) : SharedClient :=
  { c with journal := c.journal ++ Journal.stamped c.now notes }

/-- The call is over now with this result. -/
def ending (c : SharedClient) (t : Ticket) (result : Except Fault Unit) : SharedClient :=
  { c with endings := c.endings ++ [⟨t, c.now, result⟩] }

/-- The link is done with a call that it had since then; the call takes effect
unless it failed. -/
def complete (c : SharedClient) (t : Ticket) (since : Nat) (failure : Option LinkFault) :
    SharedClient :=
  let performed := t.call.perform failure c.broker
  let passage : Passage := ⟨t, since, c.now, t.call.answer failure c.broker⟩
  ({ c with broker := performed.broker, passages := c.passages ++ [passage] }.ending t
    performed.result).noting performed.notes

def giveUp (c : SharedClient) (t : Ticket) : SharedClient :=
  (c.ending t (.error (.lockTimeout c.patience))).noting [.lockTimedOut c.patience]

/-- Hand the call to the link. It is over at once if the link takes no time. -/
def carry (c : SharedClient) (t : Ticket) : SharedClient :=
  let conduct := c.plan.headD .prompt
  let c := { c with plan := c.plan.tail, carried := c.carried ++ [(c.now, t)] }
  if conduct.delay = 0 then c.complete t c.now conduct.failure
  else { c with holder := some ⟨t, c.now, c.now + Pause.length conduct.delay, conduct.failure⟩ }

/-- Serve callers in their order until one keeps the client; the others wait. -/
def serve (c : SharedClient) : List Ticket → SharedClient
  | [] => { c with waiting := [] }
  | t :: others =>
    let c := c.carry t
    if c.holder.isSome then { c with waiting := others } else c.serve others

/-- Issue a call now, and answer its number. -/
def issue (c : SharedClient) (call : Call) : Nat × SharedClient :=
  let ticket : Ticket := ⟨c.issued, c.now, call⟩
  let c := { c with issued := c.issued + 1 }
  (ticket.number,
    if c.holder.isNone then c.serve (c.waiting ++ [ticket])
    else if c.patience = 0 then c.giveUp ticket
    else { c with waiting := c.waiting ++ [ticket] })

def setOnline (c : SharedClient) (online : Bool) : SharedClient :=
  { c with broker := { c.broker with online } }

/-- Whether the waiting caller came before the client went to the one that has
it now. -/
def precedesHolder (c : SharedClient) (t : Ticket) : Bool :=
  c.holder.any fun h => t.issued < h.since

/-- Those among these waiting callers whose patience ends now give up, in their
order. -/
def dropImpatient (c : SharedClient) (among : Ticket → Bool) : SharedClient :=
  let (impatient, patient) := c.waiting.partition fun t => c.deadline t ≤ c.now && among t
  impatient.foldl giveUp { c with waiting := patient }

/-- The client passes on if the link is done with the call that has it. -/
def passOn (c : SharedClient) : SharedClient :=
  match c.holder with
  | none => c
  | some h =>
    if h.till ≤ c.now then
      ({ c with holder := none }.complete h.ticket h.since h.failure).serve c.waiting
    else c

/-- What is due now happens: patience that was running before the client was
taken ends first, then the client passes on, and the other patience ends last. -/
def settle (c : SharedClient) : SharedClient :=
  (c.dropImpatient c.precedesHolder).passOn.dropImpatient fun _ => true

def due? (c : SharedClient) : Option Nat :=
  match c.holder with
  | none => none
  | some h => some (c.waiting.foldl (fun t w => min t (c.deadline w)) h.till)

/-- Go to that moment and let happen what is due. -/
def jump (c : SharedClient) (moment : Nat) : SharedClient :=
  { c with now := moment }.settle

/-- Go from one due moment to the next, at most `fuel` times, and then to the
moment itself. -/
def advanceWith (c : SharedClient) (moment : Nat) : Nat → SharedClient
  | 0 => { c with now := moment }
  | fuel + 1 =>
    match c.due? with
    | some t => if t ≤ moment then (c.jump t).advanceWith moment fuel else { c with now := moment }
    | none => { c with now := moment }

/-- How many moments can be due while nobody calls: each ends a call that
waits or has the client. -/
def pending (c : SharedClient) : Nat :=
  c.waiting.length + (if c.holder.isSome then 1 else 0)

/-- Let time pass up to the moment. -/
def advanceTo (c : SharedClient) (moment : Nat) : SharedClient :=
  c.advanceWith moment c.pending

/-- Let time pass until no call is under way, at most `fuel` due moments. -/
def finishWith (c : SharedClient) : Nat → SharedClient
  | 0 => c
  | fuel + 1 =>
    match c.due? with
    | some t => (c.jump t).finishWith fuel
    | none => c

def finish (c : SharedClient) : SharedClient :=
  c.finishWith c.pending

inductive Action where
  | issue (call : Call)
  | setOnline (online : Bool)
  | wait (milliseconds : Nat)
  deriving DecidableEq, Repr, Inhabited

def act (c : SharedClient) : Action → SharedClient
  | .issue call => (c.issue call).2
  | .setOnline online => c.setOnline online
  | .wait milliseconds => c.advanceTo (c.now + milliseconds)

def run (c : SharedClient) (actions : List Action) : SharedClient :=
  actions.foldl act c

@[simp] theorem run_nil (c : SharedClient) : c.run [] = c := rfl

@[simp] theorem run_cons (c : SharedClient) (action : Action) (actions : List Action) :
    c.run (action :: actions) = (c.act action).run actions := rfl

theorem run_append (c : SharedClient) (first second : List Action) :
    c.run (first ++ second) = (c.run first).run second :=
  List.foldl_append

/-- How the call of that number ended, if it did. -/
def ending? (c : SharedClient) (number : Nat) : Option Ending :=
  c.endings.find? (·.ticket.number == number)

end SharedClient

end UpdateBridge
