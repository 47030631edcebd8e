import SharedWatch.Handler

/-!
# Owner tables

A `Manager` keeps an owner table: for each owner, the one registration it holds.  Its operations
take turns, in the order in which they asked: `ask` takes the turn or queues for it, `leave` gives
it on to the call that has waited longest.
-/

namespace SharedWatch

/-- One subscription for each owner. -/
structure Manager where
  /-- The number of the multiplexer that the subscriptions are made with. -/
  multiplexer : Nat
  /-- The handler of new subscriptions. -/
  handler : HandlerRef
  /-- The owner table, at most one registration for each owner. -/
  owners : List (OwnerKey × Registration) := []
  /-- The call whose turn it is. -/
  turn : Option Nat := none
  /-- The calls that wait for their turn, first come first. -/
  queue : List Nat := []
deriving DecidableEq

namespace Manager

/-- The registration of an owner. -/
def registration? (g : Manager) (o : OwnerKey) : Option Registration := g.owners.lookup o

/-- Whether an owner holds a registration. -/
def contains (g : Manager) (o : OwnerKey) : Bool := (g.registration? o).isSome

/-- Enters a registration. -/
def insert (g : Manager) (o : OwnerKey) (r : Registration) : Manager :=
  { g with owners := g.owners ++ [(o, r)] }

/-- Removes an owner. -/
def erase (g : Manager) (o : OwnerKey) : Manager :=
  { g with owners := g.owners.filter fun e => e.1 != o }

/-- Asks for the turn: the call gets it if nobody has it, and queues otherwise. -/
def ask (g : Manager) (call : Nat) : Manager :=
  match g.turn with
  | none => { g with turn := some call }
  | some _ => { g with queue := g.queue ++ [call] }

/-- Gives the turn on to the call that has waited longest. -/
def pass (g : Manager) : Manager :=
  match g.queue with
  | [] => { g with turn := none }
  | c :: rest => { g with turn := some c, queue := rest }

/-- A call goes away: it gives on its turn, or leaves the queue. -/
def leave (g : Manager) (call : Nat) : Manager :=
  if g.turn = some call then g.pass else { g with queue := g.queue.filter (· != call) }

end Manager

end SharedWatch
