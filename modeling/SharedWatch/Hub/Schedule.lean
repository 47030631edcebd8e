import SharedWatch.Hub.Call

/-!
# Order and time

Loops and calls take turns.  Whoever can go on joins the end of a queue; of several that can go on
at the same moment, the one that has waited longest comes first.

* `settle` lets everybody go on until all have to wait.
* `advance` moves the clock, and stops at every time at which somebody wakes.
* `collect` drops multiplexers that nobody holds any more, neither a name, nor a manager, nor a
  call.
-/

namespace SharedWatch

/-- Somebody who takes turns. -/
inductive Actor
  /-- The loop of a number. -/
  | loop (id : Nat)
  /-- The call of a number. -/
  | call (id : Nat)
deriving DecidableEq

namespace Hub

/-! ## Multiplexers that nobody holds -/

/-- Whether somebody holds a manager: a name or a call. -/
def holdsManager (h : Hub) (g : Nat) : Bool :=
  h.names.managers.any (·.2 = g) || h.calls.any (·.request.manager? = some g)

/-- Whether somebody holds a multiplexer: a name, a call or a manager that is held. -/
def holdsMultiplexer (h : Hub) (m : Nat) : Bool :=
  h.names.multiplexers.any (·.2 = m) || h.calls.any (·.request.multiplexer? = some m)
    || h.managers.zipIdx.any fun (manager, g) => manager.multiplexer = m && h.holdsManager g

/-- Drops the multiplexers that nobody holds any more. -/
def collect (h : Hub) : Hub :=
  (List.range h.multiplexers.length).foldl
    (fun h m => match h.multiplexers[m]? with
      | some mux => if mux.dropped || h.holdsMultiplexer m then h else h.dropMultiplexer m
      | none => h) h

/-! ## Turns -/

/-- One turn of an actor. -/
def resume (h : Hub) : Actor → Hub
  | .loop id => h.turn id
  | .call id => h.callTurn id

/-- The place of a loop in the order of waits.  A loop that is to end has waited for that since its
first turn. -/
def loopTicket (h : Hub) (l : Loop) : Nat :=
  let ending := (h.streams[l.stream]?).any (·.cancelled) || h.hasFired l.parent
  if ending then l.since else l.ticket

/-- Everybody who can go on, with their places in the order of waits. -/
def ready (h : Hub) : List (Nat × Actor) :=
  (h.loops.filter h.canTurn).map (fun l => (h.loopTicket l, Actor.loop l.id))
    ++ (h.calls.filter h.canProceed).map fun c => (c.ticket, Actor.call c.id)

/-- Everybody who can go on and is not in the queue, the longest wait first. -/
def awakened (h : Hub) (queue : List Actor) : List Actor :=
  let fresh := h.ready.filter fun e => !queue.contains e.2
  (fresh.mergeSort fun a b => a.1 ≤ b.1).map (·.2)

/-- Lets the queue take turns until everybody has to wait, for `turns` turns at most. -/
def runQueue : Nat → List Actor → Hub → Hub
  | 0, _, h => h
  | turns + 1, queue, h =>
    match queue ++ h.awakened queue with
    | [] => h
    | a :: rest => runQueue turns rest (h.resume a).collect

/-- More turns than anybody takes at one time. -/
def turnLimit : Nat := 1000000

/-- Lets everybody go on until all have to wait. -/
def settle (h : Hub) : Hub := runQueue turnLimit [] h.collect

/-! ## Time -/

/-- When a call wakes by itself, if it does. -/
def callWakeTime? (c : PendingCall) : Option Nat :=
  match c.phase with
  | .syncing w => w.limit.map (·.2)
  | _ => none

/-- The next time at which somebody wakes by itself. -/
def nextWakeTime? (h : Hub) : Option Nat :=
  ((h.loops.filterMap Loop.wakeTime? ++ h.calls.filterMap callWakeTime?).filter (h.now < ·)).min?

/-- Moves the clock to a time, by way of every time at which somebody wakes, for `stops` of them
at most. -/
def advanceTo (target : Nat) : Nat → Hub → Hub
  | 0, h => { h with now := target }.settle
  | stops + 1, h => match h.nextWakeTime? with
    | some t =>
      if t ≤ target then advanceTo target stops { h with now := t }.settle
      else { h with now := target }.settle
    | none => { h with now := target }.settle

/-- Moves the clock by a number of milliseconds.  The clock stops at most once at each. -/
def advance (h : Hub) (ms : Nat) : Hub := advanceTo (h.now + ms) ms h

end Hub

end SharedWatch
