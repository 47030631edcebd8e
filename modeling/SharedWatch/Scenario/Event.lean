import SharedWatch.Scenario.Perform

/-!
# Events

What can happen to a hub next, in any order.  A schedule gives turns in one fixed order; here
nothing is fixed.  Between two places at which a loop or a call can wait, any other loop or call
may go on, any command may be given, and time may pass.

* `Hub.step`: what one event does.  An event that is not possible does nothing.
* `Hub.run`: a list of events, one after the other.
* `Hub.start`: the hub in which every run begins.

A loop that is to end may go on for a while: `Event.loop` does not ask whether it has been
cancelled.
-/

namespace SharedWatch

/-- What can happen next. -/
inductive Event
  /-- A command is given; the call that it makes, if it makes one, gets a number. -/
  | command (id : Nat) (c : Command)
  /-- A loop goes one step on. -/
  | loop (id : Nat)
  /-- A loop that is to end ends. -/
  | loopEnd (id : Nat)
  /-- A call takes a turn. -/
  | call (id : Nat)
  /-- Multiplexers that nobody holds any more are dropped. -/
  | collect
  /-- Time passes. -/
  | wait (ms : Nat)

/-- Whether a command is carried out at once.  Moving the clock is not: it lets others go on. -/
def Command.isInstant : Command → Bool
  | .advance _ => false
  | _ => true

namespace Hub

/-- The hub in which every run begins: an empty store whose log keeps `limit` entries. -/
def start (limit : Nat) (draws : Draws) : Hub :=
  { draws, backend := { store := .withHistoryLimit limit } }

/-- One step of a loop, if it can make one. -/
def loopStep (h : Hub) (id : Nat) : Hub :=
  match h.loop? id with
  | none => h
  | some (l, st) => (h.stepLoop l st).getD h

/-- The end of a loop, if it is to end. -/
def loopEnd (h : Hub) (id : Nat) : Hub :=
  match h.loop? id with
  | none => h
  | some (l, st) =>
    if st.cancelled then h.endLoop l
    else if h.hasFired l.parent then (h.haltStream l.stream).2.endLoop l
    else h

/-- What one event does.  The number of a new call is not the number of another one. -/
def step (h : Hub) : Event → Hub
  | .command id c => if c.isInstant && (h.call? id).isNone then (h.perform id c).2 else h
  | .loop id => h.loopStep id
  | .loopEnd id => h.loopEnd id
  | .call id => h.callTurn id
  | .collect => h.collect
  | .wait ms => { h with now := h.now + ms }

/-- What a list of events does. -/
def run (h : Hub) (es : List Event) : Hub := es.foldl step h

theorem run_append (h : Hub) (es fs : List Event) : h.run (es ++ fs) = (h.run es).run fs :=
  List.foldl_append

end Hub

end SharedWatch
