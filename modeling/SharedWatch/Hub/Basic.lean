import SharedWatch.Hub.Record
import SharedWatch.Manager
import SharedWatch.Metrics
import SharedWatch.Multiplexer
import SharedWatch.Stream.Cycle

/-!
# The hub

A `Hub` is everything together: a store, streams with their loops, multiplexers, owner tables,
calls that have not returned yet, and a clock.

* Streams, multiplexers, managers, recorders and tokens are known by number, and numbers are never
  used twice.  A `Directory` gives names to some of them.
* Whatever happens is recorded: handler calls in the `log`, messages in the `trace`.
-/

namespace SharedWatch

/-- Everything together. -/
structure Hub where
  /-- The time in milliseconds. -/
  now : Nat := 0
  /-- How many waits have begun. -/
  tickets : Nat := 0
  /-- The source of random numbers. -/
  draws : Draws := {}
  /-- The store that streams read. -/
  backend : Backend := {}
  /-- The streams, by number. -/
  streams : List Stream := []
  /-- The loops that run. -/
  loops : List Loop := []
  /-- How many loops have been started. -/
  started : Nat := 0
  /-- How many tokens there are. -/
  tokens : Nat := 0
  /-- The tokens that have fired. -/
  fired : List Nat := []
  /-- The multiplexers, by number. -/
  multiplexers : List Multiplexer := []
  /-- The managers, by number. -/
  managers : List Manager := []
  /-- The recording handlers, by number. -/
  recorders : List Recorder := []
  /-- How many handlers have been attached. -/
  attached : Nat := 0
  /-- The calls that have not returned. -/
  calls : List PendingCall := []
  /-- The calls that have returned, with their replies. -/
  returned : List (Nat × Reply) := []
  /-- The metrics. -/
  metrics : Metrics := {}
  /-- The names. -/
  names : Directory := {}
  /-- Handler calls, in order. -/
  log : List LogEntry := []
  /-- Messages, the latest first. -/
  trace : List TraceLine := []
  /-- What has been done past multiplexers, the latest first.  Nothing that runs reads it. -/
  bypasses : List Bypass := []
  /-- What has become of the references to shared streams, the latest first.  Nothing that runs
  reads it. -/
  dealings : List Dealing := []

namespace Hub

/-- Records a message. -/
def say (h : Hub) (level : Level) (message : String) : Hub :=
  { h with trace := ⟨level, message⟩ :: h.trace }

/-- Records a handler call. -/
def record (h : Hub) (e : LogEntry) : Hub := { h with log := h.log ++ [e] }

/-- Changes the stream of a number. -/
def updateStream (h : Hub) (n : Nat) (f : Stream → Stream) : Hub :=
  { h with streams := h.streams.modify n f }

/-- Whether the stream of a number is one that a multiplexer has made. -/
def isShared (h : Hub) (n : Nat) : Bool := (h.streams[n]?).any (·.issuer.isSome)

/-- Records what is done to the stream of a number past its multiplexer, if it has one. -/
def bypass (h : Hub) (n : Nat) (b : Bypass) : Hub :=
  if h.isShared n then { h with bypasses := b :: h.bypasses } else h

/-- Changes the multiplexer of a number. -/
def updateMultiplexer (h : Hub) (n : Nat) (f : Multiplexer → Multiplexer) : Hub :=
  { h with multiplexers := h.multiplexers.modify n f }

/-- Changes the manager of a number. -/
def updateManager (h : Hub) (n : Nat) (f : Manager → Manager) : Hub :=
  { h with managers := h.managers.modify n f }

/-- Changes the names. -/
def rename (h : Hub) (f : Directory → Directory) : Hub := { h with names := f h.names }

/-- Changes the store. -/
def updateStore (h : Hub) (f : Store → Store) : Hub :=
  { h with backend := { h.backend with store := f h.backend.store } }

/-- Moves the gauge of live registrations. -/
def addLive (h : Hub) (n : Int) : Hub :=
  { h with metrics := { h.metrics with liveRegistrations := h.metrics.liveRegistrations + n } }

/-- Records what becomes of references, and counts it in the gauge of live registrations. -/
def deal (h : Hub) (d : Dealing) : Hub := { h.addLive d.gauge with dealings := d :: h.dealings }

/-- Moves the gauge of running loops. -/
def addActive (h : Hub) (n : Int) : Hub :=
  { h with metrics := { h.metrics with activeStreams := h.metrics.activeStreams + n } }

/-- Counts a restart. -/
def countRestart (h : Hub) (reason : String) : Hub :=
  { h with metrics := { h.metrics with restarts := h.metrics.restarts.count reason } }

/-- Counts a handler call. -/
def countDelivery (h : Hub) (kind : String) : Hub :=
  { h with metrics := { h.metrics with delivered := h.metrics.delivered.count kind } }

/-- The place of a wait that begins now in the order of all waits. -/
def takeTicket (h : Hub) : Nat × Hub := (h.tickets, { h with tickets := h.tickets + 1 })

/-! ## Tokens -/

/-- Whether a token has fired. -/
def hasFired (h : Hub) (token : Nat) : Bool := h.fired.contains token

/-- Fires a token. -/
def fire (h : Hub) (token : Nat) : Hub := { h with fired := token :: h.fired }

/-- A token that has not fired and that nobody else knows. -/
def newToken (h : Hub) : Nat × Hub := (h.tokens, { h with tokens := h.tokens + 1 })

/-- The token of a name, made when the name is first used; without a name a token of its own. -/
def token (h : Hub) : Option String → Nat × Hub
  | none => h.newToken
  | some name => match h.names.tokens.lookup name with
    | some t => (t, h)
    | none =>
      let (t, h) := h.newToken
      (t, h.rename fun d => { d with tokens := bindName d.tokens name t })

/-! ## Loops -/

/-- Changes the loop of a number. -/
def updateLoop (h : Hub) (id : Nat) (f : Loop → Loop) : Hub :=
  { h with loops := h.loops.map fun l => if l.id = id then f l else l }

/-- The loop moves on to a new wait. -/
def enter (h : Hub) (id : Nat) (stage : Stage) : Hub :=
  let (ticket, h) := h.takeTicket
  h.updateLoop id fun l => { l with stage, ticket }

/-- The loop ends, and lets go of its connection. -/
def endLoop (h : Hub) (l : Loop) : Hub :=
  let h := { h with loops := h.loops.filter fun k => k.id != l.id }
  match l.stage with
  | .consuming feed _ => { h with backend := h.backend.release feed }
  | _ => h

end Hub

end SharedWatch
