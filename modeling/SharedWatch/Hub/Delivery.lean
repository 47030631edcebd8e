import SharedWatch.Hub.Subscription

/-!
# Delivery

A stream calls its handlers one after the other, in the order in which they were attached.  Those
that are attached when the delivery begins get exactly one call each, whatever the handlers do in
the meantime.

A recorder may react to a call with an `Action`.  Actions are carried out on the spot; none of
them calls a handler, so deliveries never overlap.
-/

namespace SharedWatch.Hub

/-- Carries out an operation on the stream of a name. -/
def onStream (h : Hub) (name : String) (f : Nat → Stream → Reply × Hub) : Reply × Hub :=
  match findName "stream" h.names.streams name with
  | .error u => (.unbound u, h)
  | .ok n => match h.streams[n]? with
    | none => (.unbound ⟨"stream", name⟩, h)
    | some st => f n st

/-- Carries out an operation on the registration of a name. -/
def onRegistration (h : Hub) (name : String) (f : Registration → Reply × Hub) : Reply × Hub :=
  match findName "registration" h.names.registrations name with
  | .error u => (.unbound u, h)
  | .ok r => f r

/-- Carries out an operation on the multiplexer of a name. -/
def onMultiplexer (h : Hub) (name : String) (f : Nat → Multiplexer → Reply × Hub) :
    Reply × Hub :=
  match findName "multiplexer" h.names.multiplexers name with
  | .error u => (.unbound u, h)
  | .ok m => match h.multiplexers[m]? with
    | none => (.unbound ⟨"multiplexer", name⟩, h)
    | some mux => f m mux

/-- Removes a registration from the stream of a number. -/
def removeHandler (h : Hub) (n : Nat) (st : Stream) (r : Registration) : Reply × Hub :=
  match st.detach n r with
  | .error e => (.failed e, h)
  | .ok st' => (.ok, (h.bypass n .detached).updateStream n fun _ => st')

/-- Stores an object. -/
def applyObject (h : Hub) (key : ObjectKey) (data : String) : Object × Hub :=
  let (o, store) := h.backend.store.apply key data
  (o, h.updateStore fun _ => store)

/-- Removes an object. -/
def deleteObject (h : Hub) (key : ObjectKey) : Option Object × Hub :=
  let (o, store) := h.backend.store.delete key
  (o, h.updateStore fun _ => store)

/-- Carries out an action. -/
def act (h : Hub) : Action → Reply × Hub
  | .start stream token => h.onStream stream fun n _ =>
    let (t, h) := h.token token
    let (result, h) := h.startStream n t
    (.ofUnit result, h)
  | .stop stream => h.onStream stream fun n _ =>
    let (stopped, h) := h.stopStream n
    (.flag stopped, h)
  | .remove stream registration => h.onStream stream fun n st =>
    h.onRegistration registration fun r => h.removeHandler n st r
  | .unsubscribe multiplexer registration => h.onMultiplexer multiplexer fun m _ =>
    h.onRegistration registration fun r =>
      let (result, h) := h.unsubscribe m r
      (.ofUnit result, h)
  | .shutdown multiplexer => h.onMultiplexer multiplexer fun m _ => (.ok, h.shutdown m)
  | .cancel name =>
    let (t, h) := h.token (some name)
    (.ok, h.fire t)
  | .apply key data =>
    let (o, h) := h.applyObject key data
    (.object (some o), h)
  | .delete key =>
    let (o, h) := h.deleteObject key
    (.object o, h)
  | .item stream => h.onStream stream fun _ st => (.ofItem st.item?, h)
  | .disconnect => (.ok, h.updateStore (·.disconnect))
  | .compact => (.ok, h.updateStore (·.compact))
  | .failLists n => (.ok, h.updateStore (·.failLists n))
  | .failWatches n => (.ok, h.updateStore (·.failWatches n))
  | .both first second =>
    let (_, h) := h.act first
    h.act second

/-- Lets a recorder react to a call. -/
def react (h : Hub) (entry : LogEntry) (number : Nat) (kind : CallbackKind) : Hub :=
  match h.recorders[number]? with
  | none => h
  | some r =>
    let (action, r) := r.react kind
    let h := { h with recorders := h.recorders.set number r }
    match action with
    | none => h
    | some action =>
      let (result, h) := h.act action
      h.record { entry with event := .reacted action.word result }

/-- Calls one handler of the stream of number `n`. -/
def invoke (h : Hub) (n : Nat) (handler : Nat × HandlerRef) (c : Callback) : Hub :=
  let entry : LogEntry :=
    { stream := n, handler := handler.1, ref := handler.2, about := c.object.key,
      event := .called c }
  let h := h.record entry
  match handler.2 with
  | .silent => h
  | .recorder number => h.react entry number c.kind

/-- Calls the handlers that are attached to the stream of number `n`, once each and in order. -/
def deliver (h : Hub) (n : Nat) (c : Callback) : Hub :=
  match h.streams[n]? with
  | none => h
  | some st => st.handlers.foldl (fun h handler => (h.invoke n handler c).countDelivery c.kind.word) h

/-- Enters a handler at the stream of number `n`, under a number of its own. -/
def addHandler (h : Hub) (n : Nat) (ref : HandlerRef) : Hub :=
  let handler := h.attached + 1
  { h with attached := handler }.updateStream n (·.attach handler ref)

/-- Attaches a handler to the stream of number `n`, which first tells it of the cached object. -/
def attachHandler (h : Hub) (n : Nat) (ref : HandlerRef) : Except WatchError Registration × Hub :=
  match h.streams[n]? with
  | none => (.error (.streamStopped ⟨"", ""⟩), h)
  | some st =>
    if st.isStopped then (.error (.streamStopped st.key), h)
    else
      let h := h.addHandler n ref
      let handler := h.attached
      let h := match st.cache.item with
        | some o => (h.invoke n (handler, ref) (.add o)).countDelivery "replay"
        | none => h
      (.ok { key := st.key, handler, stream := n, issuer := st.issuer }, h)

end SharedWatch.Hub
