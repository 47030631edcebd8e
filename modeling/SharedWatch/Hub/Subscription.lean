import SharedWatch.Hub.Lifecycle

/-!
# Sharing streams

How subscribers take references to the stream of a key, and give them back.

* `acquire` takes a reference before the subscriber waits for the first sync, and makes the stream
  if there is none, or none that will deliver again; the old one is retired.
* `release` gives back the reference of a subscriber that failed.
* `unsubscribe` gives back the reference of a registration.  A registration of a stream that is
  no longer the key's is accepted, and changes nothing.
* With the last reference the stream is stopped and forgotten.
-/

namespace SharedWatch.Hub

/-- Makes and starts the stream of a key for a multiplexer: its number. -/
def openStream (h : Hub) (m : Nat) (mux : Multiplexer) (key : ObjectKey) : Nat × Hub :=
  let (n, h) := h.createStream key mux.settings.listWatch (some m)
  let (_, h) := h.startStream n mux.root
  (n, h.say .info "watch stream created")

/-- Stops a stream that has been replaced, and counts its references off. -/
def retire (h : Hub) (old : Monitor) : Hub :=
  let (_, h) := h.stopStream old.stream
  (h.deal (.closed old)).say .warn "replaced dead watch stream"

/-- Whether a stream will deliver again. -/
def isAlive (h : Hub) (n : Nat) : Bool := (h.streams[n]?).any fun st => !st.isDead

/-- Takes a reference to the stream of a key: the number of the stream. -/
def acquire (h : Hub) (m : Nat) (mux : Multiplexer) (key : ObjectKey) : Nat × Hub :=
  match mux.monitor? key with
  | some e =>
    if h.isAlive e.stream then
      (e.stream, h.updateMultiplexer m (·.put key { e with refcount := e.refcount + 1 }))
    else
      let (n, h) := h.openStream m mux key
      let h := h.updateMultiplexer m (·.put key ⟨n, 1⟩)
      (n, h.retire e)
  | none =>
    let (n, h) := h.openStream m mux key
    (n, h.updateMultiplexer m (·.put key ⟨n, 1⟩))

/-- Gives back a reference to the stream of number `n`, if it is still the key's: whether that was
the last one, with which the stream is stopped and forgotten. -/
def giveBack (h : Hub) (m : Nat) (mux : Multiplexer) (key : ObjectKey) (e : Monitor) :
    Bool × Hub :=
  if e.refcount ≤ 1 then
    let h := h.updateMultiplexer m (·.remove key)
    (true, (h.stopStream e.stream).2)
  else (false, h.updateMultiplexer m fun _ => mux.put key { e with refcount := e.refcount - 1 })

/-- Gives back the reference of a subscriber that failed. -/
def release (h : Hub) (m : Nat) (key : ObjectKey) (n : Nat) : Hub :=
  match h.multiplexers[m]? with
  | none => h
  | some mux => match mux.monitor? key with
    | none => h
    | some e =>
      if e.stream = n then
        let (last, h) := h.giveBack m mux key e
        if last then h.say .info "watch stream removed after failed subscribe" else h
      else h

/-- Takes the handler of a registration off its stream; a stopped stream has none any more. -/
def leaveStream (h : Hub) (n : Nat) (st : Stream) (r : Registration) : Except WatchError Hub :=
  if st.isStopped then .ok (h.say .warn "watch stream was stopped externally")
  else (st.detach n r).map fun st' => h.updateStream n fun _ => st'

/-- Gives back the reference of a registration whose handler has left, which it may have done when
the stream was stopped. -/
def closeRegistration (h : Hub) (m : Nat) (mux : Multiplexer) (r : Registration) (late : Bool)
    (e : Monitor) : Hub :=
  let h := (h.deal (.returned r late)).say .info "handler unsubscribed"
  let (last, h) := h.giveBack m mux r.key e
  if last then h.say .info "watch stream removed" else h

/-- Ends a registration, and gives back its reference. -/
def unsubscribe (h : Hub) (m : Nat) (r : Registration) : Except WatchError Unit × Hub :=
  if r.issuer ≠ some m then (.error (.foreignRegistration r.key r.handler), h)
  else match h.multiplexers[m]? with
  | none => (.ok (), h)
  | some mux =>
    match (mux.monitor? r.key).filter (·.stream = r.stream) with
    | none => (.ok (), h.say .warn "watch stream already removed")
    | some e => match h.streams[e.stream]? with
      | none => (.ok (), h)
      | some st => match h.leaveStream e.stream st r with
        | .error failure => (.error failure, h)
        | .ok h => (.ok (), h.closeRegistration m mux r st.isStopped e)

/-- Stops every stream of a multiplexer, forgets all keys and fires the root token. -/
def shutdown (h : Hub) (m : Nat) : Hub :=
  match h.multiplexers[m]? with
  | none => h
  | some mux =>
    let h := h.updateMultiplexer m fun mux => { mux with monitors := [], isShut := true }
    let h := mux.monitors.foldl
      (fun h (_, e) => (h.stopStream e.stream).2.deal (.closed e)) h
    (h.fire mux.root).say .info "keyed multiplexer shut down"

/-- Nobody holds a multiplexer any more: its streams stop. -/
def dropMultiplexer (h : Hub) (m : Nat) : Hub :=
  match h.multiplexers[m]? with
  | none => h
  | some mux =>
    let h := h.updateMultiplexer m fun mux => { mux with monitors := [], dropped := true }
    mux.monitors.foldl (fun h (_, e) => (h.stopStream e.stream).2.deal (.dropped e)) h

end SharedWatch.Hub
