import SharedWatch.Hub.Cycle

/-!
# Calls that may wait

A call runs until it returns or has to wait: for its turn at a manager, or for the first sync of
a stream.

* `subscribe` takes its reference before the wait, and gives it back if the wait or the attaching
  of the handler fails.
* `register` keeps its turn at the manager while it waits, so that all other calls of the manager
  queue behind it.
* `currentOf` gives its turn on before it waits.
* `abort` makes a call go away where it waits.  What it holds at the manager is given on; a
  reference that it has taken is not given back.
-/

namespace SharedWatch.Hub

/-- The pending call of a number. -/
def call? (h : Hub) (id : Nat) : Option PendingCall := h.calls.find? (·.id = id)

/-- Changes the pending call of a number. -/
def updateCall (h : Hub) (id : Nat) (f : PendingCall → PendingCall) : Hub :=
  { h with calls := h.calls.map fun c => if c.id = id then f c else c }

/-- A call waits no longer. -/
def dropCall (h : Hub) (id : Nat) : Hub := { h with calls := h.calls.filter fun c => c.id != id }

/-- A call returns.  A registration gets its name now. -/
def finish (h : Hub) (c : PendingCall) (reply : Reply) : Hub :=
  let h := match reply, c.bind with
    | .registration r, some name =>
      h.rename fun d => { d with registrations := bindName d.registrations name r }
    | _, _ => h
  { h.dropCall c.id with returned := h.returned ++ [(c.id, reply)] }

/-- A call gives on its turn at a manager. -/
def leaveTurn (h : Hub) (g id : Nat) : Hub := h.updateManager g (·.leave id)

/-- A call returns, and gives on its turn at a manager. -/
def finishTurn (h : Hub) (c : PendingCall) (g : Nat) (reply : Reply) : Hub :=
  (h.finish c reply).leaveTurn g c.id

/-! ## Waiting for the first sync -/

/-- How a wait for the first sync ends, if it does now.  The bound counts last. -/
def waitOutcome? (h : Hub) (w : SyncWait) : Option (Except WatchError Unit) :=
  match h.streams[w.stream]? with
  | none => none
  | some st => match st.syncOutcome? (h.hasFired w.token) with
    | some outcome => some outcome
    | none => match w.limit with
      | some (limit, expiry) =>
        if expiry ≤ h.now then some (.error (.syncTimeout st.key limit)) else none
      | none => none

/-- A wait that begins now, bounded as a multiplexer's settings say. -/
def boundedWait (h : Hub) (mux : Multiplexer) (stream token : Nat) : SyncWait :=
  { stream, token, limit := mux.settings.syncTimeout?.map fun d => (d, h.now + d.millis) }

/-- A call begins to wait for the first sync. -/
def beginWait (h : Hub) (c : PendingCall) (w : SyncWait) : Hub :=
  let (ticket, h) := h.takeTicket
  h.updateCall c.id fun c => { c with phase := .syncing w, ticket }

/-! ## Subscribing -/

/-- Why no key can be subscribed to under these names. -/
def keyRefusal? (key : ObjectKey) : Option WatchError :=
  if key.ns = "" then some .emptyNamespace
  else if key.name = "" then some .emptyName
  else none

/-- The wait of a subscriber is over: its handler is attached, or its reference given back. -/
def concludeSubscribe (h : Hub) (m : Nat) (key : ObjectKey) (ref : HandlerRef) (n : Nat)
    (outcome : Except WatchError Unit) : Except WatchError Registration × Hub :=
  let (result, h) := match outcome with
    | .ok () => h.attachHandler n ref
    | .error e => (.error e, h)
  match result with
  | .ok r => (.ok r, (h.deal (.granted r)).say .info "handler subscribed")
  | .error e =>
    (.error e, (h.say .warn ("subscribe failed: " ++ e.message)).release m key n)

/-- Begins to subscribe: a refusal, or the wait for the first sync of the key's stream. -/
def beginSubscribe (h : Hub) (m : Nat) (key : ObjectKey) (token : Nat) :
    Except WatchError SyncWait × Hub :=
  match keyRefusal? key, h.multiplexers[m]? with
  | some e, _ => (.error e, h)
  | none, none => (.error (.noMonitor key), h)
  | none, some mux =>
    let (n, h) := h.acquire m mux key
    (.ok (h.boundedWait mux n token), h)

/-! ## Reading the current object -/

/-- Begins to read the current object of a registration: a refusal, or the wait for the first sync
of its stream. -/
def beginCurrent (h : Hub) (m : Nat) (r : Registration) : Except WatchError SyncWait :=
  if r.issuer ≠ some m then .error (.foreignRegistration r.key r.handler)
  else match h.multiplexers[m]? with
  | none => .error (.noMonitor r.key)
  | some mux => match (mux.monitor? r.key).filter (·.stream = r.stream) with
    | none => .error (.noMonitor r.key)
    | some e => match h.streams[e.stream]? with
      | none => .error (.noMonitor r.key)
      | some st =>
        if st.isStopped then .error (.streamStopped r.key)
        else if st.isRegistered e.stream r then .ok (h.boundedWait mux e.stream mux.root)
        else .error (.noHandler r.key r.handler)

/-- The wait of a reader is over: the current object of its stream, or why there is none. -/
def concludeCurrent (h : Hub) (n : Nat) (outcome : Except WatchError Unit) : Reply :=
  match outcome, h.streams[n]? with
  | .error e, _ => .failed e
  | .ok (), none => .object none
  | .ok (), some st => match st.item? with
    | .error e => .failed e
    | .ok (some o) => .object (some o)
    | .ok none => .failed (.noObject st.key)

/-! ## Turns of a call -/

/-- The wait for the first sync is over. -/
def conclude (h : Hub) (c : PendingCall) (w : SyncWait) (outcome : Except WatchError Unit) : Hub :=
  let h := h.dropCall c.id
  match c.request with
  | .awaitSync _ _ => h.finish c (.ofUnit outcome)
  | .subscribe m key ref _ =>
    let (result, h) := h.concludeSubscribe m key ref w.stream outcome
    h.finish c (match result with | .ok r => .registration r | .error e => .failed e)
  | .register g owner target _ => match h.managers[g]? with
    | none => h
    | some manager =>
      let key := owner.target target
      let (result, h) :=
        h.concludeSubscribe manager.multiplexer key manager.handler w.stream outcome
      match result with
      | .error e => h.finishTurn c g (.failed e)
      | .ok r =>
        let h := (h.say .info "owner registered").updateManager g (·.insert owner r)
        h.finishTurn c g .ok
  | _ => h.finish c (h.concludeCurrent w.stream outcome)

/-- Waits for the first sync, and goes on if the wait is over at once. -/
def waitOrConclude (h : Hub) (c : PendingCall) (w : SyncWait) : Hub :=
  let h := h.beginWait c w
  match h.waitOutcome? w with
  | some outcome => h.conclude c w outcome
  | none => h

/-- Reads the current object of a registration, and waits if need be. -/
def runCurrent (h : Hub) (c : PendingCall) (m : Nat) (r : Registration) : Hub :=
  match h.beginCurrent m r with
  | .error e => h.finish c (.failed e)
  | .ok w => h.waitOrConclude c w

/-- Carries out a request at a manager, whose turn it is. -/
def runTurn (h : Hub) (c : PendingCall) (g : Nat) (manager : Manager) (counted : Option Nat) :
    Hub :=
  match c.request with
  | .register _ owner target token =>
    if manager.contains owner then h.finishTurn c g (.failed (.alreadyRegistered owner))
    else match h.beginSubscribe manager.multiplexer (owner.target target) token with
      | (.error e, h) => h.finishTurn c g (.failed e)
      | (.ok w, h) => h.waitOrConclude c w
  | .unregister _ owner => match manager.registration? owner with
    | none => h.finishTurn c g (.failed (.noOwner owner))
    | some r => match h.unsubscribe manager.multiplexer r with
      | (.error e, h) => h.finishTurn c g (.failed e)
      | (.ok (), h) =>
        let h := (h.updateManager g (·.erase owner)).say .info "owner unregistered"
        h.finishTurn c g .ok
  | .currentOf _ owner => match manager.registration? owner with
    | none => h.finishTurn c g (.failed (.noOwner owner))
    | some r => (h.leaveTurn g c.id).runCurrent c manager.multiplexer r
  | .isRegistered _ owner => h.finishTurn c g (.flag (manager.contains owner))
  | .targetOf _ owner => h.finishTurn c g (.target ((manager.registration? owner).map (·.key)))
  | .size _ => match counted with
    | some n => h.finishTurn c g (.size n manager.owners.isEmpty)
    | none =>
      let n := manager.owners.length
      let h := h.leaveTurn g c.id
      match h.managers[g]? with
      | none => h
      | some manager =>
        let h := h.updateManager g (·.ask c.id)
        if (manager.ask c.id).turn = some c.id then
          h.finishTurn c g (.size n manager.owners.isEmpty)
        else h.updateCall c.id fun c => { c with phase := .queued (some n) }
  | _ => h

/-- Why an owner cannot hold a subscription. -/
def ownerRefusal? (owner : OwnerKey) : Option WatchError :=
  if owner.ns = "" then some .emptyNamespace
  else if owner.name = "" then some .emptyOwner
  else none

/-- Asks for the turn at a manager, and carries the request out if it is got at once. -/
def enterManager (h : Hub) (c : PendingCall) (g : Nat) : Hub :=
  match h.managers[g]? with
  | none => h
  | some manager =>
    let h := h.updateManager g (·.ask c.id)
    if (manager.ask c.id).turn = some c.id then h.runTurn c g manager none
    else h.updateCall c.id fun c => { c with phase := .queued none }

/-- The first turn of a call. -/
def startCall (h : Hub) (c : PendingCall) : Hub :=
  match c.request with
  | .attach n ref => match (h.bypass n .attached).attachHandler n ref with
    | (.ok r, h) => h.finish c (.registration r)
    | (.error e, h) => h.finish c (.failed e)
  | .awaitSync n token => h.waitOrConclude c { stream := n, token, limit := none }
  | .subscribe m key _ token => match h.beginSubscribe m key token with
    | (.error e, h) => h.finish c (.failed e)
    | (.ok w, h) => h.waitOrConclude c w
  | .current m r => h.runCurrent c m r
  | .register g owner _ _ => match ownerRefusal? owner with
    | some e => h.finish c (.failed e)
    | none => h.enterManager c g
  | .unregister g _ | .currentOf g _ | .isRegistered g _ | .targetOf g _ | .size g =>
    h.enterManager c g

/-- One turn of a call. -/
def callTurn (h : Hub) (id : Nat) : Hub :=
  match h.call? id with
  | none => h
  | some c => match c.phase with
    | .fresh => h.startCall c
    | .queued counted => match c.request.manager? with
      | none => h
      | some g => match h.managers[g]? with
        | none => h
        | some manager =>
          if manager.turn = some id then h.runTurn c g manager counted else h
    | .syncing w => match h.waitOutcome? w with
      | none => h
      | some outcome => h.conclude c w outcome

/-- Whether a call can go on. -/
def canProceed (h : Hub) (c : PendingCall) : Bool :=
  match c.phase with
  | .fresh => true
  | .queued _ => match c.request.manager? with
    | none => false
    | some g => (h.managers[g]?).any fun manager => manager.turn = some c.id
  | .syncing w => (h.waitOutcome? w).isSome

/-- Makes a call. -/
def addCall (h : Hub) (id : Nat) (request : Request) (bind : Option String) : Hub :=
  let (ticket, h) := h.takeTicket
  { h with calls := h.calls ++ [{ id, request, ticket, bind }] }

/-- Makes a call go away where it waits: whether it was there. -/
def abort (h : Hub) (id : Nat) : Bool × Hub :=
  match h.call? id with
  | none => (false, h)
  | some c =>
    let h := (c.waitsOn?.elim h fun n => (h.bypass n .aborted).deal (.lost n)).dropCall id
    (true, match c.request.manager? with
      | some g => h.leaveTurn g id
      | none => h)

end SharedWatch.Hub
