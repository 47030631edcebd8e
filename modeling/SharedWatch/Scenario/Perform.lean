import SharedWatch.Scenario.Command

/-!
# Carrying out commands

`Hub.perform` carries out one command as far as that goes without letting others go on.  A call
that may have to wait is only made; it is answered when it returns.
-/

namespace SharedWatch

namespace Hub

/-! ## Names -/

/-- Carries out something with what a name stands for. -/
def withName {α : Type} (h : Hub) (noun : String) (names : Directory → List (String × α))
    (name : String) (f : α → Outcome × Hub) : Outcome × Hub :=
  match findName noun (names h.names) name with
  | .ok a => f a
  | .error u => (.reply (.unbound u), h)

/-- Carries out something with the stream of a name. -/
def withStream (h : Hub) (name : String) (f : Nat → Stream → Outcome × Hub) : Outcome × Hub :=
  h.withName "stream" (·.streams) name fun n => match h.streams[n]? with
    | some st => f n st
    | none => (.reply (.unbound ⟨"stream", name⟩), h)

/-- Carries out something with the multiplexer of a name. -/
def withMultiplexer (h : Hub) (name : String) (f : Nat → Multiplexer → Outcome × Hub) :
    Outcome × Hub :=
  h.withName "multiplexer" (·.multiplexers) name fun m => match h.multiplexers[m]? with
    | some mux => f m mux
    | none => (.reply (.unbound ⟨"multiplexer", name⟩), h)

/-- Carries out something with the registration of a name. -/
def withRegistration (h : Hub) (name : String) (f : Registration → Outcome × Hub) :
    Outcome × Hub :=
  h.withName "registration" (·.registrations) name f

/-- Carries out something with the manager of a name. -/
def withManager (h : Hub) (name : String) (f : Nat → Outcome × Hub) : Outcome × Hub :=
  h.withName "manager" (·.managers) name f

/-- Adds a recording handler that is attached through the thing called `via`. -/
def addRecorder (h : Hub) (plan : RecorderPlan) (via : String) : HandlerRef × Hub :=
  (.recorder h.recorders.length,
    { h with recorders := h.recorders ++ [⟨plan.name, via, plan.reactions⟩] })

/-- Makes a multiplexer under a name. -/
def addMultiplexer (h : Hub) (name : String) (settings : Settings) (root : Nat) : Hub :=
  let m := h.multiplexers.length
  let h : Hub := { h with multiplexers := h.multiplexers ++ [{ settings, root }] }
  h.rename fun d => { d with multiplexers := bindName d.multiplexers name m }

/-- Makes a manager under a name, for the multiplexer of number `m`. -/
def addManager (h : Hub) (name : String) (m : Nat) (plan : Option RecorderPlan) : Hub :=
  let (handler, h) := match plan with
    | none => (HandlerRef.silent, h)
    | some plan => h.addRecorder plan name
  let g := h.managers.length
  let h : Hub := { h with managers := h.managers ++ [{ multiplexer := m, handler }] }
  h.rename fun d => { d with managers := bindName d.managers name g }

/-! ## Commands -/

/-- Makes the call of command `id`. -/
def call (h : Hub) (id : Nat) (request : Request) (bind : Option String) : Outcome × Hub :=
  (.pending, h.addCall id request bind)

/-- Stores an object `n` more times; `i` is the number behind its data the first time. -/
def applyFrom (h : Hub) (key : ObjectKey) (data : String) (i : Nat) : Nat → Hub
  | 0 => h
  | n + 1 => ((h.applyObject key (data ++ toString i)).2).applyFrom key data (i + 1) n

/-- Opens a watch connection under a name; another one of the name is let go. -/
def openWatch (h : Hub) (sel : Selector) (version name : String) : Outcome × Hub :=
  match h.backend.store.watch sel version with
  | (.error f, store) => (.reply (.failed (.store f)), h.updateStore fun _ => store)
  | (.ok connection, store) =>
    let store := (h.names.watches.lookup name).elim store store.release
    (.reply .ok, (h.updateStore fun _ => store).rename fun d =>
      { d with watches := bindName d.watches name connection })

/-- Reads up to `limit` arrivals of a connection: the arrivals, and whether it has ended. -/
def readArrivals (connection : Nat) : Nat → Store → (List Arrival × Bool) × Store
  | 0, s => (([], false), s)
  | limit + 1, s => match s.read connection with
    | (.arrived a, s) =>
      let ((rest, ended), s) := readArrivals connection limit s
      ((a :: rest, ended), s)
    | (.idle, s) => (([], false), s)
    | (.ended, s) => (([], true), s)

/-- Reads what has arrived on a connection. -/
def poll (h : Hub) (connection : Nat) (limit : Option Nat) : Outcome × Hub :=
  let waiting := (h.backend.store.connection? connection).elim 0 (·.pending.length)
  let ((arrived, ended), store) :=
    readArrivals connection ((limit.getD (waiting + 1)).min (waiting + 1)) h.backend.store
  (.arrivals arrived ended, h.updateStore fun _ => store)

/-- The calls that streams have made, by time and selector. -/
def takeCalls (h : Hub) : Outcome × Hub :=
  let before (a b : CallRecord) : Bool :=
    ((compare a.time b.time).then (compare a.selector.text b.selector.text)).isLE
  (.calls (h.backend.calls.reverse.mergeSort before),
    { h with backend := { h.backend with calls := [] } })

/-- Carries out command number `id`, as far as it can without letting others go on. -/
def perform (h : Hub) (id : Nat) : Command → Outcome × Hub
  | .apply key data =>
    let (o, h) := h.applyObject key data
    (.reply (.object (some o)), h)
  | .applyMany key data n =>
    let h := h.applyFrom key data 0 n
    (.number h.backend.store.revision, h)
  | .delete key =>
    let (o, h) := h.deleteObject key
    (.reply (.object o), h)
  | .get key => (.reply (.object (h.backend.store.get? key)), h)
  | .counts =>
    let (watchers, store) := h.backend.store.watcherCount
    (.counts store.revision store.listCalls store.watchCalls watchers, h.updateStore fun _ => store)
  | .revision => (.number h.backend.store.revision, h)
  | .watchers =>
    let (watchers, store) := h.backend.store.watcherCount
    (.number watchers, h.updateStore fun _ => store)
  | .failLists n => (.reply .ok, h.updateStore (·.failLists n))
  | .failWatches n => (.reply .ok, h.updateStore (·.failWatches n))
  | .disconnect => (.reply .ok, h.updateStore (·.disconnect))
  | .compact => (.reply .ok, h.updateStore (·.compact))
  | .list sel => match h.backend.store.list sel with
    | (.ok (items, version), store) => (.listed items version, h.updateStore fun _ => store)
    | (.error f, store) => (.reply (.failed (.store f)), h.updateStore fun _ => store)
  | .watch sel version name => h.openWatch sel version name
  | .poll name limit => h.withName "watch" (·.watches) name fun c => h.poll c limit
  | .dropWatch name => match h.names.watches.lookup name with
    | none => (.reply (.flag false), h)
    | some c => (.reply (.flag true), (h.updateStore (·.release c)).rename fun d =>
        { d with watches := dropName d.watches name })
  | .scriptList call =>
    (.reply .ok, { h with backend := { h.backend with lists := h.backend.lists ++ [call] } })
  | .scriptWatch call =>
    (.reply .ok, { h with backend := { h.backend with watches := h.backend.watches ++ [call] } })
  | .calls => h.takeCalls
  | .advance ms => (.reply .ok, h.advance ms)
  | .cancel name =>
    let (t, h) := h.token (some name)
    (.reply .ok, h.fire t)
  | .abort id =>
    let (found, h) := h.abort id
    (.reply (.flag found), h)
  | .newStream name key policy =>
    let (n, h) := h.createStream key policy none
    (.stream n key, h.rename fun d => { d with streams := bindName d.streams name n })
  | .startStream name token => h.withStream name fun n _ =>
    let (t, h) := h.token token
    let (result, h) := h.startStream n t
    (.reply (.ofUnit result), h)
  | .stopStream name => h.withStream name fun n _ =>
    let (stopped, h) := h.stopStream n
    (.reply (.flag stopped), h)
  | .dropStream name =>
    (.reply (.flag (h.names.streams.lookup name).isSome),
      h.rename fun d => { d with streams := dropName d.streams name })
  | .streamInfo name => h.withStream name fun _ st => (.info st.info, h)
  | .streamText name => h.withStream name fun n st => (.text (st.text (n + 1)), h)
  | .attach stream plan registration => h.withStream stream fun n _ =>
    let (ref, h) := h.addRecorder plan stream
    h.call id (.attach n ref) (some registration)
  | .detach stream registration => h.withStream stream fun n st =>
    h.withRegistration registration fun r =>
      let (reply, h) := h.removeHandler n st r
      (.reply reply, h)
  | .isAttached stream registration => h.withStream stream fun n st =>
    h.withRegistration registration fun r => (.reply (.flag (st.isRegistered n r)), h)
  | .awaitSync stream token => h.withStream stream fun n _ =>
    let (t, h) := h.token token
    h.call id (.awaitSync n t) none
  | .sameRegistration a b => h.withRegistration a fun ra =>
    h.withRegistration b fun rb => (.reply (.flag (ra == rb)), h)
  | .newMultiplexer name settings root =>
    let (t, h) := h.token root
    (.settings settings, h.addMultiplexer name settings t)
  | .dropMultiplexer name =>
    (.reply (.flag (h.names.multiplexers.lookup name).isSome),
      h.rename fun d => { d with multiplexers := dropName d.multiplexers name })
  | .shutdown name => h.withMultiplexer name fun m _ => (.reply .ok, h.shutdown m)
  | .sharing name key => h.withMultiplexer name fun _ mux =>
    (.sharing mux.monitors.length (h.sharing mux key), h)
  | .nameStream name key stream => h.withMultiplexer name fun _ mux =>
    match mux.monitor? key with
    | none => (.streamNumber none, h)
    | some e => (.streamNumber (some e.stream), h.rename fun d =>
        { d with streams := bindName d.streams stream e.stream })
  | .subscribe name key plan registration token => h.withMultiplexer name fun m _ =>
    let (ref, h) := h.addRecorder plan name
    let (t, h) := h.token token
    h.call id (.subscribe m key ref t) (some registration)
  | .unsubscribe name registration => h.withMultiplexer name fun m _ =>
    h.withRegistration registration fun r =>
      let (result, h) := h.unsubscribe m r
      (.reply (.ofUnit result), h)
  | .current name registration => h.withMultiplexer name fun m _ =>
    h.withRegistration registration fun r => h.call id (.current m r) none
  | .newManager name multiplexer plan => h.withMultiplexer multiplexer fun m _ =>
    (.reply (.flag true), h.addManager name m plan)
  | .dropManager name =>
    (.reply (.flag (h.names.managers.lookup name).isSome),
      h.rename fun d => { d with managers := dropName d.managers name })
  | .register name owner target token => h.withManager name fun g =>
    let (t, h) := h.token token
    h.call id (.register g owner target t) none
  | .unregister name owner => h.withManager name fun g => h.call id (.unregister g owner) none
  | .currentOf name owner => h.withManager name fun g => h.call id (.currentOf g owner) none
  | .isRegistered name owner => h.withManager name fun g => h.call id (.isRegistered g owner) none
  | .targetOf name owner => h.withManager name fun g => h.call id (.targetOf g owner) none
  | .size name => h.withManager name fun g => h.call id (.size g) none
  | .metrics => (.text (h.metrics.text "dwatch"), h)
  | .unclear reason => (.unclear reason, h)

end Hub

end SharedWatch
