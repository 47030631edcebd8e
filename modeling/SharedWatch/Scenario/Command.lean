import SharedWatch.Hub.Schedule

/-!
# Commands

A scenario is a list of commands to a hub, in which things are known by name.

* `Command`: what can be asked for.
* `Outcome`: what is answered.
* `StreamInfo`, `SharingInfo`: what a stream, and the sharing of a key, look like from outside.
-/

namespace SharedWatch

/-- A recording handler to be attached. -/
structure RecorderPlan where
  /-- The name under which calls are recorded. -/
  name : String
  /-- The reactions to calls, once each. -/
  reactions : List (CallbackKind × Action) := []

/-- What can be asked for. -/
inductive Command
  | apply (key : ObjectKey) (data : String)
  /-- Stores an object a number of times, each time with the next number behind its data. -/
  | applyMany (key : ObjectKey) (data : String) (n : Nat)
  | delete (key : ObjectKey)
  | get (key : ObjectKey)
  /-- Counts what the store has been asked for. -/
  | counts
  | revision
  /-- Counts the open watch connections. -/
  | watchers
  | failLists (n : Nat)
  | failWatches (n : Nat)
  | disconnect
  | compact
  | list (selector : Selector)
  /-- Opens a watch connection under a name. -/
  | watch (selector : Selector) (version name : String)
  /-- Reads what has arrived on a connection, up to a number of arrivals. -/
  | poll (name : String) (limit : Option Nat)
  | dropWatch (name : String)
  /-- Prepares the answer to a full read of a stream. -/
  | scriptList (call : ScriptedCall (List Object × String))
  /-- Prepares the answer to a watch of a stream. -/
  | scriptWatch (call : ScriptedCall (List FeedItem × Bool))
  /-- Tells which calls streams have made since this was last asked. -/
  | calls
  /-- Moves the clock. -/
  | advance (ms : Nat)
  /-- Fires a token. -/
  | cancel (token : String)
  /-- Makes the call of an earlier command go away. -/
  | abort (id : Nat)
  | newStream (name : String) (key : ObjectKey) (policy : RetryPolicy)
  /-- Starts a stream, which stops when a token fires. -/
  | startStream (name : String) (token : Option String)
  | stopStream (name : String)
  /-- Forgets the name of a stream. -/
  | dropStream (name : String)
  | streamInfo (name : String)
  /-- Shows a stream as messages do. -/
  | streamText (name : String)
  /-- Attaches a recording handler to a stream. -/
  | attach (stream : String) (handler : RecorderPlan) (registration : String)
  | detach (stream registration : String)
  | isAttached (stream registration : String)
  /-- Waits for the first sync of a stream. -/
  | awaitSync (stream : String) (token : Option String)
  | sameRegistration (a b : String)
  /-- Makes a multiplexer, whose streams stop when a token fires. -/
  | newMultiplexer (name : String) (settings : Settings) (root : Option String)
  /-- Forgets the name of a multiplexer. -/
  | dropMultiplexer (name : String)
  | shutdown (name : String)
  /-- Looks at the sharing of a key. -/
  | sharing (multiplexer : String) (key : ObjectKey)
  /-- Gives a name to the stream of a key. -/
  | nameStream (multiplexer : String) (key : ObjectKey) (stream : String)
  /-- Subscribes a recording handler to a key. -/
  | subscribe (multiplexer : String) (key : ObjectKey) (handler : RecorderPlan)
      (registration : String) (token : Option String)
  | unsubscribe (multiplexer registration : String)
  | current (multiplexer registration : String)
  /-- Makes a manager for a multiplexer, whose subscriptions have a handler. -/
  | newManager (name multiplexer : String) (handler : Option RecorderPlan)
  /-- Forgets the name of a manager. -/
  | dropManager (name : String)
  /-- Subscribes an owner to a target. -/
  | register (manager : String) (owner : OwnerKey) (target : String) (token : Option String)
  | unregister (manager : String) (owner : OwnerKey)
  /-- Reads the current object of an owner's subscription. -/
  | currentOf (manager : String) (owner : OwnerKey)
  | isRegistered (manager : String) (owner : OwnerKey)
  /-- Asks for the key of an owner's subscription. -/
  | targetOf (manager : String) (owner : OwnerKey)
  | size (manager : String)
  | metrics
  /-- Stands for a command that could not be understood. -/
  | unclear (reason : String)

/-! ## What is seen from outside -/

/-- A stream as it is seen from outside. -/
structure StreamInfo where
  state : Lifecycle
  hasSynced : Bool
  isAbandoned : Bool
  handlers : Nat
  /-- What was last seen of the object. -/
  cache : Cache
  /-- What a reader of the cached object gets. -/
  item : Except WatchError (Option Object)

/-- A stream as it is seen from outside. -/
def Stream.info (st : Stream) : StreamInfo :=
  { state := st.state, hasSynced := st.hasSynced, isAbandoned := st.isAbandoned,
    handlers := st.handlers.length, cache := st.cache, item := st.item? }

/-- The shared stream of a key as it is seen from outside. -/
structure SharedStream where
  stream : Nat
  state : Lifecycle
  handlers : Nat

/-- The sharing of a key as it is seen from outside. -/
structure SharingInfo where
  refcount : Nat
  /-- Whether there is a stream. -/
  isShared : Bool
  shared : Option SharedStream

/-- The sharing of a key as it is seen from outside. -/
def Hub.sharing (h : Hub) (mux : Multiplexer) (key : ObjectKey) : SharingInfo :=
  { refcount := mux.refcount key
    isShared := (mux.monitor? key).isSome
    shared := do
      let e ← mux.monitor? key
      let st ← h.streams[e.stream]?
      return ⟨e.stream, st.state, st.handlers.length⟩ }

/-! ## Answers -/

/-- What is answered. -/
inductive Outcome
  | reply (r : Reply)
  /-- The call waits. -/
  | pending
  | number (n : Nat)
  | text (s : String)
  /-- What the store has been asked for. -/
  | counts (revision lists watches watchers : Nat)
  /-- A full read. -/
  | listed (items : List Object) (version : String)
  /-- What has arrived on a connection, and whether it has ended. -/
  | arrivals (arrived : List Arrival) (ended : Bool)
  /-- The calls that streams have made. -/
  | calls (made : List CallRecord)
  /-- The number and the key of a new stream. -/
  | stream (number : Nat) (key : ObjectKey)
  /-- The number of a stream, or that there is none. -/
  | streamNumber (number : Option Nat)
  | info (i : StreamInfo)
  | settings (s : Settings)
  /-- The number of shared streams, and a look at the sharing of a key. -/
  | sharing (streams : Nat) (i : SharingInfo)
  /-- The command could not be understood. -/
  | unclear (reason : String)

end SharedWatch
