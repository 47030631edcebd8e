import SharedWatch.Handler
import SharedWatch.Policy

/-!
# Watch streams

A `Stream` watches exactly one key.  It keeps the last object seen in a cache of one place and
hands every change on to its handlers, in the order in which they were attached.

* `Lifecycle`: created, syncing, synced, stopped.  A stream that is synced and loses its
  connection syncs again; stopped is final.
* `replace` reconciles the cache with a full read, `receive` applies one change; each yields the
  callback that the handlers get, if any.
* `syncOutcome?`: how a wait for the first sync ends.  A stream that has ever synced ends it well,
  whatever became of it later.
* `abandon`: the loop has used up its retries.  The cache and the handlers stay.
-/

namespace SharedWatch

/-- The states of a stream. -/
inductive Lifecycle
  /-- Not started. -/
  | created
  /-- Started, and without a current full read. -/
  | syncing
  /-- The cache reflects a full read and the changes since. -/
  | synced
  /-- Stopped for good. -/
  | stopped
deriving DecidableEq

namespace Lifecycle

/-- All states, in order. -/
def all : List Lifecycle := [created, syncing, synced, stopped]

/-- The word for a state. -/
def word : Lifecycle → String
  | created => "created"
  | syncing => "syncing"
  | synced => "synced"
  | stopped => "stopped"

/-- The name of a state. -/
def title : Lifecycle → String
  | created => "Created"
  | syncing => "Syncing"
  | synced => "Synced"
  | stopped => "Stopped"

end Lifecycle

/-- What a stream last saw of its object. -/
structure Cache where
  item : Option Object := none
  /-- The version of the last full read or change. -/
  version : String := ""
  /-- The last failure of the loop since the last full read. -/
  lastError : Option String := none
deriving DecidableEq

/-- A stream of changes of one object. -/
structure Stream where
  key : ObjectKey
  /-- How the loop retries. -/
  policy : RetryPolicy
  /-- The multiplexer that made the stream, if one did. -/
  issuer : Option Nat
  state : Lifecycle := .created
  /-- What was last seen of the object. -/
  cache : Cache := {}
  /-- The handlers with their numbers, in the order in which they were attached. -/
  handlers : List (Nat × HandlerRef) := []
  /-- A full read has succeeded; never reverts. -/
  hasSynced : Bool := false
  /-- The loop is to end. -/
  cancelled : Bool := false
  /-- Why the loop gave up, if it did. -/
  abandoned : Option String := none
deriving DecidableEq

namespace Stream

/-- Whether the stream has been stopped. -/
def isStopped (st : Stream) : Bool := st.state = .stopped

/-- Whether the loop has used up its retries. -/
def isAbandoned (st : Stream) : Bool := st.abandoned.isSome

/-- Whether the stream will never deliver again. -/
def isDead (st : Stream) : Bool := st.isStopped || st.isAbandoned

/-! ## Lifecycle -/

/-- Starts the stream: nothing if it runs already, an error if it has been stopped. -/
def start? (st : Stream) : Except WatchError (Option Stream) :=
  match st.state with
  | .stopped => .error (.streamStopped st.key)
  | .syncing | .synced => .ok none
  | .created => .ok (some { st with state := .syncing })

/-- Stops the stream: its loop is to end, and its handlers are released. -/
def halt (st : Stream) : Stream :=
  if st.isStopped then st else { st with state := .stopped, cancelled := true, handlers := [] }

/-- Moves between the running states; a stopped stream stays stopped. -/
def move (st : Stream) (state : Lifecycle) : Stream :=
  if st.isStopped then st else { st with state }

/-- Gives up for a reason. -/
def abandon (st : Stream) (reason : String) : Stream :=
  { st with abandoned := some reason, cancelled := true }

/-- What a caller is told of a stream whose loop has ended. -/
def terminationError (st : Stream) : WatchError :=
  match st.abandoned with
  | some reason => .abandoned st.key reason
  | none => .streamStopped st.key

/-- How a wait for the first sync ends, if it does now.  Of several reasons the first counts: the
stream has ever synced, its loop is over, the caller has given up. -/
def syncOutcome? (st : Stream) (givenUp : Bool) : Option (Except WatchError Unit) :=
  if st.hasSynced then some (.ok ())
  else if st.cancelled then some (.error st.terminationError)
  else if givenUp then some (.error (.cancelled st.key))
  else none

/-! ## Handlers -/

/-- Attaches a handler under a number. -/
def attach (st : Stream) (handler : Nat) (ref : HandlerRef) : Stream :=
  { st with handlers := st.handlers ++ [(handler, ref)] }

/-- Whether the stream of number `n` has the handler of a registration. -/
def isRegistered (st : Stream) (n : Nat) (r : Registration) : Bool :=
  r.stream == n && st.handlers.any fun h => h.1 = r.handler

/-- Removes the handler of a registration from the stream of number `n`. -/
def detach (st : Stream) (n : Nat) (r : Registration) : Except WatchError Stream :=
  if r.stream = n ∧ r.key = st.key ∧ st.handlers.any fun h => h.1 = r.handler then
    .ok { st with handlers := st.handlers.filter fun h => h.1 != r.handler }
  else .error (.noHandler r.key r.handler)

/-! ## Cache -/

/-- The cached object, unless the stream will never deliver again. -/
def item? (st : Stream) : Except WatchError (Option Object) :=
  if st.isStopped then .error (.streamStopped st.key)
  else match st.abandoned with
    | some reason => .error (.abandoned st.key reason)
    | none => match st.cache.item with
      | some o => if st.key.owns o then .ok (some o) else .error (.keyMismatch st.key o.key)
      | none => .ok none

/-- Notes a failure of the loop. -/
def noteFailure (st : Stream) (f : StoreFailure) : Stream :=
  { st with cache := { st.cache with lastError := some f.message } }

/-- The object of the key in a full read; the last one, should there be several. -/
def pick (st : Stream) (items : List Object) : Option Object :=
  (items.filter st.key.owns).getLast?

/-- The callback that leads from one cached object to another.  Objects of equal version are the
same. -/
def difference : Option Object → Option Object → Option Callback
  | none, none => none
  | none, some new => some (.add new)
  | some old, none => some (.delete old)
  | some old, some new => if old.version = new.version then none else some (.update old new)

/-- Reconciles the cache with a full read: the stream, and the callback for its handlers. -/
def replace (st : Stream) (items : List Object) (version : String) : Stream × Option Callback :=
  if st.isStopped then (st, none)
  else
    let found := st.pick items
    ({ st with cache := { item := found, version }, state := .synced, hasSynced := true },
      difference st.cache.item found)

/-- Applies one change: the stream, and the callback for its handlers.  A change of another
object is no concern of the stream. -/
def receive (st : Stream) (e : Change) : Stream × Option Callback :=
  if st.isStopped || !st.key.owns e.object then (st, none)
  else
    let cache := { st.cache with item := e.after, version := e.object.version }
    let callback := match st.cache.item, e with
      | none, .added new | none, .modified new => some (.add new)
      | some old, .added new | some old, .modified new => some (.update old new)
      | none, .deleted _ => none
      | some _, .deleted last => some (.delete last)
    ({ st with cache }, callback)

/-- A stream of number `n` as it is shown in messages. -/
def text (st : Stream) (n : Nat) : String :=
  "WatchStream \x7b id: " ++ toString n ++ ", key: " ++ st.key.debug ++ ", state: "
    ++ st.state.title ++ ", handlers: " ++ toString st.handlers.length ++ ", .. \x7d"

end Stream

end SharedWatch
