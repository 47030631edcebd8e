import SharedWatch.Object

/-!
# Handlers

* `Callback`: one call of a handler, with what it is told.
* `CallbackSet`: a handler made of up to three functions; a call without a function for its kind
  does nothing.
* `Recorder`: a handler that records its calls, and may react to some of them, once each, with an
  `Action` on the system it is part of.
* `Registration`: the token that binds a handler to the stream of one key.
-/

namespace SharedWatch

/-- The kinds of callbacks. -/
inductive CallbackKind
  | add
  | update
  | delete
deriving DecidableEq

/-- The word for a kind of callback. -/
def CallbackKind.word : CallbackKind → String
  | add => "add"
  | update => "update"
  | delete => "delete"

/-- The kind of callback that a word stands for. -/
def CallbackKind.ofWord? (s : String) : Option CallbackKind :=
  [add, update, delete].find? (·.word == s)

/-- One call of a handler. -/
inductive Callback
  /-- An object appeared. -/
  | add (o : Object)
  /-- An object was replaced. -/
  | update (old new : Object)
  /-- An object disappeared. -/
  | delete (o : Object)
deriving DecidableEq

namespace Callback

/-- The kind of a callback. -/
def kind : Callback → CallbackKind
  | add _ => .add
  | update _ _ => .update
  | delete _ => .delete

/-- The object that a callback is about: the new one of an update. -/
def object : Callback → Object
  | add o | update _ o | delete o => o

/-- What the handler knows to exist after a callback. -/
def after : Callback → Option Object
  | add o | update _ o => some o
  | delete _ => none

end Callback

/-- A handler made of up to three functions. -/
structure CallbackSet (ε : Type) where
  onAdd : Option (Object → ε) := none
  onUpdate : Option (Object → Object → ε) := none
  onDelete : Option (Object → ε) := none

namespace CallbackSet

/-- Makes a call; without a function for its kind nothing happens. -/
def call {ε : Type} (h : CallbackSet ε) : Callback → Option ε
  | .add o => h.onAdd.map (· o)
  | .update old new => h.onUpdate.map (· old new)
  | .delete o => h.onDelete.map (· o)

/-- Sets the function of one kind, in place of an earlier one. -/
def set {ε : Type} (h : CallbackSet ε) (kind : CallbackKind) (f : Callback → ε) :
    CallbackSet ε :=
  match kind with
  | .add => { h with onAdd := some fun o => f (.add o) }
  | .update => { h with onUpdate := some fun old new => f (.update old new) }
  | .delete => { h with onDelete := some fun o => f (.delete o) }

/-- A handler as it is shown in messages: which functions are set. -/
def text {ε : Type} (h : CallbackSet ε) : String :=
  "HandlerFns \x7b add: " ++ toString h.onAdd.isSome ++ ", update: "
    ++ toString h.onUpdate.isSome ++ ", delete: " ++ toString h.onDelete.isSome ++ " \x7d"

end CallbackSet

/-- What a recorder does in reaction to a call, on things known by name. -/
inductive Action
  /-- Starts a stream, which stops when a token fires. -/
  | start (stream : String) (token : Option String)
  | stop (stream : String)
  /-- Removes a registration from a stream. -/
  | remove (stream registration : String)
  /-- Gives a registration back to a multiplexer. -/
  | unsubscribe (multiplexer registration : String)
  | shutdown (multiplexer : String)
  | cancel (token : String)
  | apply (key : ObjectKey) (data : String)
  | delete (key : ObjectKey)
  /-- Reads the cached object of a stream. -/
  | item (stream : String)
  | disconnect
  | compact
  | failLists (n : Nat)
  | failWatches (n : Nat)
  | both (first second : Action)

/-- The word for an action. -/
def Action.word : Action → String
  | start _ _ => "start"
  | stop _ => "stop"
  | remove _ _ => "remove"
  | unsubscribe _ _ => "unsubscribe"
  | shutdown _ => "shutdown"
  | cancel _ => "cancel"
  | apply _ _ => "apply"
  | delete _ => "delete"
  | item _ => "item"
  | disconnect => "disconnect"
  | compact => "compact"
  | failLists _ => "fail_lists"
  | failWatches _ => "fail_watches"
  | both _ _ => "both"

/-- A handler that records its calls and may react to them. -/
structure Recorder where
  /-- The name under which calls are recorded. -/
  name : String
  /-- The name of the stream, multiplexer or manager through which the recorder is attached. -/
  via : String
  /-- Reactions still to come, each to one call of its kind. -/
  reactions : List (CallbackKind × Action) := []

/-- Takes the first reaction to a kind of call. -/
def Recorder.react (r : Recorder) (kind : CallbackKind) : Option Action × Recorder :=
  match r.reactions.find? (·.1 = kind) with
  | none => (none, r)
  | some (_, action) =>
    (some action, { r with reactions := r.reactions.eraseP (·.1 = kind) })

/-- Which handler a registration leads to. -/
inductive HandlerRef
  /-- A handler that does nothing. -/
  | silent
  /-- A recorder, by its number. -/
  | recorder (number : Nat)
deriving DecidableEq

/-- The token that binds a handler to the stream of one key.  No number is ever used again, so a
registration that outlives its stream matches no handler of a newer one. -/
structure Registration where
  key : ObjectKey
  handler : Nat
  stream : Nat
  /-- The multiplexer that issued the registration; none for a stream of its own. -/
  issuer : Option Nat
deriving DecidableEq

end SharedWatch
