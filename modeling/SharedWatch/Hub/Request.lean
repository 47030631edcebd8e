import SharedWatch.Error
import SharedWatch.Hub.Directory

/-!
# Calls that may wait

* `Reply`: what an operation returns.
* `Request`: a call that may have to wait, for its turn at a manager or for the first sync of a
  stream.
* `Phase`: the place at which it waits.
-/

namespace SharedWatch

/-! ## Replies -/

/-- What an operation returns. -/
inductive Reply
  /-- It succeeded, and there is nothing to say. -/
  | ok
  | flag (b : Bool)
  /-- An object, or that there is none. -/
  | object (o : Option Object)
  | registration (r : Registration)
  /-- A key, or that there is none. -/
  | target (k : Option ObjectKey)
  /-- How many there are, and whether there is none. -/
  | size (n : Nat) (isEmpty : Bool)
  | failed (e : WatchError)
  /-- A name stands for nothing. -/
  | unbound (u : Unbound)
deriving DecidableEq

/-- The reply of an operation that returns nothing or fails. -/
def Reply.ofUnit : Except WatchError Unit → Reply
  | .ok () => ok
  | .error e => failed e

/-- The reply of an operation that returns a cached object or fails. -/
def Reply.ofItem : Except WatchError (Option Object) → Reply
  | .ok o => object o
  | .error e => failed e

/-! ## Requests -/

/-- A call that may have to wait. -/
inductive Request
  /-- Attaches a handler to a stream. -/
  | attach (stream : Nat) (handler : HandlerRef)
  /-- Waits for the first sync of a stream. -/
  | awaitSync (stream token : Nat)
  /-- Subscribes a handler to a key. -/
  | subscribe (multiplexer : Nat) (key : ObjectKey) (handler : HandlerRef) (token : Nat)
  | current (multiplexer : Nat) (registration : Registration)
  /-- Subscribes an owner to a target in its namespace. -/
  | register (manager : Nat) (owner : OwnerKey) (target : String) (token : Nat)
  | unregister (manager : Nat) (owner : OwnerKey)
  /-- Reads the current object of an owner's subscription. -/
  | currentOf (manager : Nat) (owner : OwnerKey)
  | isRegistered (manager : Nat) (owner : OwnerKey)
  /-- Asks for the key of an owner's subscription. -/
  | targetOf (manager : Nat) (owner : OwnerKey)
  /-- Asks how many owners there are, and then whether there is none. -/
  | size (manager : Nat)
deriving DecidableEq

/-- The manager whose turn a request needs, if it needs one. -/
def Request.manager? : Request → Option Nat
  | register g _ _ _ | unregister g _ | currentOf g _ | isRegistered g _ | targetOf g _
  | size g => some g
  | attach _ _ | awaitSync _ _ | subscribe _ _ _ _ | current _ _ => none

/-- The multiplexer that a request is made to, if it is made to one. -/
def Request.multiplexer? : Request → Option Nat
  | subscribe m _ _ _ | current m _ => some m
  | _ => none

/-- Whether a request takes a reference to the stream of a key. -/
def Request.isSubscriber : Request → Bool
  | subscribe _ _ _ _ | register _ _ _ _ => true
  | _ => false

/-- A wait for the first sync of a stream. -/
structure SyncWait where
  stream : Nat
  /-- The token by which the caller gives up. -/
  token : Nat
  /-- The bound on the wait and the time at which it expires. -/
  limit : Option (Span × Nat)
deriving DecidableEq

/-- The place at which a call waits. -/
inductive Phase
  /-- For its first turn. -/
  | fresh
  /-- For its turn at the manager; a size asked for may have been counted already. -/
  | queued (counted : Option Nat)
  /-- For the first sync of a stream. -/
  | syncing (wait : SyncWait)
deriving DecidableEq

/-- A call that has not returned. -/
structure PendingCall where
  id : Nat
  request : Request
  /-- Where the call waits. -/
  phase : Phase := .fresh
  /-- When the current wait began, in the order of all waits. -/
  ticket : Nat
  /-- The name under which a registration that is returned will be known. -/
  bind : Option String := none

/-- The stream to which a call holds a reference while it waits, if it holds one. -/
def PendingCall.waitsOn? (c : PendingCall) : Option Nat :=
  match c.phase with
  | .syncing w => if c.request.isSubscriber then some w.stream else none
  | _ => none

end SharedWatch
