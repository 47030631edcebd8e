import SharedWatch.Backoff
import SharedWatch.Store.Scripted
import SharedWatch.Stream.Basic

/-!
# The list and watch loop

A `Loop` reads its object in full, watches from the version read, and starts over with a backoff
when the watch ends.  Here are the places at which a loop can wait, and how one cycle ends; the
steps between them are steps of the whole system.

* `ScriptedCall.progress`: what has become of a call by a time.  An answer that is there wins over
  a time limit that has passed.
* `CycleEnd`: the connection was closed, or something failed.
-/

namespace SharedWatch

/-- What has become of a call. -/
inductive CallProgress (α : Type)
  /-- The answer is there. -/
  | answered (a : Scripted α)
  /-- The time limit has passed. -/
  | timedOut
  /-- Neither has happened. -/
  | waiting

/-- What has become, by the time `now`, of a call that was made at `began` with a time limit. -/
def ScriptedCall.progress {α : Type} (c : ScriptedCall α) (began now limit : Nat) :
    CallProgress α :=
  if !c.hangs && decide (began + c.delay ≤ now) then .answered c.answer
  else if began + limit ≤ now then .timedOut
  else .waiting

/-- When the wait for a call ends at the latest. -/
def ScriptedCall.wakeTime {α : Type} (c : ScriptedCall α) (began limit : Nat) : Nat :=
  if c.hangs then began + limit else began + min c.delay limit

/-- How one cycle ends. -/
inductive CycleEnd
  /-- The connection was closed. -/
  | closed
  /-- A call or the connection failed. -/
  | failed (f : StoreFailure)

/-- The reason under which the end of a cycle is counted. -/
def CycleEnd.reason : CycleEnd → String
  | closed => "disconnected"
  | failed (.expired _) => "expired"
  | failed _ => "error"

/-- The places at which a loop waits. -/
inductive Stage
  /-- For its first turn. -/
  | fresh
  /-- For the answer to a `list` call. -/
  | listing (call : ScriptedCall (List Object × String)) (began : Nat)
  /-- For its turn to deliver what a `list` call has answered. -/
  | listed (items : List Object) (version : String)
  /-- For the answer to a `watch` call from a version. -/
  | opening (version : String) (call : ScriptedCall (List FeedItem × Bool)) (began : Nat)
  /-- For the next arrival of a feed, which may be silent up to a time. -/
  | consuming (feed : Feed) (silentUntil : Option Nat)
  /-- For the time of the next attempt. -/
  | resting (wakeTime : Nat)

/-- The list and watch loop of one stream. -/
structure Loop where
  /-- The number of the loop. -/
  id : Nat
  /-- The number of the stream. -/
  stream : Nat
  /-- The token whose firing stops the stream. -/
  parent : Nat
  /-- The state of the retries. -/
  backoff : Backoff
  /-- Where the loop waits. -/
  stage : Stage := .fresh
  /-- When the loop began to heed cancellation, in the order of all waits. -/
  since : Nat
  /-- When the current wait began, in the order of all waits. -/
  ticket : Nat

/-- When the loop wakes by itself, if it does. -/
def Loop.wakeTime? (l : Loop) : Option Nat :=
  let limit := l.backoff.policy.timeoutMs.toNat
  match l.stage with
  | .fresh => none
  | .listing call began => some (call.wakeTime began limit)
  | .listed _ _ => none
  | .opening _ call began => some (call.wakeTime began limit)
  | .consuming _ silentUntil => silentUntil
  | .resting t => some t

end SharedWatch
