import SharedWatch.Hub.Request
import SharedWatch.Multiplexer

/-!
# Records

What is recorded while a hub works: messages, the calls of handlers, what becomes of the references
to shared streams, and what is done to these past their multiplexers.
-/

namespace SharedWatch

/-- Levels of messages. -/
inductive Level
  /-- Something worth knowing. -/
  | info
  /-- Something went wrong and is dealt with. -/
  | warn
  /-- Something went wrong for good. -/
  | error
deriving DecidableEq

/-- The word for a level. -/
def Level.word : Level → String
  | info => "info"
  | warn => "warn"
  | error => "error"

/-- One message. -/
structure TraceLine where
  level : Level
  message : String
deriving DecidableEq

/-- What is recorded of a handler call. -/
inductive LogEvent
  /-- The handler was called. -/
  | called (c : Callback)
  /-- The handler did something, with a result. -/
  | reacted (action : String) (result : Reply)
deriving DecidableEq

/-- One record of a handler call. -/
structure LogEntry where
  /-- The number of the stream that called. -/
  stream : Nat
  handler : Nat
  /-- The handler that was called. -/
  ref : HandlerRef
  /-- The key of the object that the call was about. -/
  about : ObjectKey
  event : LogEvent
deriving DecidableEq

/-- What is done to a shared stream without a word to its multiplexer. -/
inductive Bypass
  /-- A handler was attached to the stream itself. -/
  | attached
  /-- A handler was removed from the stream itself. -/
  | detached
  /-- A subscriber went away while it waited. -/
  | aborted
deriving DecidableEq

/-- What becomes of references to a shared stream. -/
inductive Dealing
  /-- A subscriber gets its registration, which holds the reference from now on. -/
  | granted (r : Registration)
  /-- A registration gives a reference back; late, if the stream had been stopped before. -/
  | returned (r : Registration) (late : Bool)
  /-- A subscriber that waits for the stream of a number goes away, and leaves its reference. -/
  | lost (stream : Nat)
  /-- All references of an entry are counted off at once. -/
  | closed (e : Monitor)
  /-- An entry goes with its multiplexer. -/
  | dropped (e : Monitor)
deriving DecidableEq

/-- By how much the gauge of live registrations moves. -/
def Dealing.gauge : Dealing → Int
  | granted _ => 1
  | returned _ _ => -1
  | closed e => -e.refcount
  | lost _ | dropped _ => 0

end SharedWatch
