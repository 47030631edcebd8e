import SharedWatch.Error

/-!
# Retry policies and settings

* `RetryPolicy`: how a list and watch loop retries, and how long one store call may take.
* `Settings`: what a multiplexer is made with.
* `RetryPolicy.validate`: refuses a zero time limit, a zero base delay, and a cap below the base
  delay, in this order.
-/

namespace SharedWatch

/-- How a list and watch loop retries, and how long one store call may take. -/
structure RetryPolicy where
  /-- How many consecutive retries are allowed; zero allows any number. -/
  maxRetries : UInt64 := 0
  /-- The time limit of one store call, in milliseconds. -/
  timeoutMs : UInt64 := 5000
  /-- The delay before the first retry, in milliseconds. -/
  baseDelayMs : UInt64 := 100
  /-- The longest delay before a retry, in milliseconds. -/
  maxDelayMs : UInt64 := 30000
deriving DecidableEq

namespace RetryPolicy

/-- Whether any number of retries is allowed. -/
def isUnlimited (p : RetryPolicy) : Bool := p.maxRetries == 0

/-- The time limit of one store call. -/
def timeout (p : RetryPolicy) : Span := .ofMillis p.timeoutMs.toNat

/-- The delay before the first retry. -/
def baseDelay (p : RetryPolicy) : Span := .ofMillis p.baseDelayMs.toNat

/-- The longest delay before a retry. -/
def maxDelay (p : RetryPolicy) : Span := .ofMillis p.maxDelayMs.toNat

/-- Why the policy called `name` is refused, if it is. -/
def refusal? (p : RetryPolicy) (name : String) : Option String :=
  if p.timeoutMs = 0 then some (name ++ ": timeout_ms must be greater than 0")
  else if p.baseDelayMs = 0 then some (name ++ ": base_delay_ms must be greater than 0")
  else if p.maxDelayMs < p.baseDelayMs then
    some (name ++ ": max_delay_ms " ++ toString p.maxDelayMs.toNat
      ++ " is smaller than base_delay_ms " ++ toString p.baseDelayMs.toNat)
  else none

/-- Accepts the policy called `name`, or says why not. -/
def validate (p : RetryPolicy) (name : String) : Except WatchError Unit :=
  match p.refusal? name with
  | some reason => .error (.settings (.refused reason))
  | none => .ok ()

end RetryPolicy

/-- What a multiplexer is made with. -/
structure Settings where
  /-- The bound on the wait for a stream's first sync, in milliseconds; zero is no bound. -/
  syncTimeoutMs : UInt64 := 0
  /-- The retry policy of every stream. -/
  listWatch : RetryPolicy := {}
deriving DecidableEq

namespace Settings

/-- The bound on the wait for a stream's first sync, if there is one. -/
def syncTimeout? (s : Settings) : Option Span :=
  if s.syncTimeoutMs = 0 then none else some (.ofMillis s.syncTimeoutMs.toNat)

/-- Accepts the settings, or says why not. -/
def validate (s : Settings) : Except WatchError Settings := do
  s.listWatch.validate "list_watch"
  return s

end Settings

end SharedWatch
