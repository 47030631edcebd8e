import SharedWatch.Policy

/-!
# Multiplexers

A `Multiplexer` keeps, for each key, one `Monitor`: the stream that is shared by everybody who
subscribed to the key, and how many references to it are out.  A reference is held by every live
registration and by every subscriber still waiting for the first sync.
-/

namespace SharedWatch

/-- The shared stream of one key. -/
structure Monitor where
  /-- The number of the stream. -/
  stream : Nat
  /-- Live registrations, and subscribers that wait for the first sync. -/
  refcount : Nat
deriving DecidableEq

/-- One shared stream for each key. -/
structure Multiplexer where
  /-- What the multiplexer was made with. -/
  settings : Settings
  /-- The token whose firing stops every stream. -/
  root : Nat
  /-- The monitors, at most one for each key. -/
  monitors : List (ObjectKey × Monitor) := []
  /-- Nobody holds the multiplexer any more. -/
  dropped : Bool := false
  /-- The multiplexer has been shut down.  Nothing that runs reads it. -/
  isShut : Bool := false
deriving DecidableEq

namespace Multiplexer

/-- The monitor of a key. -/
def monitor? (m : Multiplexer) (k : ObjectKey) : Option Monitor := m.monitors.lookup k

/-- The number of references to a key's stream. -/
def refcount (m : Multiplexer) (k : ObjectKey) : Nat := (m.monitor? k).elim 0 (·.refcount)

/-- Forgets the monitor of a key. -/
def remove (m : Multiplexer) (k : ObjectKey) : Multiplexer :=
  { m with monitors := m.monitors.filter fun e => e.1 != k }

/-- Sets the monitor of a key. -/
def put (m : Multiplexer) (k : ObjectKey) (e : Monitor) : Multiplexer :=
  { m with monitors := (m.remove k).monitors ++ [(k, e)] }

end Multiplexer

end SharedWatch
