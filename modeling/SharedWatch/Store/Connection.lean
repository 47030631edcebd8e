import SharedWatch.Error

/-!
# Watch connections

A `Connection` is one open watch.  The store feeds it at one end (`attached`) and a reader holds
the other (`held`); what has been sent and not yet read waits in `pending`, oldest first.

* Each end can be let go on its own.  A reader still gets what was sent before the store let go,
  and then the end of the stream.
* The store notices that the reader has gone only when it next sends, or counts its watchers.
-/

namespace SharedWatch

/-- What a watch yields, one at a time. -/
abbrev Arrival := Except StoreFailure Change

/-- One open watch. -/
structure Connection where
  /-- The number of the connection, in order of opening. -/
  id : Nat
  /-- What is watched. -/
  selector : Selector
  /-- What has been sent and not yet read, oldest first. -/
  pending : List Arrival := []
  /-- The store still feeds the connection. -/
  attached : Bool := true
  /-- The reader has not let go. -/
  held : Bool := true

/-- What a reader finds. -/
inductive Reading
  /-- Something has arrived. -/
  | arrived (a : Arrival)
  /-- Nothing has arrived yet. -/
  | idle
  /-- Nothing will arrive any more. -/
  | ended

namespace Connection

/-- Sends something to the reader, or lets go of the connection if the reader has gone. -/
def send (c : Connection) (a : Arrival) : Connection :=
  if c.held then { c with pending := c.pending ++ [a] } else { c with attached := false }

/-- Announces a change: it is sent if the selector admits its object; any other connection is only
checked for a reader. -/
def announce (c : Connection) (e : Change) : Connection :=
  if !c.attached then c
  else if c.selector.admits e.object then c.send (.ok e)
  else { c with attached := c.held }

/-- The store lets go of the connection. -/
def detach (c : Connection) : Connection := { c with attached := false }

/-- The store sends one last failure and lets go. -/
def expire (c : Connection) (f : StoreFailure) : Connection :=
  if c.attached then (c.send (.error f)).detach else c

/-- The reader lets go. -/
def release (c : Connection) : Connection := { c with held := false, pending := [] }

/-- What the reader finds, and the connection once it has been taken. -/
def read (c : Connection) : Reading × Connection :=
  match c.pending with
  | a :: rest => (.arrived a, { c with pending := rest })
  | [] => (if c.attached then .idle else .ended, c)

end Connection

end SharedWatch
