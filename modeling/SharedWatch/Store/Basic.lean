import SharedWatch.Store.Connection
import SharedWatch.Text.Natural

/-!
# The store

Versioned objects, a change log of bounded length, and open watch connections.

* Every change raises the revision by one, and the revision is the version of the object that it
  stores.  Deleting an absent object is no change.
* Every change is announced to the open connections and appended to the log.  The log keeps the
  most recent `historyLimit` entries; `compacted` is the last revision that has left it.
* `list` and `watch` can be made to fail a number of times; calls are counted, failed ones too.
-/

namespace SharedWatch

/-- How many entries the change log keeps by default. -/
def defaultHistoryLimit : Nat := 1024

/-- A versioned store with a change log and open watch connections. -/
structure Store where
  /-- The objects, at most one for each key. -/
  objects : List Object := []
  /-- The revision of the last change. -/
  revision : Nat := 0
  /-- The change log, oldest entry first, each with its revision. -/
  history : List (Nat × Change) := []
  /-- How many entries the change log keeps. -/
  historyLimit : Nat := defaultHistoryLimit
  /-- The last revision that has left the change log. -/
  compacted : Nat := 0
  /-- Connections that one side at least still holds, in order of opening. -/
  connections : List Connection := []
  /-- How many connections have been opened. -/
  opened : Nat := 0
  /-- How many of the next `list` calls fail. -/
  failingLists : Nat := 0
  /-- How many of the next `watch` calls fail. -/
  failingWatches : Nat := 0
  /-- How many `list` calls there have been. -/
  listCalls : Nat := 0
  /-- How many `watch` calls there have been. -/
  watchCalls : Nat := 0
  /-- Every change there has been, the latest first.  The log forgets, this does not: it says what
  the store has held, and nothing that runs reads it. -/
  past : List Change := []

namespace Store

/-- An empty store whose log keeps `limit` entries, and one at least. -/
def withHistoryLimit (limit : Nat) : Store := { historyLimit := max limit 1 }

/-- The stored object of a key. -/
def get? (s : Store) (k : ObjectKey) : Option Object := s.objects.find? k.owns

/-- The connection of a number. -/
def connection? (s : Store) (id : Nat) : Option Connection := s.connections.find? (·.id == id)

/-- Changes every connection, and forgets those that neither side holds. -/
def mapConnections (s : Store) (f : Connection → Connection) : Store :=
  { s with connections := (s.connections.map f).filter fun c => c.attached || c.held }

/-- Changes the connection of a number. -/
def updateConnection (s : Store) (id : Nat) (f : Connection → Connection) : Store :=
  s.mapConnections fun c => if c.id = id then f c else c

/-! ## Changes -/

/-- Drops the oldest entries beyond the limit; the last one dropped becomes `compacted`. -/
def trim (s : Store) : Store :=
  let surplus := s.history.length - s.historyLimit
  { s with
    history := s.history.drop surplus
    compacted := ((s.history.take surplus).getLast?).elim s.compacted (·.1) }

/-- Announces a change and appends it to the log, at the current revision. -/
def publish (s : Store) (e : Change) : Store :=
  let s := s.mapConnections (·.announce e)
  { s with history := s.history ++ [(s.revision, e)], past := e :: s.past }.trim

/-- Creates or replaces an object: the stored version, and the store after it. -/
def apply (s : Store) (key : ObjectKey) (data : String) : Object × Store :=
  let revision := s.revision + 1
  let o : Object := ⟨key, toString revision, data⟩
  let s := { s with revision }
  match s.get? key with
  | some _ =>
    let objects := s.objects.map fun p => if key.owns p then o else p
    (o, { s with objects }.publish (.modified o))
  | none => (o, { s with objects := s.objects ++ [o] }.publish (.added o))

/-- Removes an object: its last version, stamped with the revision of the removal, and the store
after it. -/
def delete (s : Store) (key : ObjectKey) : Option Object × Store :=
  match s.get? key with
  | none => (none, s)
  | some last =>
    let revision := s.revision + 1
    let o := { last with version := toString revision }
    let objects := s.objects.filter fun p => !key.owns p
    (some o, { s with objects, revision }.publish (.deleted o))

/-- Lets go of every connection; readers come to the end of their streams. -/
def disconnect (s : Store) : Store := s.mapConnections (·.detach)

/-- Empties the change log, and tells every open connection that its version has expired. -/
def compact (s : Store) : Store :=
  let s := { s with compacted := s.revision, history := [] }
  s.mapConnections (·.expire (.expired (toString s.revision)))

/-- Makes the next `n` calls of `list` fail. -/
def failLists (s : Store) (n : Nat) : Store := { s with failingLists := n }

/-- Makes the next `n` calls of `watch` fail. -/
def failWatches (s : Store) (n : Nat) : Store := { s with failingWatches := n }

/-! ## Reading -/

/-- A full read of what a selector admits: the objects and the version to watch from. -/
def list (s : Store) (sel : Selector) : Except StoreFailure (List Object × String) × Store :=
  let s := { s with listCalls := s.listCalls + 1 }
  if 0 < s.failingLists then
    (.error (.unavailable "injected list failure"), s.failLists (s.failingLists - 1))
  else (.ok (s.objects.filter sel.admits, toString s.revision), s)

/-- The revision that a watch from `version` starts after: the current one for the empty text, and
nothing for a text that is no revision. -/
def startingRevision (s : Store) (version : String) : Option Nat :=
  if version = "" then some s.revision else Text.readWord version

/-- The logged changes after a revision that a selector admits. -/
def changesAfter (s : Store) (sel : Selector) (revision : Nat) : List Change :=
  (s.history.filter fun (r, e) => decide (revision < r) && sel.admits e.object).map (·.2)

/-- Opens a watch from a version, unless changes after it have left the log: the number of the
connection, on which the logged changes after the version already wait. -/
def watch (s : Store) (sel : Selector) (version : String) : Except StoreFailure Nat × Store :=
  let s := { s with watchCalls := s.watchCalls + 1 }
  if 0 < s.failingWatches then
    (.error (.unavailable "injected watch failure"), s.failWatches (s.failingWatches - 1))
  else match s.startingRevision version with
    | none => (.error (.expired version), s)
    | some revision =>
      if revision < s.compacted then (.error (.expired version), s)
      else
        let pending := (s.changesAfter sel revision).map .ok
        (.ok s.opened,
          { s with
            connections := s.connections ++ [{ id := s.opened, selector := sel, pending }]
            opened := s.opened + 1 })

/-- Takes the next arrival of a connection. -/
def read (s : Store) (id : Nat) : Reading × Store :=
  match s.connection? id with
  | none => (.ended, s)
  | some c => (c.read.1, s.updateConnection id fun _ => c.read.2)

/-- The reader of a connection lets go. -/
def release (s : Store) (id : Nat) : Store := s.updateConnection id (·.release)

/-- Lets go of the connections whose readers have gone, and counts the others. -/
def watcherCount (s : Store) : Nat × Store :=
  let s := s.mapConnections fun c => if c.held then c else c.detach
  ((s.connections.filter (·.attached)).length, s)

end Store

end SharedWatch
