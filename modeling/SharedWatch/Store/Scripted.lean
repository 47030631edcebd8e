import SharedWatch.Store.Basic

/-!
# A store behind a script

Streams reach the store through a `Backend`.  It answers each call with the oldest scripted answer
of the call's kind, as long as there is one, and asks the store otherwise.  A scripted answer may
come late or never, may be a failure, and may be a list or a feed that the store never held; so a
script can play any behaviour that a remote store may show.
-/

namespace SharedWatch

/-- What is behind a scripted answer. -/
inductive Scripted (α : Type)
  | fails (f : StoreFailure)
  | gives (a : α)
  /-- The store is asked. -/
  | asks

/-- A scripted answer to one call. -/
structure ScriptedCall (α : Type) where
  /-- How long the answer takes, in milliseconds. -/
  delay : Nat := 0
  /-- The answer never comes. -/
  hangs : Bool := false
  answer : Scripted α := .asks

/-- One item of a scripted feed. -/
inductive FeedItem
  /-- A change or a failure arrives. -/
  | arrives (a : Arrival)
  /-- Nothing arrives for a number of milliseconds. -/
  | pauses (ms : Nat)

/-- Where the changes of a watch come from. -/
inductive Feed
  /-- An open connection of the store. -/
  | live (connection : Nat)
  /-- A script, which ends after its items or falls silent. -/
  | scripted (items : List FeedItem) (ends : Bool)

/-- One call that streams have made. -/
structure CallRecord where
  /-- When the call was made. -/
  time : Nat
  /-- What was read. -/
  selector : Selector
  /-- The version to watch from, for a `watch` call. -/
  version : Option String

/-- A store behind a script. -/
structure Backend where
  store : Store := {}
  /-- Answers to the next `list` calls. -/
  lists : List (ScriptedCall (List Object × String)) := []
  /-- Answers to the next `watch` calls. -/
  watches : List (ScriptedCall (List FeedItem × Bool)) := []
  /-- The calls made so far, the latest first. -/
  calls : List CallRecord := []

namespace Backend

/-- Makes a `list` call at a time: the answer it will get. -/
def beginList (b : Backend) (now : Nat) (sel : Selector) :
    ScriptedCall (List Object × String) × Backend :=
  let b := { b with calls := ⟨now, sel, none⟩ :: b.calls }
  match b.lists with
  | [] => ({}, b)
  | c :: rest => (c, { b with lists := rest })

/-- Makes a `watch` call at a time: the answer it will get. -/
def beginWatch (b : Backend) (now : Nat) (sel : Selector) (version : String) :
    ScriptedCall (List FeedItem × Bool) × Backend :=
  let b := { b with calls := ⟨now, sel, some version⟩ :: b.calls }
  match b.watches with
  | [] => ({}, b)
  | c :: rest => (c, { b with watches := rest })

/-- The outcome of a `list` call once its answer has come. -/
def finishList (b : Backend) (sel : Selector) :
    Scripted (List Object × String) → Except StoreFailure (List Object × String) × Backend
  | .fails f => (.error f, b)
  | .gives a => (.ok a, b)
  | .asks =>
    let (r, store) := b.store.list sel
    (r, { b with store })

/-- The outcome of a `watch` call once its answer has come. -/
def finishWatch (b : Backend) (sel : Selector) (version : String) :
    Scripted (List FeedItem × Bool) → Except StoreFailure Feed × Backend
  | .fails f => (.error f, b)
  | .gives (items, ends) => (.ok (.scripted items ends), b)
  | .asks =>
    let (r, store) := b.store.watch sel version
    (r.map .live, { b with store })

/-- The reader of a feed lets go. -/
def release (b : Backend) : Feed → Backend
  | .live connection => { b with store := b.store.release connection }
  | .scripted _ _ => b

end Backend

end SharedWatch
