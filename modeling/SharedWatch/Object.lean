import SharedWatch.Key

/-!
# Objects and changes

* `Object`: one version of a remote object.  The version is opaque text that changes whenever the
  object does.
* `Change`: one entry of the store's change log, and what a watch yields.
* `Change.after`: the object that exists once the change has happened.
-/

namespace SharedWatch

/-- One version of a remote object. -/
structure Object where
  /-- The identity of the object. -/
  key : ObjectKey
  /-- The version, opaque to everybody but the store that assigned it. -/
  version : String
  /-- The contents. -/
  data : String
deriving DecidableEq

/-- A key owns exactly the objects of its namespace and name. -/
def ObjectKey.owns (k : ObjectKey) (o : Object) : Bool := k.ns == o.key.ns && k.name == o.key.name

/-- A selector admits exactly the objects of its namespace and name. -/
def Selector.admits (s : Selector) (o : Object) : Bool := s.ns == o.key.ns && s.name == o.key.name

theorem ObjectKey.owns_iff {k : ObjectKey} {o : Object} : k.owns o = true ↔ o.key = k := by
  cases k with
  | mk ns name =>
    cases o with
    | mk key version data =>
      cases key with
      | mk ns' name' =>
        simp only [owns, Bool.and_eq_true, beq_iff_eq, mk.injEq]
        exact ⟨fun h => ⟨h.1.symm, h.2.symm⟩, fun h => ⟨h.1.symm, h.2.symm⟩⟩

theorem Selector.admits_eq_owns (s : Selector) (o : Object) : s.admits o = s.key.owns o := rfl

/-- What happened to an object. -/
inductive Change
  /-- The object was created. -/
  | added (o : Object)
  /-- The object was replaced. -/
  | modified (o : Object)
  /-- The object was removed; `o` is its last version. -/
  | deleted (o : Object)
deriving DecidableEq

namespace Change

/-- The object that a change is about. -/
def object : Change → Object
  | added o | modified o | deleted o => o

/-- The word for the kind of change. -/
def kind : Change → String
  | added _ => "added"
  | modified _ => "modified"
  | deleted _ => "deleted"

/-- The object that exists after the change. -/
def after : Change → Option Object
  | added o | modified o => some o
  | deleted _ => none

end Change

end SharedWatch
