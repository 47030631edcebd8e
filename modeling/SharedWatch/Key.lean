/-!
# Keys

Who is watched and who is watching.

* `ObjectKey`: the identity of one remote object, a namespace and a name.
* `OwnerKey`: the identity of a subscriber.  It has a type of its own, so that an owner is never
  taken for an object; `OwnerKey.target` is the one way from the first to the second.
* `Selector`: what a list or watch call is restricted to.

Keys are ordered by namespace, then by name, each by code point.
-/

namespace SharedWatch

/-- The identity of one remote object. -/
structure ObjectKey where
  /-- The namespace of the object. -/
  ns : String
  /-- The name of the object in its namespace. -/
  name : String
deriving DecidableEq

/-- The identity of a subscriber, in a key space of its own. -/
structure OwnerKey where
  /-- The namespace of the owner, in which its target lives too. -/
  ns : String
  name : String
deriving DecidableEq

/-- Restricts a list or watch call to the object of one name in one namespace. -/
structure Selector where
  ns : String
  name : String
deriving DecidableEq

/-- The order of two keys, by namespace and then by name. -/
def compareParts (a b : String × String) : Ordering :=
  (compare a.1 b.1).then (compare a.2 b.2)

namespace ObjectKey

/-- A key as it is shown in messages. -/
def text (k : ObjectKey) : String := k.ns ++ "/" ++ k.name

/-- The selector that reads exactly the object of this key. -/
def selector (k : ObjectKey) : Selector := ⟨k.ns, k.name⟩

/-- Keys are ordered by namespace, then by name. -/
def order (a b : ObjectKey) : Ordering := compareParts (a.ns, a.name) (b.ns, b.name)

/-- Keys in order. -/
def sort (ks : List ObjectKey) : List ObjectKey := ks.mergeSort fun a b => (order a b).isLE

end ObjectKey

namespace OwnerKey

/-- An owner as it is shown in messages. -/
def text (o : OwnerKey) : String := o.ns ++ "/" ++ o.name

/-- The object called `name` in the owner's namespace. -/
def target (o : OwnerKey) (name : String) : ObjectKey := ⟨o.ns, name⟩

/-- Owners are ordered by namespace, then by name. -/
def order (a b : OwnerKey) : Ordering := compareParts (a.ns, a.name) (b.ns, b.name)

/-- Different owners in order. -/
def sort (os : List OwnerKey) : List OwnerKey :=
  (os.mergeSort fun a b => (order a b).isLE).eraseDups

end OwnerKey

namespace Selector

/-- A selector as it is sent to the store. -/
def text (s : Selector) : String :=
  "metadata.namespace=" ++ s.ns ++ ",metadata.name=" ++ s.name

/-- The key of the object that the selector reads. -/
def key (s : Selector) : ObjectKey := ⟨s.ns, s.name⟩

end Selector

@[simp] theorem ObjectKey.key_selector (k : ObjectKey) : k.selector.key = k := rfl

end SharedWatch
