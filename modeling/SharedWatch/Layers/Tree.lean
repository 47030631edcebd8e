import SharedWatch.Text.Natural

/-!
# Layered settings

Settings are put together from layers, each of which may set some of them.

* `Tree`: settings before it is known which are expected.  What a layer sets remembers where it
  comes from.
* `Tree.merge`: sets a key.  Tables are merged key by key, and any other value replaces what was
  there.
* `Tree.setAt`: sets what a path leads to, and makes the tables and lists on the way.

Keys are in lower case, whatever case a layer writes them in; the keys of settings have only ASCII
letters.
-/

namespace SharedWatch

/-- A value that holds no other values. -/
inductive Scalar
  | flag (b : Bool)
  /-- An integer of 64 bits. -/
  | whole (n : Int)
  | real (x : Float)
  | text (s : String)

/-- Settings before it is known which are expected. -/
inductive Tree
  | nothing
  /-- A single value. -/
  | leaf (v : Scalar) (origin : Option String)
  | list (items : List Tree) (origin : Option String)
  /-- Values by key. -/
  | table (fields : List (String × Tree)) (origin : Option String)

/-- A step of a path. -/
inductive PathStep
  /-- To the value of a key. -/
  | key (k : String)
  /-- To an item of a list; a negative number counts from its end. -/
  | item (n : Int)
deriving DecidableEq

namespace Tree

/-- A table without fields. -/
def empty : Tree := .table [] none

/-- A key as it is kept. -/
def keyOf (k : String) : String := k.map Char.toLower

/-- The field of a key. -/
def field? (t : Tree) (k : String) : Option Tree :=
  match t with
  | .table fields _ => fields.lookup k
  | _ => none

/-- What keys lead to. -/
def at? : List String → Tree → Option Tree
  | [], t => some t
  | k :: path, t => (t.field? k).bind (at? path)

/-- Sets the field of a key; anything but a table is replaced by one. -/
def withField (t : Tree) (k : String) (v : Tree) : Tree :=
  let (fields, origin) := match t with
    | .table fields origin => (fields, origin)
    | _ => ([], none)
  .table (fields.filter (fun e => e.1 != k) ++ [(k, v)]) origin

mutual

/-- Sets a key of a table, with the fields of `v` one by one if it is a table. -/
def merge (k : String) : Tree → Tree → Tree
  | .table fields _, t => t.withField (keyOf k) (mergeAll fields ((t.field? (keyOf k)).getD empty))
  | v, t => t.withField (keyOf k) v

/-- Sets keys of a table, one after the other. -/
def mergeAll : List (String × Tree) → Tree → Tree
  | [], t => t
  | (k, v) :: rest, t => mergeAll rest (merge k v t)

end

/-- Changes an item of a list; anything but a list is replaced by one, and items that are missing
are made. -/
def changeItem (n : Int) (f : Tree → Tree) (t : Tree) : Tree :=
  let (items, origin) := match t with
    | .list items origin => (items, origin)
    | _ => ([], none)
  let i := if n < 0 then items.length - n.natAbs else n.toNat
  let items := items ++ List.replicate (i + 1 - items.length) .nothing
  .list (items.modify i f) origin

/-- Sets what a path leads to in a tree. -/
def setAt : Tree → List PathStep → Tree → Tree
  | _, [], v => v
  | t, [.key k], v => merge k v t
  | t, .key k :: path, v => t.withField k (setAt ((t.field? k).getD .nothing) path v)
  | t, .item n :: path, v => t.changeItem n fun t => setAt t path v

end Tree

/-! ## Paths -/

namespace PathStep

/-- Whether a character may stand in the key of a path. -/
def isKeyChar (c : Char) : Bool := c.isAlphanum || c == '_' || c == '-'

/-- The number of an item, behind its opening bracket. -/
def readItem (cs : List Char) : Option (PathStep × List Char) :=
  let (negative, cs) := match cs with
    | '-' :: rest => (true, rest)
    | _ => (false, cs)
  let ds := cs.takeWhile Char.isDigit
  let n : Int := Text.digitsNat 10 ds
  match ds, cs.drop ds.length with
  | _ :: _, ']' :: rest => some (.item (if negative then -n else n), rest)
  | _, _ => none

/-- A key of a path. -/
def readKey (cs : List Char) : Option (PathStep × List Char) :=
  let name := cs.takeWhile isKeyChar
  if name = [] then none else some (.key (String.ofList name), cs.drop name.length)

/-- The steps behind the first one; `fuel` bounds their number. -/
def readSteps : Nat → List Char → Option (List PathStep)
  | _, [] => some []
  | 0, _ => none
  | fuel + 1, c :: cs => do
    let (step, rest) ← if c = '.' then readKey cs else if c = '[' then readItem cs else none
    return step :: (← readSteps fuel rest)

/-- Reads a path: keys behind points, and numbers of items in brackets.  A text that is no path is
a key as it stands. -/
def read (s : String) : List PathStep :=
  let path : Option (List PathStep) := do
    let (first, rest) ← readKey s.toList
    return first :: (← readSteps rest.length rest)
  path.getD [.key s]

end PathStep

/-- Lays the fields of a layer over a tree; the key of a field may be a path. -/
def Tree.lay (t : Tree) (layer : List (String × Tree)) : Tree :=
  layer.foldl (fun t (k, v) => t.setAt (PathStep.read k) v) t

end SharedWatch
