/-!
# Tables

What a TOML document says, as a tree of tables.

* `Value`: a value as a reader of the document gets it.
* `Node`: a value while the document is being read.  A table remembers how it came to be, because
  that decides what may be added to it.
* `Table.assign`: sets a key below a path.  A key is never set twice, a path never leads through a
  value, and a table under a header is not extended from outside.
* `Draft`: a document while its lines are read one after the other.
-/

namespace SharedWatch.Toml

/-- A value. -/
inductive Value
  | flag (b : Bool)
  | whole (n : Int)
  | real (x : Float)
  | text (s : String)
  /-- A date, a time or both, in its normal form. -/
  | moment (s : String)
  | list (items : List Value)
  /-- Values by key. -/
  | table (fields : List (String × Value))

/-- How a table came to be. -/
inductive Origin
  /-- It has a header of its own, or it is the document, or it is written inline. -/
  | header
  /-- It is on the path of a header. -/
  | implied
  /-- It is on the path of a key. -/
  | dotted
deriving DecidableEq

/-- A part of a document that is being read. -/
inductive Node
  /-- A value; nothing can be added to it. -/
  | leaf (v : Value)
  | table (origin : Origin) (entries : List (String × Node))
  /-- Tables in a row; the last one may grow. -/
  | rows (tables : List (List (String × Node)))

/-- A table that is being read. -/
structure Table where
  /-- How the table came to be. -/
  origin : Origin
  /-- What is in it. -/
  entries : List (String × Node) := []

namespace Table

/-- The entry of a key. -/
def entry? (t : Table) (key : String) : Option Node := t.entries.lookup key

/-- Forgets the entry of a key. -/
def erase (t : Table) (key : String) : Table :=
  { t with entries := t.entries.filter fun e => e.1 != key }

/-- Sets the entry of a key. -/
def put (t : Table) (key : String) (n : Node) : Table :=
  { t with entries := (t.erase key).entries ++ [(key, n)] }

/-- The table as a part of another one. -/
def node (t : Table) : Node := .table t.origin t.entries

/-- Changes the table at the end of a path.  Tables that are missing are made on the way.  The path
of a key does not lead through a table with a header; any path leads through the last of several
tables in a row. -/
def changeAt {α : Type} (ofKey : Bool) (f : Table → Option (α × Table)) :
    List String → Table → Option (α × Table)
  | [], t => f t
  | k :: path, t =>
    let inside (c : Table) (wrap : Table → Node) : Option (α × Table) :=
      (changeAt ofKey f path c).map fun (a, c) => (a, t.put k (wrap c))
    match t.entry? k with
    | none => inside ⟨if ofKey then .dotted else .implied, []⟩ node
    | some (.leaf _) => none
    | some (.table origin entries) =>
      if ofKey && origin = .header then none else inside ⟨origin, entries⟩ node
    | some (.rows tables) => match tables.getLast? with
      | none => none
      | some entries =>
        inside ⟨.header, entries⟩ fun c => .rows (tables.dropLast ++ [c.entries])

/-- Sets a key in the table it belongs to, unless it is set already.  A table that was made by the
path of a key grows by such paths, and no other table does. -/
def set (ofPath : Bool) (key : String) (v : Value) (t : Table) : Option Table :=
  if decide (t.origin = .dotted) != ofPath then none
  else if (t.entry? key).isSome then none
  else some (t.put key (.leaf v))

/-- Sets a key at the end of a path. -/
def assign (t : Table) (path : List String) (key : String) (v : Value) : Option Table :=
  (t.changeAt true (fun t => (set (!path.isEmpty) key v t).map fun t => ((), t)) path).map (·.2)

end Table

mutual

/-- The value of a part of a document. -/
def Node.value : Node → Value
  | .leaf v => v
  | .table _ entries => .table (entriesValue entries)
  | .rows tables => .list (rowsValue tables)

/-- The values of entries. -/
def entriesValue : List (String × Node) → List (String × Value)
  | [] => []
  | (key, n) :: rest => (key, n.value) :: entriesValue rest

/-- The values of tables in a row. -/
def rowsValue : List (List (String × Node)) → List Value
  | [] => []
  | entries :: rest => .table (entriesValue entries) :: rowsValue rest

end

/-- A key with the path that leads to it. -/
structure Name where
  path : List String
  key : String

/-- A table that is written inline. -/
def inlineTable (fields : List (Name × Value)) : Option Value :=
  let set (t : Table) (field : Name × Value) : Option Table :=
    t.assign field.1.path field.1.key field.2
  (fields.foldlM set ⟨.header, []⟩).map fun t => t.node.value

/-- A line of a document that says something. -/
inductive Line
  | assign (name : Name) (v : Value)
  /-- The keys that follow are in a table. -/
  | table (name : Name)
  /-- The keys that follow are in a new table at the end of a row. -/
  | row (name : Name)

/-- A document of which some lines have been read. -/
structure Draft where
  /-- The document without the current table. -/
  root : Table := ⟨.header, []⟩
  /-- The table that keys are set in. -/
  current : Table := ⟨.header, []⟩
  /-- Where the current table belongs; nowhere, if it is the document itself. -/
  place : Option Name := none
  /-- The current table is the last one of a row. -/
  isRow : Bool := false

namespace Draft

/-- The document with the current table in its place. -/
def close (d : Draft) : Option Table :=
  match d.place with
  | none => some d.current
  | some name =>
    let settle (t : Table) : Option (Unit × Table) :=
      match d.isRow, t.entry? name.key with
      | true, some (.rows tables) =>
        some ((), t.put name.key (.rows (tables ++ [d.current.entries])))
      | true, none => some ((), t.put name.key (.rows [d.current.entries]))
      | false, none => some ((), t.put name.key d.current.node)
      | _, some _ => none
    (d.root.changeAt false settle name.path).map (·.2)

/-- A header opens a table.  It must be new, or have been on the path of an earlier header; then it
keeps what is in it. -/
def openTable (d : Draft) (name : Name) : Option Draft := do
  let root ← d.close
  let take (t : Table) : Option (List (String × Node) × Table) :=
    match t.entry? name.key with
    | none => some ([], t)
    | some (.table .implied entries) => some (entries, t.erase name.key)
    | some _ => none
  let (entries, root) ← root.changeAt false take name.path
  return { root, current := ⟨.header, entries⟩, place := some name }

/-- A header opens a new table at the end of a row. -/
def openRow (d : Draft) (name : Name) : Option Draft := do
  let root ← d.close
  let look (t : Table) : Option (Unit × Table) :=
    match t.entry? name.key with
    | none | some (.rows _) => some ((), t)
    | some _ => none
  let (_, root) ← root.changeAt false look name.path
  return { root, current := ⟨.header, []⟩, place := some name, isRow := true }

/-- Reads one more line. -/
def add (d : Draft) : Line → Option Draft
  | .assign name v => (d.current.assign name.path name.key v).map fun current => { d with current }
  | .table name => d.openTable name
  | .row name => d.openRow name

end Draft

/-- What the lines of a document say. -/
def documentOf (lines : List Line) : Option (List (String × Value)) := do
  let d ← lines.foldlM Draft.add {}
  let root ← d.close
  return entriesValue root.entries

end SharedWatch.Toml
