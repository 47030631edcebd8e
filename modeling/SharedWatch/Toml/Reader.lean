import SharedWatch.Toml.Scan
import SharedWatch.Toml.Table

/-!
# Reading documents

`read?` reads a TOML document.  A line sets a key, opens a table or opens a table in a row; lists
may go over several lines, inline tables may not.  Values are nested at most 79 levels deep, and a
path has at most 79 parts.
-/

namespace SharedWatch.Toml

/-- The number of levels at which nesting is refused. -/
def nestingLimit : Nat := 80

/-! ## Keys -/

/-- Whether a character may stand in a key without quotes. -/
def isBare (c : Char) : Bool := c.isAlphanum || c == '_' || c == '-'

/-- One part of a key. -/
def keyPart (cs : List Char) : Option (String × List Char) :=
  match shortText cs with
  | some found => some found
  | none =>
    let bare := cs.takeWhile isBare
    if bare = [] then none else some (String.ofList bare, cs.drop bare.length)

/-- The parts of a key, with points between them; `fuel` bounds their number. -/
def keyParts : Nat → List Char → Option (List String × List Char)
  | 0, _ => none
  | fuel + 1, cs => do
    let (part, cs) ← keyPart (skipBlanks cs)
    match skipBlanks cs with
    | '.' :: rest =>
      let (parts, rest) ← keyParts fuel rest
      return (part :: parts, rest)
    | rest => return ([part], rest)

/-- A key with its path, and blanks around it. -/
def name (cs : List Char) : Option (Name × List Char) := do
  let (parts, rest) ← keyParts (nestingLimit - 1) cs
  let key ← parts.getLast?
  return (⟨parts.dropLast, key⟩, rest)

/-! ## Values -/

/-- A number, a date or a time. -/
def number (cs : List Char) : Option (Value × List Char) :=
  match moment cs with
  | some (s, rest) => some (.moment s, rest)
  | none => match float cs with
    | some (x, rest) => some (.real x, rest)
    | none => (integer cs).map fun (n, rest) => (.whole n, rest)

/-- A value that holds no other values. -/
def simpleValue (cs : List Char) : Option (Value × List Char) :=
  match cs with
  | '\x22' :: _ | '\x27' :: _ => (text cs).map fun (s, rest) => (.text s, rest)
  | 't' :: 'r' :: 'u' :: 'e' :: rest => some (.flag true, rest)
  | 'f' :: 'a' :: 'l' :: 's' :: 'e' :: rest => some (.flag false, rest)
  | _ => number cs

mutual

/-- A value, `depth` levels deep.  Every character takes at most two units of fuel. -/
def value : Nat → Nat → List Char → Option (Value × List Char)
  | 0, _, _ => none
  | fuel + 1, depth, cs => match cs with
    | '[' :: rest =>
      if nestingLimit ≤ depth + 1 then none else items fuel (depth + 1) [] (skipFill rest)
    | '\x7b' :: rest =>
      if nestingLimit ≤ depth + 1 then none
      else match skipBlanks rest with
        | '\x7d' :: rest => some (.table [], rest)
        | rest => do
          let (fields, rest) ← fields fuel (depth + 1) [] rest
          return (← inlineTable fields, rest)
    | cs => simpleValue cs

/-- The items of a list up to its end; `acc` holds those read, last one first. -/
def items : Nat → Nat → List Value → List Char → Option (Value × List Char)
  | 0, _, _, _ => none
  | fuel + 1, depth, acc, cs => match cs with
    | ']' :: rest => some (.list acc.reverse, rest)
    | cs => do
      let (v, rest) ← value fuel depth cs
      match skipFill rest with
      | ',' :: rest => items fuel depth (v :: acc) (skipFill rest)
      | ']' :: rest => return (.list (v :: acc).reverse, rest)
      | _ => none

/-- The fields of an inline table that has at least one more; `acc` holds those read, last one
first. -/
def fields : Nat → Nat → List (Name × Value) → List Char → Option (List (Name × Value) × List Char)
  | 0, _, _, _ => none
  | fuel + 1, depth, acc, cs => do
    let (name, rest) ← name cs
    let (v, rest) ← value fuel depth (skipBlanks (← dropChar '=' rest))
    match skipBlanks rest with
    | ',' :: rest => fields fuel depth ((name, v) :: acc) rest
    | '\x7d' :: rest => return (((name, v) :: acc).reverse, rest)
    | _ => none

end

/-! ## Lines -/

/-- A line that says something, and the end of the line. -/
def line (cs : List Char) : Option (Line × List Char) :=
  match cs with
  | '[' :: '[' :: rest => do
    let (name, rest) ← name rest
    let rest ← dropChar ']' (← dropChar ']' rest)
    return (.row name, ← endLine rest)
  | '[' :: rest => do
    let (name, rest) ← name rest
    return (.table name, ← endLine (← dropChar ']' rest))
  | cs => do
    let (name, rest) ← name cs
    let rest := skipBlanks (← dropChar '=' rest)
    let (v, rest) ← value (2 * rest.length + 2) 0 rest
    return (.assign name v, ← endLine rest)

/-- The lines that say something; `fuel` bounds the number of all lines. -/
def lines : Nat → List Char → Option (List Line)
  | 0, _ => none
  | fuel + 1, cs => match skipBlanks cs with
    | [] => some []
    | '#' :: rest => do lines fuel (← endLine ('#' :: rest))
    | cs => match newline cs with
      | some rest => lines fuel rest
      | none => do
        let (l, rest) ← line cs
        return l :: (← lines fuel rest)

/-- Reads a document; a byte order mark in front is left out. -/
def read? (s : String) : Option (List (String × Value)) := do
  let cs := match s.toList with
    | '\ufeff' :: rest => rest
    | cs => cs
  documentOf (← lines (cs.length + 1) cs)

end SharedWatch.Toml
