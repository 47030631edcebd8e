import SharedWatch.Json.Value
import SharedWatch.Text.Natural
import SharedWatch.Word

/-!
# Reading structured values

A reader for the text form of `Json.Value`.

* Blanks are allowed between tokens, and nothing may follow the value.
* Numbers without point and exponent are integers as long as 64 bits suffice; the negative zero
  is a float, and so is every other number.
* A character outside the basic plane may be written as a pair of escapes.
-/

namespace SharedWatch.Json

/-- What may stand between tokens. -/
def isBlank (c : Char) : Bool := c == ' ' || c == '\t' || c == '\n' || c == '\r'

/-- Leaves out blanks. -/
def skipBlanks (cs : List Char) : List Char := cs.dropWhile isBlank

/-- Four hexadecimal digits. -/
def hexUnit? : List Char → Option (Nat × List Char)
  | a :: b :: c :: d :: rest => do
    let a ← Text.hexDigit? a
    let b ← Text.hexDigit? b
    let c ← Text.hexDigit? c
    let d ← Text.hexDigit? d
    return (((a * 16 + b) * 16 + c) * 16 + d, rest)
  | _ => none

/-- A character by its number, or by two halves of it. -/
def numbered? (cs : List Char) : Option (Char × List Char) := do
  let (high, rest) ← hexUnit? cs
  if 0xD800 ≤ high ∧ high < 0xDC00 then
    match rest with
    | '\\' :: 'u' :: rest => do
      let (low, rest) ← hexUnit? rest
      if 0xDC00 ≤ low ∧ low < 0xE000 then
        let c ← Text.charOf? (0x10000 + (high - 0xD800) * 0x400 + (low - 0xDC00))
        return (c, rest)
      else none
    | _ => none
  else
    let c ← Text.charOf? high
    return (c, rest)

/-- What follows a backslash. -/
def escape? : List Char → Option (Char × List Char)
  | '"' :: rest => some ('"', rest)
  | '\\' :: rest => some ('\\', rest)
  | '/' :: rest => some ('/', rest)
  | 'b' :: rest => some ('\x08', rest)
  | 'f' :: rest => some ('\x0c', rest)
  | 'n' :: rest => some ('\n', rest)
  | 'r' :: rest => some ('\r', rest)
  | 't' :: rest => some ('\t', rest)
  | 'u' :: rest => numbered? rest
  | _ => none

/-- The rest of a text behind its opening quote, with at most `fuel` characters; `acc` holds those
read so far, the last one first. -/
def textTail : Nat → List Char → List Char → Option (String × List Char)
  | 0, _, _ => none
  | fuel + 1, acc, cs => match cs with
    | '"' :: rest => some (String.ofList acc.reverse, rest)
    | '\\' :: rest => do
      let (c, rest) ← escape? rest
      textTail fuel (c :: acc) rest
    | c :: rest => if c.toNat < 0x20 then none else textTail fuel (c :: acc) rest
    | [] => none

/-- A text behind its opening quote. -/
def readText (cs : List Char) : Option (String × List Char) := textTail (cs.length + 1) [] cs

/-- The digits at the front. -/
def digits (cs : List Char) : List Char × List Char := cs.span Char.isDigit

/-- The fraction behind a number, if there is one: its digits. -/
def fraction? : List Char → Option (List Char × List Char)
  | '.' :: rest =>
    let (ds, rest) := digits rest
    if ds = [] then none else some (ds, rest)
  | cs => some ([], cs)

/-- The exponent behind a number, if there is one. -/
def exponent? (cs : List Char) : Option (Option Int × List Char) :=
  match cs with
  | 'e' :: rest | 'E' :: rest =>
    let (negative, rest) := match rest with
      | '-' :: rest => (true, rest)
      | '+' :: rest => (false, rest)
      | _ => (false, rest)
    let (ds, rest) := digits rest
    if ds = [] then none
    else some (some (if negative then -(Text.digitsNat 10 ds : Int) else Text.digitsNat 10 ds), rest)
  | _ => some (none, cs)

/-- The number written with these parts. -/
def Number.ofParts (negative : Bool) (whole part : List Char) (exponent : Option Int) : Number :=
  let m := Text.digitsNat 10 whole
  let fits := if negative then 0 < m && m ≤ signedCount else m < wordCount
  if part = [] && exponent.isNone && fits then .whole (if negative then -(m : Int) else m)
  else .real (Decimal.signed negative (Text.digitsNat 10 (whole ++ part)) (exponent.getD 0 - part.length))

/-- A number. -/
def readNumber (cs : List Char) : Option (Number × List Char) := do
  let (negative, cs) := match cs with
    | '-' :: rest => (true, rest)
    | _ => (false, cs)
  let (whole, cs) := digits cs
  if whole = [] || (whole.head? = some '0' && 1 < whole.length) then none
  let (part, cs) ← fraction? cs
  let (exponent, cs) ← exponent? cs
  return (.ofParts negative whole part exponent, cs)

/-- Takes a word off the front. -/
def dropWord (word : String) (cs : List Char) : Option (List Char) :=
  if word.toList.isPrefixOf cs then some (cs.drop word.length) else none

mutual

/-- A value, after blanks, of at most `fuel` tokens. -/
def readValue : Nat → List Char → Option (Value × List Char)
  | 0, _ => none
  | fuel + 1, cs => match skipBlanks cs with
    | '\x7b' :: rest => match skipBlanks rest with
      | '\x7d' :: rest => some (.record [], rest)
      | rest => readFields fuel [] rest
    | '[' :: rest => match skipBlanks rest with
      | ']' :: rest => some (.list [], rest)
      | rest => readItems fuel [] rest
    | '"' :: rest => (readText rest).map fun (s, rest) => (.text s, rest)
    | 'n' :: rest => (dropWord "ull" rest).map fun rest => (.null, rest)
    | 't' :: rest => (dropWord "rue" rest).map fun rest => (.flag true, rest)
    | 'f' :: rest => (dropWord "alse" rest).map fun rest => (.flag false, rest)
    | cs => (readNumber cs).map fun (n, rest) => (.number n, rest)

/-- The items of a sequence that has at least one more; `acc` holds those read, last one first. -/
def readItems : Nat → List Value → List Char → Option (Value × List Char)
  | 0, _, _ => none
  | fuel + 1, acc, cs => do
    let (v, rest) ← readValue fuel cs
    match skipBlanks rest with
    | ',' :: rest => readItems fuel (v :: acc) rest
    | ']' :: rest => some (.list (v :: acc).reverse, rest)
    | _ => none

/-- The fields of a record that has at least one more; `acc` holds those read. -/
def readFields : Nat → List (String × Value) → List Char → Option (Value × List Char)
  | 0, _, _ => none
  | fuel + 1, acc, cs => match skipBlanks cs with
    | '"' :: rest => do
      let (key, rest) ← readText rest
      match skipBlanks rest with
      | ':' :: rest =>
        let (v, rest) ← readValue fuel rest
        let acc := setField key v acc
        match skipBlanks rest with
        | ',' :: rest => readFields fuel acc rest
        | '\x7d' :: rest => some (.record acc, rest)
        | _ => none
      | _ => none
    | _ => none

end

/-- Reads a whole text. -/
def read? (s : String) : Option Value := do
  let cs := s.toList
  let (v, rest) ← readValue (2 * cs.length + 2) cs
  if skipBlanks rest = [] then some v else none

end SharedWatch.Json
