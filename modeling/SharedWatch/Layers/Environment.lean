import SharedWatch.Decimal.Binary
import SharedWatch.Layers.Library
import SharedWatch.Layers.Tree
import SharedWatch.Text.Natural
import SharedWatch.Word

/-!
# The environment as a layer

Variables whose names begin as they should, in any case, set what the rest of the name says; a
separator leads from a table to a key in it.  A variable without a value sets nothing, if it is to be
ignored.  A value that reads as yes or no, as an integer or as a float is one, if values are to be read;
any other is a text.
-/

namespace SharedWatch.Environment

/-- How the layer is called in messages. -/
def origin : String := "the environment"

/-- A sign, if there is one: whether it is a minus. -/
def sign : List Char → Bool × List Char
  | '-' :: rest => (true, rest)
  | '+' :: rest => (false, rest)
  | cs => (false, cs)

/-- A number, if 64 bits suffice for it and a sign. -/
def signed? (n : Int) : Option Int := if isSigned n then some n else none

/-- An integer with an optional sign, if 64 bits suffice. -/
def integer? (s : String) : Option Int := do
  let (negative, cs) := sign s.toList
  let n : Int := ← Text.readDigits cs
  signed? (if negative then -n else n)

/-- The float that a word stands for. -/
def namedFloat? (s : String) : Option Float :=
  match s.map Char.toLower with
  | "inf" | "infinity" => some (1 / 0)
  | "nan" => some (0 / 0)
  | _ => none

/-- An exponent behind its mark, if there is one. -/
def exponent? : List Char → Option Int
  | [] => some 0
  | c :: rest =>
    if c = 'e' || c = 'E' then
      let (negative, rest) := sign rest
      (Text.readDigits rest).map fun n => if negative then -(n : Int) else n
    else none

/-- A float: a sign, digits with a point anywhere among them, an exponent; or a word. -/
def float? (s : String) : Option Float :=
  let (negative, cs) := sign s.toList
  match namedFloat? (String.ofList cs) with
  | some x => some (if negative then -x else x)
  | none =>
    let whole := cs.takeWhile Char.isDigit
    let (part, rest) := match cs.drop whole.length with
      | '.' :: rest => rest.span Char.isDigit
      | rest => ([], rest)
    if whole ++ part = [] then none
    else (exponent? rest).map fun e =>
      Decimal.signed negative (Text.digitsNat 10 (whole ++ part)) (e - part.length)

/-- What a value stands for. -/
def scalar (s : String) : Scalar :=
  let lower := s.map Char.toLower
  if lower = "true" then .flag true
  else if lower = "false" then .flag false
  else match integer? s with
    | some n => .whole n
    | none => match float? s with
      | some x => .real x
      | none => .text s

/-- A text with a point for every separator; the first `skipped` characters are left out. -/
def pointed (separator : List Char) : Nat → List Char → List Char
  | _, [] => []
  | skipped + 1, _ :: rest => pointed separator skipped rest
  | 0, c :: rest =>
    if separator.isPrefixOf (c :: rest) then
      '.' :: pointed separator (separator.length - 1) rest
    else c :: pointed separator 0 rest

/-- The key of a variable: what stands in its name, in lower case, behind what all names begin with. -/
def key? (source : EnvironmentSource) (name : String) : Option String :=
  let front := (source.front.map Char.toLower ++ source.separator).toList
  let name := (name.map Char.toLower).toList
  if front.isPrefixOf name then
    some (String.ofList (pointed source.separator.toList 0 (name.drop front.length)))
  else none

/-- What a variable of a name and a value sets, if it sets something. -/
def setting? (source : EnvironmentSource) (name value : String) : Option (String × Tree) :=
  if source.ignoresEmpty && value = "" then none
  else (key? source name).map fun key =>
    (key, .leaf (if source.parses then scalar value else .text value) (some origin))

/-- What the environment sets; of several variables for one setting the last one counts. -/
def layer (source : EnvironmentSource) (environment : List (String × String)) :
    List (String × Tree) :=
  environment.filterMap fun (name, value) => setting? source name value

end SharedWatch.Environment
