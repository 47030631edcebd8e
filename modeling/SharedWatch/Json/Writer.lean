import SharedWatch.Json.Value

/-!
# Writing structured values

Writes a `Json.Value` on one line, without blanks.
-/

namespace SharedWatch.Json

/-- Four hexadecimal digits. -/
def fourHex (n : Nat) : String :=
  let ds := Nat.toDigits 16 n
  String.ofList (List.replicate (4 - ds.length) '0' ++ ds)

/-- One character of a text. -/
def writeChar (c : Char) : String :=
  if c = '"' then "\\\""
  else if c = '\\' then "\\\\"
  else if c.toNat < 0x20 then "\\u" ++ fourHex c.toNat
  else c.toString

/-- A text between quotes. -/
def writeText (s : String) : String :=
  "\"" ++ s.foldl (fun acc c => acc ++ writeChar c) "" ++ "\""

/-- A number; one that is not finite has no form of its own. -/
def Number.write : Number → String
  | whole n => toString n
  | real x => if x.isFinite then Decimal.compact x else "null"

mutual

/-- A value on one line. -/
def Value.write : Value → String
  | .null => "null"
  | .flag b => if b then "true" else "false"
  | .number n => n.write
  | .text s => writeText s
  | .list items => "[" ++ writeItems items ++ "]"
  | .record fields => "\x7b" ++ writeFields fields ++ "\x7d"

/-- The items of a sequence, with commas between them. -/
def writeItems : List Value → String
  | [] => ""
  | v :: rest => v.write ++ (if rest.isEmpty then "" else ",") ++ writeItems rest

/-- The fields of a record, with commas between them. -/
def writeFields : List (String × Value) → String
  | [] => ""
  | (key, v) :: rest =>
    writeText key ++ ":" ++ v.write ++ (if rest.isEmpty then "" else ",") ++ writeFields rest

end

end SharedWatch.Json
