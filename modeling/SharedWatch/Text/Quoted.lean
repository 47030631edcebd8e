import SharedWatch.Text.Visible

/-!
# Quoted text

Text between double quotes, as messages show a value whose ends must be visible.  The quote and
the backslash are escaped, so are the usual controls, and every character that has no glyph of its
own or attaches to the one before it is written by its number.
-/

namespace SharedWatch.Text

/-- The hexadecimal digits of a number, in lower case. -/
def hex (n : Nat) : String := String.ofList (Nat.toDigits 16 n)

/-- A character written by its number. -/
def numbered (c : Char) : String := "\\u\x7b" ++ hex c.toNat ++ "\x7d"

/-- One character of a quoted text. -/
def quotedChar (c : Char) : String :=
  if c = '\x00' then "\\0"
  else if c = '\t' then "\\t"
  else if c = '\n' then "\\n"
  else if c = '\r' then "\\r"
  else if c = '"' then "\\\""
  else if c = '\\' then "\\\\"
  else if attaches c || !isVisible c then numbered c
  else c.toString

/-- A text between double quotes, with everything invisible in it escaped. -/
def quoted (s : String) : String :=
  "\"" ++ s.foldl (fun acc c => acc ++ quotedChar c) "" ++ "\""

end SharedWatch.Text
