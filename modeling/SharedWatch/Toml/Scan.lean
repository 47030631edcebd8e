import SharedWatch.Decimal.Binary
import SharedWatch.Text.Natural
import SharedWatch.Word

/-!
# Words of a document

The parts of a TOML document that hold no other values: blanks and comments, texts, numbers, dates
and times.  Each scanner takes its part off the front of a list of characters and yields it with
the rest, or nothing if the part is not there.
-/

namespace SharedWatch.Toml

/-! ## Blanks and ends of lines -/

/-- What may stand between the parts of a line. -/
def isBlank (c : Char) : Bool := c == ' ' || c == '\t'

/-- Leaves out blanks. -/
def skipBlanks (cs : List Char) : List Char := cs.dropWhile isBlank

/-- Whether a character may stand in a comment: no control but the tab. -/
def isPlain (c : Char) : Bool := c == '\t' || (0x20 ≤ c.toNat && c.toNat != 0x7f)

/-- Leaves out a comment, if there is one. -/
def skipComment : List Char → List Char
  | '#' :: rest => rest.dropWhile isPlain
  | cs => cs

/-- The end of a line. -/
def newline : List Char → Option (List Char)
  | '\n' :: rest => some rest
  | '\r' :: '\n' :: rest => some rest
  | _ => none

/-- What may follow the last part of a line: blanks, a comment, and the end of the line or of the
document. -/
def endLine (cs : List Char) : Option (List Char) :=
  match skipComment (skipBlanks cs) with
  | [] => some []
  | cs => newline cs

/-- Leaves out blanks, comments and ends of lines; `fuel` bounds the number of lines. -/
def skipLines : Nat → List Char → List Char
  | 0, cs => cs
  | fuel + 1, cs => match newline (skipComment (skipBlanks cs)) with
    | some rest => skipLines fuel rest
    | none => match skipBlanks cs with
      | '#' :: rest => '#' :: rest
      | cs => cs

/-- Leaves out blanks, comments and ends of lines.  A comment must end with its line. -/
def skipFill (cs : List Char) : List Char := skipLines (cs.length + 1) cs

/-! ## Texts -/

/-- A character by a number of hexadecimal digits. -/
def numbered (size : Nat) (cs : List Char) : Option (Char × List Char) :=
  let ds := cs.take size
  if ds.length = size ∧ ds.all (Text.isDigitOf 16) then
    (Text.charOf? (Text.digitsNat 16 ds)).map fun c => (c, cs.drop size)
  else none

/-- What follows a backslash. -/
def escape : List Char → Option (Char × List Char)
  | 'b' :: rest => some ('\x08', rest)
  | 't' :: rest => some ('\t', rest)
  | 'n' :: rest => some ('\n', rest)
  | 'f' :: rest => some ('\x0c', rest)
  | 'r' :: rest => some ('\r', rest)
  | '\x22' :: rest => some ('\x22', rest)
  | '\\' :: rest => some ('\\', rest)
  | 'u' :: rest => numbered 4 rest
  | 'U' :: rest => numbered 8 rest
  | _ => none

/-- A text in double quotes, behind the first one; `acc` holds the characters read, last one
first. -/
def quotedTail : Nat → List Char → List Char → Option (String × List Char)
  | 0, _, _ => none
  | fuel + 1, acc, cs => match cs with
    | '\x22' :: rest => some (String.ofList acc.reverse, rest)
    | '\\' :: rest => do
      let (c, rest) ← escape rest
      quotedTail fuel (c :: acc) rest
    | c :: rest => if isPlain c then quotedTail fuel (c :: acc) rest else none
    | [] => none

/-- A text in single quotes, behind the first one: nothing in it is escaped. -/
def literalTail (cs : List Char) : Option (String × List Char) :=
  let inside := cs.takeWhile fun c => isPlain c && c != '\x27'
  match cs.drop inside.length with
  | '\x27' :: rest => some (String.ofList inside, rest)
  | _ => none

/-- Leaves out empty lines and the blanks behind them; `fuel` bounds the number of lines. -/
def skipEmptyLines : Nat → List Char → List Char
  | 0, cs => cs
  | fuel + 1, cs => match newline (skipBlanks cs) with
    | some rest => skipEmptyLines fuel rest
    | none => skipBlanks cs

/-- Leaves out what a backslash at the end of a line swallows: blanks, the end of the line, and all
empty lines and blanks behind it. -/
def swallow (cs : List Char) : Option (List Char) :=
  (newline (skipBlanks cs)).map fun rest => skipEmptyLines (rest.length + 1) rest

/-- A text of several lines, behind its three quotes.  Up to two quotes may stand before the three
that end it.  Ends of lines are kept as line feeds, and `escapes` tells whether a backslash has a
meaning. -/
def longTail (quote : Char) (escapes : Bool) : Nat → List Char → List Char → Option (String × List Char)
  | 0, _, _ => none
  | fuel + 1, acc, cs => match newline cs with
    | some rest => longTail quote escapes fuel ('\n' :: acc) rest
    | none => match cs with
      | [] => none
      | c :: rest =>
        if c = quote then
          let run := (cs.takeWhile (· == quote)).length
          if run < 3 then longTail quote escapes fuel (c :: acc) rest
          else
            let inside := min (run - 3) 2
            some (String.ofList (acc.reverse ++ List.replicate inside quote),
              cs.drop (inside + 3))
        else if escapes && c = '\\' then
          match swallow rest with
          | some rest => longTail quote escapes fuel acc rest
          | none => do
            let (c, rest) ← escape rest
            longTail quote escapes fuel (c :: acc) rest
        else if isPlain c then longTail quote escapes fuel (c :: acc) rest
        else none

/-- A text of several lines, behind its three quotes; an end of line right behind them is left
out. -/
def longText (quote : Char) (escapes : Bool) (cs : List Char) : Option (String × List Char) :=
  longTail quote escapes (cs.length + 1) [] ((newline cs).getD cs)

/-- A text on one line. -/
def shortText : List Char → Option (String × List Char)
  | '\x22' :: rest => quotedTail (rest.length + 1) [] rest
  | '\x27' :: rest => literalTail rest
  | _ => none

/-- A text. -/
def text : List Char → Option (String × List Char)
  | '\x22' :: '\x22' :: '\x22' :: rest => longText '\x22' true rest
  | '\x27' :: '\x27' :: '\x27' :: rest => longText '\x27' false rest
  | cs => shortText cs

/-! ## Numbers -/

/-- Digits of a base behind one that has been read; an underscore may stand between two digits. -/
def moreDigits (base : Nat) : List Char → List Char × List Char
  | '_' :: c :: rest =>
    if Text.isDigitOf base c then
      let (ds, rest) := moreDigits base rest
      (c :: ds, rest)
    else ([], '_' :: c :: rest)
  | c :: rest =>
    if Text.isDigitOf base c then
      let (ds, rest) := moreDigits base rest
      (c :: ds, rest)
    else ([], c :: rest)
  | [] => ([], [])

/-- Digits of a base, at least one. -/
def digits (base : Nat) : List Char → Option (List Char × List Char)
  | c :: rest =>
    if Text.isDigitOf base c then
      let (ds, rest) := moreDigits base rest
      some (c :: ds, rest)
    else none
  | [] => none

/-- A sign, if there is one: whether it is a minus. -/
def sign : List Char → Bool × List Char
  | '-' :: rest => (true, rest)
  | '+' :: rest => (false, rest)
  | cs => (false, cs)

/-- Digits without a zero in front, or a single zero. -/
def wholeDigits : List Char → Option (List Char × List Char)
  | '0' :: rest => some (['0'], rest)
  | cs => digits 10 cs

/-- An integer, if 64 bits suffice. -/
def ofInteger (n : Int) (rest : List Char) : Option (Int × List Char) :=
  if isSigned n then some (n, rest) else none

/-- An integer in base 16, 8, 2 or 10; only the last kind has a sign. -/
def integer : List Char → Option (Int × List Char)
  | '0' :: 'x' :: rest => based 16 rest
  | '0' :: 'o' :: rest => based 8 rest
  | '0' :: 'b' :: rest => based 2 rest
  | cs => do
    let (negative, cs) := sign cs
    let (ds, rest) ← wholeDigits cs
    let n : Int := Text.digitsNat 10 ds
    ofInteger (if negative then -n else n) rest
where
  /-- An integer behind the sign of its base. -/
  based (base : Nat) (cs : List Char) : Option (Int × List Char) := do
    let (ds, rest) ← digits base cs
    ofInteger (Text.digitsNat base ds) rest

/-- The digits behind a point, if there is one. -/
def fraction : List Char → Option (List Char × List Char)
  | '.' :: rest => digits 10 rest
  | cs => some ([], cs)

/-- An exponent, if there is one. -/
def exponent : List Char → Option (Option Int × List Char)
  | 'e' :: rest | 'E' :: rest => do
    let (negative, rest) := sign rest
    let (ds, rest) ← digits 10 rest
    let n : Int := Text.digitsNat 10 ds
    return (some (if negative then -n else n), rest)
  | cs => some (none, cs)

/-- A float by name. -/
def namedFloat (cs : List Char) : Option (Float × List Char) :=
  let (negative, cs) := sign cs
  match cs with
  | 'i' :: 'n' :: 'f' :: rest => some (if negative then -1 / 0 else 1 / 0, rest)
  | 'n' :: 'a' :: 'n' :: rest => some (0 / 0, rest)
  | _ => none

/-- A float with a fraction, an exponent or both.  One that is too large is refused, one that is
too far below zero is not. -/
def decimalFloat (cs : List Char) : Option (Float × List Char) := do
  let (negative, cs) := sign cs
  let (whole, cs) ← wholeDigits cs
  let (part, cs) ← fraction cs
  let (exponent, cs) ← exponent cs
  let x := Decimal.signed negative (Text.digitsNat 10 (whole ++ part))
    (exponent.getD 0 - part.length)
  if part = [] && exponent.isNone then none
  else if x.isInf && !negative then none
  else some (x, cs)

/-- A float. -/
def float (cs : List Char) : Option (Float × List Char) := (decimalFloat cs).or (namedFloat cs)

/-! ## Dates and times -/

/-- A number of exactly `size` digits, in a range. -/
def fixed (size low high : Nat) (cs : List Char) : Option (Nat × List Char) :=
  let ds := cs.take size
  let n := Text.digitsNat 10 ds
  if ds.length = size ∧ ds.all Char.isDigit ∧ low ≤ n ∧ n ≤ high then some (n, cs.drop size)
  else none

/-- Takes a character off the front. -/
def dropChar (c : Char) : List Char → Option (List Char)
  | d :: rest => if c = d then some rest else none
  | [] => none

/-- A number with zeros in front. -/
def padded (size n : Nat) : String :=
  let ds := Nat.toDigits 10 n
  String.ofList (List.replicate (size - ds.length) '0' ++ ds)

/-- Whether a year has a day more. -/
def isLeap (year : Nat) : Bool := year % 4 = 0 && (year % 100 != 0 || year % 400 = 0)

/-- How many days a month has. -/
def daysIn (year month : Nat) : Nat :=
  if month = 2 then (if isLeap year then 29 else 28)
  else if month ∈ [4, 6, 9, 11] then 30 else 31

/-- A date, in its normal form. -/
def date (cs : List Char) : Option (String × List Char) := do
  let (year, cs) ← fixed 4 0 9999 cs
  let (month, cs) ← fixed 2 1 12 (← dropChar '-' cs)
  let (day, cs) ← fixed 2 1 (daysIn year month) (← dropChar '-' cs)
  return (padded 4 year ++ "-" ++ padded 2 month ++ "-" ++ padded 2 day, cs)

/-- The part of a second, if there is one: nine digits of it, without zeros at the end. -/
def secondPart : List Char → List Char × List Char
  | '.' :: c :: rest =>
    if c.isDigit then
      let ds := (c :: rest).takeWhile Char.isDigit
      (((ds.take 9).reverse.dropWhile (· == '0')).reverse, (c :: rest).drop ds.length)
    else ([], '.' :: c :: rest)
  | cs => ([], cs)

/-- A time of day, in its normal form. -/
def time (cs : List Char) : Option (String × List Char) := do
  let (hour, cs) ← fixed 2 0 23 cs
  let (minute, cs) ← fixed 2 0 59 (← dropChar ':' cs)
  let (second, cs) ← fixed 2 0 60 (← dropChar ':' cs)
  let (part, cs) := secondPart cs
  return (padded 2 hour ++ ":" ++ padded 2 minute ++ ":" ++ padded 2 second
    ++ (if part = [] then "" else "." ++ String.ofList part), cs)

/-- An offset from universal time, in its normal form; no offset is written without a minus of its
own. -/
def offset : List Char → Option (String × List Char)
  | 'Z' :: rest | 'z' :: rest => some ("Z", rest)
  | '+' :: rest => parts false rest
  | '-' :: rest => parts true rest
  | _ => none
where
  /-- The hours and minutes of an offset. -/
  parts (negative : Bool) (cs : List Char) : Option (String × List Char) := do
    let (hours, cs) ← fixed 2 0 23 cs
    let (minutes, cs) ← fixed 2 0 59 (← dropChar ':' cs)
    let mark := if negative && 0 < hours + minutes then "-" else "+"
    return (mark ++ padded 2 hours ++ ":" ++ padded 2 minutes, cs)

/-- A time of day behind a date, with an offset if there is one. -/
def timeOfDate : List Char → Option (String × List Char)
  | c :: rest =>
    if c = 'T' || c = 't' || c = ' ' then do
      let (t, rest) ← time rest
      match offset rest with
      | some (o, rest) => return ("T" ++ t ++ o, rest)
      | none => return ("T" ++ t, rest)
    else none
  | [] => none

/-- A date, a time or both, in its normal form. -/
def moment (cs : List Char) : Option (String × List Char) :=
  match date cs with
  | some (d, cs) => match timeOfDate cs with
    | some (t, cs) => some (d ++ t, cs)
    | none => some (d, cs)
  | none => time cs

end SharedWatch.Toml
