import SharedWatch.Word

/-!
# Spans of time

A `Span` is a length of time in nanoseconds.  Its text uses the largest unit that leaves a whole
part, and the fewest decimal places that lose nothing: `1.5s`, `100ms`, `1.5µs`, `0ns`.
`Span.scale?` multiplies, and answers nothing once the product passes the longest span.
-/

namespace SharedWatch

/-- A length of time in nanoseconds. -/
structure Span where
  /-- The number of nanoseconds. -/
  nanos : Nat
deriving DecidableEq

namespace Span

/-- A span of whole milliseconds. -/
def ofMillis (ms : Nat) : Span := ⟨ms * 1000000⟩

/-- A span of whole seconds and a number of nanoseconds. -/
def ofParts (secs nanos : Nat) : Span := ⟨secs * 1000000000 + nanos⟩

/-- The whole milliseconds of a span. -/
def millis (d : Span) : Nat := d.nanos / 1000000

/-- The longest span: its whole seconds are a 64 bit number. -/
def longest : Span := ⟨wordCount * 1000000000 - 1⟩

/-- A multiple of a span, if it is no longer than the longest one. -/
def scale? (d : Span) (k : Nat) : Option Span :=
  if d.nanos * k ≤ longest.nanos then some ⟨d.nanos * k⟩ else none

/-- The shorter of two spans. -/
def shorter (a b : Span) : Span := if a.nanos ≤ b.nanos then a else b

/-- The decimal places of `n`, written with `width` places and without the zeros at the end. -/
def places (n width : Nat) : String :=
  let digits := (Nat.toDigits 10 n)
  let padded := List.replicate (width - digits.length) '0' ++ digits
  String.ofList (padded.reverse.dropWhile (· == '0')).reverse

/-- `whole` units and `part` of `10 ^ width` parts of one. -/
def decimal (whole part width : Nat) (unit : String) : String :=
  if part = 0 then toString whole ++ unit
  else toString whole ++ "." ++ places part width ++ unit

/-- A span as it is shown in messages. -/
def text (d : Span) : String :=
  if 1000000000 ≤ d.nanos then decimal (d.nanos / 1000000000) (d.nanos % 1000000000) 9 "s"
  else if 1000000 ≤ d.nanos then decimal (d.nanos / 1000000) (d.nanos % 1000000) 6 "ms"
  else if 1000 ≤ d.nanos then decimal (d.nanos / 1000) (d.nanos % 1000) 3 "µs"
  else decimal d.nanos 0 0 "ns"

end Span

end SharedWatch
