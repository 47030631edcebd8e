import SharedWatch.Word

/-!
# Binary floating point numbers

* `Binary`: a number `m · 2 ^ q` that is not negative, taken from the bits of a float.
* `nearest`: the float nearest to a decimal `m · 10 ^ e`.
* `roundedWord`: the 64 bit number nearest to a float; a half goes up, and what is out of range
  goes to the nearer end of the range.
-/

namespace SharedWatch.Decimal

/-- A number `significand · 2 ^ exponent`. -/
structure Binary where
  /-- The significand. -/
  significand : Nat
  /-- The exponent of two. -/
  exponent : Int
  /-- The next smaller float is only half as far away as the next larger one. -/
  isNarrow : Bool

/-- `base ^ e`, as a quotient. -/
def power (base : Nat) (e : Int) : Nat × Nat :=
  if 0 ≤ e then (Nat.pow base e.toNat, 1) else (1, Nat.pow base (-e).toNat)

/-- How many fractions there are: two to the power of 52. -/
def fractionCount : Nat := 4503599627370496

/-- The absolute value of a finite float, from its bits. -/
def Binary.ofBits (bits : UInt64) : Binary :=
  let fraction := bits.toNat % fractionCount
  let biased : Nat := bits.toNat / fractionCount % 2048
  if biased = 0 then ⟨fraction, -1074, false⟩
  else ⟨fractionCount + fraction, (biased : Int) - 1075, fraction = 0 && 1 < biased⟩

/-- The natural number nearest to a number; a half goes up. -/
def Binary.rounded (b : Binary) : Nat :=
  let (num, den) := power 2 b.exponent
  (2 * b.significand * num + den) / (2 * den)

/-- Whether a float is negative, a negative zero included. -/
def isNegative (x : Float) : Bool := decide (signedCount ≤ x.toBits.toNat)

/-- The 64 bit number nearest to a float: zero for one that is negative or no number, and the
largest for one that is too large. -/
def roundedWord (x : Float) : UInt64 :=
  if x.isNaN || isNegative x then 0
  else if x.isInf then largestWord
  else UInt64.ofNat (min (Binary.ofBits x.toBits).rounded (wordCount - 1))

/-- The float nearest to `m · 10 ^ e`.  Beyond `10 ^ 400` there is only infinity, and below
`10 ^ -400` only zero. -/
def nearest (m : Nat) (e : Int) : Float :=
  let leading : Int := (Nat.toDigits 10 m).length + e
  if m = 0 || leading < -400 then 0
  else if 400 < leading then 1 / 0
  else Float.ofScientific m (e < 0) e.natAbs

/-- The float nearest to `m · 10 ^ e`, with a sign. -/
def signed (negative : Bool) (m : Nat) (e : Int) : Float :=
  if negative then -(nearest m e) else nearest m e

end SharedWatch.Decimal
