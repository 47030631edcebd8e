import SharedWatch.Decimal.Binary

/-!
# Shortest decimals

The fewest decimal digits that identify a binary floating point number.

* `Binary.admits`: whether a decimal rounds to a number.
* `Binary.shortest`: the first grid of 1, 2, … 17 digits on which a neighbour of the number rounds
  to it; of two such neighbours the nearer, and the even one if neither is nearer.
* `plain` writes the digits positionally; `compact` takes an exponent for numbers from
  `1e16` on and for those below `1e-5`.  Both write a point, so that a number is never taken for an
  integer.
-/

namespace SharedWatch.Decimal

/-- A decimal `digits · 10 ^ exponent`. -/
structure Digits where
  /-- The digits. -/
  digits : Nat
  /-- The exponent of ten. -/
  exponent : Int
deriving DecidableEq

namespace Binary

/-- The quarter of a unit in the last place, as a quotient. -/
def quarter (b : Binary) : Nat × Nat := power 2 (b.exponent - 2)

/-- Whether a decimal rounds to the number.  Bounds belong to the number of even significand. -/
def admits (b : Binary) (d : Digits) : Bool :=
  let (quarterNum, quarterDen) := b.quarter
  let (tenNum, tenDen) := power 10 d.exponent
  let point := d.digits * tenNum * quarterDen
  let lower := (4 * b.significand - if b.isNarrow then 1 else 2) * quarterNum * tenDen
  let upper := (4 * b.significand + 2) * quarterNum * tenDen
  if b.significand % 2 = 0 then decide (lower ≤ point ∧ point ≤ upper)
  else decide (lower < point ∧ point < upper)

/-- The number of units `10 ^ e` in the number, as a quotient. -/
def units (b : Binary) (e : Int) : Nat × Nat :=
  let (twoNum, twoDen) := power 2 b.exponent
  let (tenNum, tenDen) := power 10 e
  (b.significand * twoNum * tenDen, twoDen * tenNum)

/-- The exponent of the leading decimal digit; no number has it below `-400`. -/
def leading (b : Binary) : Int :=
  let (num, den) := b.units (-400)
  (Nat.toDigits 10 (num / den)).length - 401

/-- The neighbour of the number on the grid of unit `10 ^ e` that rounds to it, if one does. -/
def onGrid (b : Binary) (e : Int) : Option Digits :=
  let (num, den) := b.units e
  let below : Digits := ⟨num / den, e⟩
  let above : Digits := ⟨num / den + 1, e⟩
  match b.admits below, b.admits above with
  | false, false => none
  | true, false => some below
  | false, true => some above
  | true, true =>
    let part := 2 * (num % den)
    if part < den || (part == den && below.digits % 2 == 0) then some below else some above

/-- The fewest digits that round to the number. -/
def shortest (b : Binary) : Digits :=
  let grids : List Int := (List.range 17).map fun (n : Nat) => b.leading - (n : Int)
  (grids.findSome? b.onGrid).getD ⟨(b.units (b.leading - 16)).1 / (b.units (b.leading - 16)).2,
    b.leading - 16⟩

end Binary

/-- The digits of a decimal, without zeros at the end. -/
def Digits.text (d : Digits) : List Char :=
  ((Nat.toDigits 10 d.digits).reverse.dropWhile (· == '0')).reverse

/-- The exponent of the leading digit of a decimal. -/
def Digits.leading (d : Digits) : Int := (Nat.toDigits 10 d.digits).length - 1 + d.exponent

/-- Digits with the point behind the digit of exponent zero, and a digit on each side of it. -/
def positional (digits : List Char) (leading : Int) : String :=
  if leading < 0 then
    "0." ++ String.ofList (List.replicate (-leading - 1).toNat '0' ++ digits)
  else
    let size := leading.toNat + 1
    let whole := digits.take size ++ List.replicate (size - digits.length) '0'
    let part := digits.drop size
    String.ofList whole ++ "." ++ (if part = [] then "0" else String.ofList part)

/-- Digits with the point behind the first one, if there are more, and an exponent. -/
def scientific (digits : List Char) (leading : Int) : String :=
  let part := digits.drop 1
  String.ofList (digits.take 1) ++ (if part = [] then "" else "." ++ String.ofList part) ++ "e"
    ++ toString leading

/-- A float written by `layout`, which gets the digits and the exponent of the leading one. -/
def written (layout : List Char → Int → String) (x : Float) : String :=
  let sign := if isNegative x then "-" else ""
  if x.isNaN then "NaN"
  else if x.isInf then sign ++ "inf"
  else if x == 0 then sign ++ "0.0"
  else
    let d := (Binary.ofBits x.toBits).shortest
    sign ++ layout d.text d.leading

/-- A float with the fewest digits that identify it, without an exponent. -/
def plain (x : Float) : String := written positional x

/-- A float with the fewest digits that identify it, with an exponent from `1e16` on and below
`1e-5`. -/
def compact (x : Float) : String :=
  written (fun digits leading =>
    if -5 ≤ leading ∧ leading < 16 then positional digits leading
    else scientific digits leading) x

end SharedWatch.Decimal
