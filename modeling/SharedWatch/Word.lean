/-!
# Bounds of 64 bit numbers

* `wordCount`: how many numbers 64 bits tell apart.
* `signedCount`: how many of them are not negative, if one bit is a sign.
-/

namespace SharedWatch

/-- How many numbers 64 bits tell apart: two to the power of 64. -/
def wordCount : Nat := 18446744073709551616

/-- How many signed numbers of 64 bits are not negative: two to the power of 63. -/
def signedCount : Nat := 9223372036854775808

/-- Whether an integer is a signed number of 64 bits. -/
def isSigned (n : Int) : Bool := decide (-(signedCount : Int) ≤ n) && decide (n < signedCount)

theorem isSigned_natCast {n : Nat} (fits : n < signedCount) : isSigned n = true := by
  unfold isSigned
  rw [Bool.and_eq_true, decide_eq_true_eq, decide_eq_true_eq]
  omega

/-- The largest 64 bit number. -/
def largestWord : UInt64 := 18446744073709551615

end SharedWatch
