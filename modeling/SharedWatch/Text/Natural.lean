import SharedWatch.Word

/-!
# Reading numbers

* `digitsNat`: the value of a list of digits, in any base up to 16.
* `readWord`: reads a 64 bit number the way versions are read: decimal digits, at least one, after
  an optional plus sign; leading zeros change nothing and a value of `2 ^ 64` or more is refused.
* `charOf?`: the character of a number.
* `readDigits_toString`, `readWord_toString`: what is read is the number that was written.
-/

namespace SharedWatch.Text

/-- The value of a hexadecimal digit. -/
def hexDigit? (c : Char) : Option Nat :=
  if '0' ≤ c ∧ c ≤ '9' then some (c.toNat - '0'.toNat)
  else if 'a' ≤ c ∧ c ≤ 'f' then some (c.toNat - 'a'.toNat + 10)
  else if 'A' ≤ c ∧ c ≤ 'F' then some (c.toNat - 'A'.toNat + 10)
  else none

/-- Whether a character is a digit of a base. -/
def isDigitOf (base : Nat) (c : Char) : Bool := (hexDigit? c).any (· < base)

/-- The number in a list of digits of a base. -/
def digitsNat (base : Nat) (cs : List Char) : Nat :=
  cs.foldl (fun n c => n * base + (hexDigit? c).getD 0) 0

/-- A number in decimal digits, at least one. -/
def readDigits (cs : List Char) : Option Nat :=
  if cs ≠ [] ∧ cs.all Char.isDigit then some (digitsNat 10 cs) else none

/-- A 64 bit number in decimal digits, after an optional plus sign. -/
def readWord (s : String) : Option Nat :=
  let digits := match s.toList with
    | '+' :: rest => rest
    | cs => cs
  (readDigits digits).filter (· < wordCount)

/-- The character of a number, if there is one. -/
def charOf? (n : Nat) : Option Char := if n.isValidChar then some (Char.ofNat n) else none

/-! ## Numbers that have been written -/

theorem hexDigit?_of_isDigit {c : Char} (digit : c.isDigit = true) :
    hexDigit? c = some (c.toNat - '0'.toNat) := by
  unfold hexDigit?
  rw [Char.isDigit, Bool.and_eq_true, decide_eq_true_eq, decide_eq_true_eq] at digit
  exact if_pos digit

/-- Digits are read the way numbers are written. -/
theorem digitsNat_eq_ofDigitChars {cs : List Char} (digits : ∀ c ∈ cs, c.isDigit = true) :
    digitsNat 10 cs = Nat.ofDigitChars 10 cs 0 := by
  suffices folded : ∀ n, cs.foldl (fun n c => n * 10 + (hexDigit? c).getD 0) n =
      Nat.ofDigitChars 10 cs n from folded 0
  induction cs with
  | nil => exact fun _ => rfl
  | cons c cs ih =>
    intro n
    rw [List.foldl_cons, hexDigit?_of_isDigit (digits c List.mem_cons_self),
      Nat.ofDigitChars_cons, Nat.mul_comm 10 n]
    exact ih (fun c mem => digits c (List.mem_cons_of_mem _ mem)) _

theorem readDigits_toString (n : Nat) : readDigits (toString n).toList = some n := by
  have digits : ∀ c ∈ Nat.toDigits 10 n, c.isDigit = true := fun _ mem =>
    Nat.isDigit_of_mem_toDigits (by decide) (by decide) mem
  rw [Nat.toString_eq_repr, Nat.toList_repr]
  unfold readDigits
  rw [if_pos ⟨Nat.toDigits_ne_nil, List.all_eq_true.mpr digits⟩,
    digitsNat_eq_ofDigitChars digits, Nat.ofDigitChars_ten_toDigits]

theorem toString_inj {m n : Nat} (same : toString m = toString n) : m = n := by
  have read := readDigits_toString m
  rw [same, readDigits_toString] at read
  exact (Option.some.inj read).symm

/-- A number that is read is the one that was written. -/
theorem readWord_toString {n r : Nat} (read : readWord (toString n) = some r) : r = n := by
  have whole := readDigits_toString n
  unfold readWord at read
  simp only at read
  split at read
  · rename_i rest written
    rw [written] at whole
    simp [readDigits] at whole
  · rw [whole] at read
    exact (Option.some.inj (Option.filter_eq_some_iff.mp read).1).symm

end SharedWatch.Text
