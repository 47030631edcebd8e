import SharedWatch.Toml.Reader

/-!
# Documents of numbers

The plainest documents have one thing on each line: a number that is given to a key, or the name of
the table that the next keys are in.  They are read back as they are written.

* `Toml.Plain`: such a line, its text and what it says.
* `number_toDigits`: the digits of a number are read as that number.
* `Plain.lines_text`, `read?_text`: a text of such lines is read line by line.
* `documentOf_document`: what numbers and a table of numbers say, if no key is given twice.
-/

namespace SharedWatch.Toml

/-! ## Kinds of characters -/

/-- A character of a kind is no character that is not of it. -/
theorem cons_ne_of_kind {kind : Char → Bool} {c d : Char} {cs ds : List Char}
    (own : kind c = true) (other : kind d = false) : c :: cs ≠ d :: ds := fun same => by
  rw [(List.cons.inj same).1, other] at own
  cases own

/-- A character of a kind that blanks are not of. -/
theorem not_isBlank {kind : Char → Bool} {c : Char} (own : kind c = true)
    (space : kind ' ' = false) (tab : kind '\t' = false) : ¬ isBlank c = true := by
  intro blank
  rw [isBlank, Bool.or_eq_true, beq_iff_eq, beq_iff_eq] at blank
  rcases blank with rfl | rfl
  · exact Bool.noConfusion (own.symm.trans space)
  · exact Bool.noConfusion (own.symm.trans tab)

/-! ## Digits -/

section Digits

variable {ds rest : List Char} {c mark : Char} {n : Nat}

theorem isDigitOf_ten (digit : c.isDigit = true) : Text.isDigitOf 10 c = true := by
  have large := Char.isDigit_iff_toNat.mp digit
  unfold Text.isDigitOf
  rw [Text.hexDigit?_of_isDigit digit, Option.any_some, decide_eq_true_eq]
  have low : '0'.toNat = 48 := rfl
  have high : '9'.toNat = 57 := rfl
  omega

/-- A number begins with no zero, unless it is zero. -/
theorem toDigits_eq_zero_or (n : Nat) :
    Nat.toDigits 10 n = ['0'] ∨ ∃ c cs, Nat.toDigits 10 n = c :: cs ∧ c ≠ '0' := by
  induction n using Nat.strongRecOn with
  | ind n ih =>
    rcases Nat.lt_or_ge n 10 with small | large
    · rw [Nat.toDigits_of_lt_base small]
      by_cases zero : n = 0
      · exact .inl (by rw [zero]; rfl)
      · have first : ∀ m < 10, m ≠ 0 → m.digitChar ≠ '0' := by decide
        exact .inr ⟨_, [], rfl, first n small zero⟩
    · rw [Nat.toDigits_of_base_le (by decide) large]
      rcases ih (n / 10) (by omega) with zero | ⟨c, cs, eq, other⟩
      · -- The number before the last digit is one at least.
        have one : n / 10 ≠ 0 := by omega
        have : Nat.ofDigitChars 10 (Nat.toDigits 10 (n / 10)) 0 = n / 10 :=
          Nat.ofDigitChars_ten_toDigits
        rw [zero] at this
        exact absurd this.symm one
      · exact .inr ⟨c, cs ++ [(n % 10).digitChar], by rw [eq]; rfl, other⟩

theorem isDigit_toDigits (n : Nat) : ∀ c ∈ Nat.toDigits 10 n, c.isDigit = true :=
  fun _ mem => Nat.isDigit_of_mem_toDigits (by decide) (by decide) mem

theorem digitsNat_toDigits (n : Nat) : Text.digitsNat 10 (Nat.toDigits 10 n) = n := by
  rw [Text.digitsNat_eq_ofDigitChars (isDigit_toDigits n), Nat.ofDigitChars_ten_toDigits]

theorem moreDigits_eq (decimal : ∀ c ∈ ds, c.isDigit = true) (rest : List Char) :
    moreDigits 10 (ds ++ '\n' :: rest) = (ds, '\n' :: rest) := by
  induction ds with
  | nil =>
    have stop : Text.isDigitOf 10 '\n' = false := by decide
    cases rest <;> simp [moreDigits, stop]
  | cons c ds ih =>
    have digit := decimal c List.mem_cons_self
    have noBar : c ≠ '_' := by rintro rfl; exact absurd digit (by decide)
    rw [List.cons_append, moreDigits]
    · rw [if_pos (isDigitOf_ten digit), ih fun d mem => decimal d (List.mem_cons_of_mem _ mem)]
    · intro d tail same
      exact absurd same noBar

/-- A part of so many digits leaves digits and the end of the line. -/
theorem fixed_eq_some {size low high k : Nat} {cs : List Char}
    (decimal : ∀ c ∈ ds, c.isDigit = true)
    (found : fixed size low high (ds ++ '\n' :: rest) = some (k, cs)) :
    ∃ ds', (∀ c ∈ ds', c.isDigit = true) ∧ cs = ds' ++ '\n' :: rest := by
  unfold fixed at found
  simp only at found
  split at found
  · rename_i fits
    obtain ⟨-, rfl⟩ := Prod.mk.inj (Option.some.inj found)
    have within : size ≤ ds.length := by
      refine Nat.le_of_not_lt fun beyond => ?_
      have mem : '\n' ∈ (ds ++ '\n' :: rest).take size := by
        obtain ⟨more, rfl⟩ := Nat.exists_eq_add_of_lt beyond
        rw [Nat.add_assoc, List.take_append, Nat.add_sub_cancel_left]
        exact List.mem_append_right _ List.mem_cons_self
      exact absurd (List.all_eq_true.mp fits.2.1 _ mem) (by decide)
    refine ⟨ds.drop size, fun c mem => decimal c (List.mem_of_mem_drop mem), ?_⟩
    rw [List.drop_append_of_le_length within]
  · cases found

theorem dropChar_eq_none (decimal : ∀ c ∈ ds, c.isDigit = true) (rest : List Char)
    (sign : mark.isDigit = false) (line : mark ≠ '\n') :
    dropChar mark (ds ++ '\n' :: rest) = none := by
  cases ds with
  | nil => exact if_neg line
  | cons c ds =>
    refine if_neg fun same => ?_
    rw [same, decimal c List.mem_cons_self] at sign
    cases sign

/-- Digits alone are no date and no time. -/
theorem moment_eq_none (decimal : ∀ c ∈ ds, c.isDigit = true) (rest : List Char) :
    moment (ds ++ '\n' :: rest) = none := by
  have noMark (mark : Char) (sign : mark.isDigit = false) (line : mark ≠ '\n')
      {size low high k : Nat} {cs : List Char}
      (found : fixed size low high (ds ++ '\n' :: rest) = some (k, cs)) :
      dropChar mark cs = none := by
    obtain ⟨ds', decimal', rfl⟩ := fixed_eq_some decimal found
    exact dropChar_eq_none decimal' rest sign line
  have noDate : date (ds ++ '\n' :: rest) = none := by
    unfold date
    cases found : fixed 4 0 9999 (ds ++ '\n' :: rest) with
    | none => rfl
    | some taken => simp [noMark '-' (by decide) (by decide) found]
  have noTime : time (ds ++ '\n' :: rest) = none := by
    unfold time
    cases found : fixed 2 0 23 (ds ++ '\n' :: rest) with
    | none => rfl
    | some taken => simp [noMark ':' (by decide) (by decide) found]
  unfold moment
  rw [noDate]
  exact noTime

end Digits

/-! ## Numbers -/

section Numbers

variable {n : Nat} (rest : List Char)

/-- The first character of a number is a digit. -/
theorem toDigits_append_eq_cons (n : Nat) :
    ∃ c cs, Nat.toDigits 10 n ++ rest = c :: cs ∧ c.isDigit = true := by
  have decimal := isDigit_toDigits n
  cases written : Nat.toDigits 10 n with
  | nil => exact absurd written Nat.toDigits_ne_nil
  | cons c cs =>
    rw [written] at decimal
    exact ⟨c, cs ++ rest, rfl, decimal c List.mem_cons_self⟩

theorem sign_toDigits (n : Nat) :
    sign (Nat.toDigits 10 n ++ rest) = (false, Nat.toDigits 10 n ++ rest) := by
  obtain ⟨c, cs, eq, digit⟩ := toDigits_append_eq_cons rest n
  rw [eq]
  unfold sign
  split
  · exact absurd ‹_› (cons_ne_of_kind digit (by decide))
  · exact absurd ‹_› (cons_ne_of_kind digit (by decide))
  · rfl

theorem wholeDigits_toDigits (n : Nat) :
    wholeDigits (Nat.toDigits 10 n ++ '\n' :: rest) = some (Nat.toDigits 10 n, '\n' :: rest) := by
  rcases toDigits_eq_zero_or n with zero | ⟨c, cs, eq, other⟩
  · rw [zero]
    rfl
  · have decimal := isDigit_toDigits n
    rw [eq] at decimal ⊢
    have more := moreDigits_eq (fun d mem => decimal d (List.mem_cons_of_mem _ mem)) rest
    unfold wholeDigits
    split
    · rename_i same
      cases same
      exact absurd rfl other
    · unfold digits
      rw [List.cons_append]
      simp only [isDigitOf_ten (decimal c List.mem_cons_self), if_true, more]

theorem float_toDigits (n : Nat) : float (Nat.toDigits 10 n ++ '\n' :: rest) = none := by
  have noDecimal : decimalFloat (Nat.toDigits 10 n ++ '\n' :: rest) = none := by
    unfold decimalFloat
    rw [sign_toDigits]
    simp [wholeDigits_toDigits, fraction, exponent]
  have noName : namedFloat (Nat.toDigits 10 n ++ '\n' :: rest) = none := by
    unfold namedFloat
    rw [sign_toDigits]
    obtain ⟨c, cs, eq, digit⟩ := toDigits_append_eq_cons ('\n' :: rest) n
    rw [eq]
    simp only
    split
    · exact absurd ‹_› (cons_ne_of_kind digit (by decide))
    · exact absurd ‹_› (cons_ne_of_kind digit (by decide))
    · rfl
  unfold float
  rw [noDecimal, noName]
  rfl

/-- A number of 64 bits with a sign. -/
theorem ofInteger_natCast (fits : n < signedCount) : ofInteger n rest = some ((n : Int), rest) :=
  if_pos (isSigned_natCast fits)

/-- Behind a zero there is the end of the line. -/
theorem toDigits_append_ne (n : Nat) {c : Char} (line : c ≠ '\n') (cs : List Char) :
    Nat.toDigits 10 n ++ '\n' :: rest ≠ '0' :: c :: cs := by
  rcases toDigits_eq_zero_or n with zero | ⟨d, ds, eq, other⟩
  · rw [zero]
    rintro same
    cases same
    exact line rfl
  · rw [eq]
    exact fun same => other (List.cons.inj same).1

theorem integer_toDigits (fits : n < signedCount) :
    integer (Nat.toDigits 10 n ++ '\n' :: rest) = some ((n : Int), '\n' :: rest) := by
  unfold integer
  split
  · rename_i same
    exact absurd same (toDigits_append_ne rest n (by decide) _)
  · rename_i same
    exact absurd same (toDigits_append_ne rest n (by decide) _)
  · rename_i same
    exact absurd same (toDigits_append_ne rest n (by decide) _)
  · rw [sign_toDigits]
    refine Option.bind_eq_some_iff.mpr ⟨_, wholeDigits_toDigits rest n, ?_⟩
    simp only [digitsNat_toDigits, Bool.false_eq_true, if_false]
    exact ofInteger_natCast _ fits

/-- **The digits of a number are read as that number.** -/
theorem number_toDigits (fits : n < signedCount) :
    number (Nat.toDigits 10 n ++ '\n' :: rest) = some (.whole n, '\n' :: rest) := by
  unfold number
  rw [moment_eq_none (isDigit_toDigits n), float_toDigits]
  simp only
  rw [integer_toDigits rest fits]
  rfl

theorem simpleValue_toDigits (fits : n < signedCount) :
    simpleValue (Nat.toDigits 10 n ++ '\n' :: rest) = some (.whole n, '\n' :: rest) := by
  have read := number_toDigits rest fits
  obtain ⟨c, cs, eq, digit⟩ := toDigits_append_eq_cons ('\n' :: rest) n
  rw [eq] at read ⊢
  unfold simpleValue
  split
  · exact absurd ‹_› (cons_ne_of_kind digit (by decide))
  · exact absurd ‹_› (cons_ne_of_kind digit (by decide))
  · exact absurd ‹_› (cons_ne_of_kind digit (by decide))
  · exact absurd ‹_› (cons_ne_of_kind digit (by decide))
  · exact read

theorem value_toDigits (fits : n < signedCount) (fuel depth : Nat) :
    value (fuel + 1) depth (Nat.toDigits 10 n ++ '\n' :: rest) =
      some (.whole n, '\n' :: rest) := by
  have read := simpleValue_toDigits rest fits
  obtain ⟨c, cs, eq, digit⟩ := toDigits_append_eq_cons ('\n' :: rest) n
  rw [eq] at read ⊢
  unfold value
  split
  · exact absurd ‹_› (cons_ne_of_kind digit (by decide))
  · exact absurd ‹_› (cons_ne_of_kind digit (by decide))
  · exact read

theorem skipBlanks_toDigits (n : Nat) :
    skipBlanks (' ' :: (Nat.toDigits 10 n ++ '\n' :: rest)) =
      Nat.toDigits 10 n ++ '\n' :: rest := by
  obtain ⟨c, cs, eq, digit⟩ := toDigits_append_eq_cons ('\n' :: rest) n
  rw [eq]
  show (' ' :: c :: cs).dropWhile isBlank = c :: cs
  rw [List.dropWhile_cons_of_pos (by decide), List.dropWhile_cons_of_neg]
  exact not_isBlank digit (by decide) (by decide)

end Numbers

/-! ## Keys -/

/-- A key may be written without quotes. -/
def Bare (key : String) : Prop := key.toList ≠ [] ∧ ∀ c ∈ key.toList, isBare c = true

instance (key : String) : Decidable (Bare key) :=
  decidable_of_iff (key.toList ≠ [] ∧ key.toList.all isBare = true)
    (and_congr Iff.rfl List.all_eq_true)

section Keys

variable {key : String} {rest : List Char}

/-- The first character of a key is none of those that mean something. -/
theorem Bare.eq_cons (bare : Bare key) : ∃ c cs, key.toList = c :: cs ∧ isBare c = true := by
  cases written : key.toList with
  | nil => exact absurd written bare.1
  | cons c cs => exact ⟨c, cs, rfl, bare.2 c (written ▸ List.mem_cons_self)⟩

theorem Bare.append_ne (bare : Bare key) {d : Char} (other : isBare d = false)
    (rest ds : List Char) : key.toList ++ rest ≠ d :: ds := by
  obtain ⟨c, cs, written, first⟩ := bare.eq_cons
  rw [written]
  exact cons_ne_of_kind first other

theorem Bare.skipBlanks (bare : Bare key) (rest : List Char) :
    skipBlanks (key.toList ++ rest) = key.toList ++ rest := by
  obtain ⟨c, cs, written, first⟩ := bare.eq_cons
  rw [written]
  exact List.dropWhile_cons_of_neg (not_isBlank first (by decide) (by decide))

theorem Bare.keyPart (bare : Bare key) (stop : ∀ c ∈ rest.head?, isBare c = false) :
    keyPart (key.toList ++ rest) = some (key, rest) := by
  have taken : (key.toList ++ rest).takeWhile isBare = key.toList := by
    rw [List.takeWhile_append_of_pos bare.2]
    cases rest with
    | nil => exact List.append_nil _
    | cons c cs => simp [stop c rfl]
  have noText : shortText (key.toList ++ rest) = none := by
    unfold shortText
    split
    · exact absurd ‹_› (bare.append_ne (by decide) _ _)
    · exact absurd ‹_› (bare.append_ne (by decide) _ _)
    · rfl
  unfold Toml.keyPart
  rw [noText]
  simp only [taken, bare.1, if_false, String.ofList_toList, List.drop_left]

/-- A key without quotes is read up to its end. -/
theorem Bare.name (bare : Bare key) (stop : ∀ c ∈ rest.head?, isBare c = false)
    (noPath : (Toml.skipBlanks rest).head? ≠ some '.') :
    name (key.toList ++ rest) = some (⟨[], key⟩, Toml.skipBlanks rest) := by
  have parts : keyParts (nestingLimit - 1) (key.toList ++ rest) =
      some ([key], Toml.skipBlanks rest) := by
    show keyParts (78 + 1) _ = _
    rw [keyParts, bare.skipBlanks]
    refine Option.bind_eq_some_iff.mpr ⟨_, bare.keyPart stop, ?_⟩
    simp only
    split
    · rename_i path
      exact absurd (by rw [path]; rfl) noPath
    · rfl
  unfold Toml.name
  exact Option.bind_eq_some_iff.mpr ⟨_, parts, rfl⟩

end Keys

/-! ## Lines -/

/-- A line of the plainest kind. -/
inductive Plain
  /-- A number is given to a key. -/
  | number (key : String) (n : Nat)
  /-- The keys that follow are in a table. -/
  | header (key : String)

namespace Plain

/-- How a line is written. -/
def text : Plain → List Char
  | number key n => key.toList ++ (' ' :: '=' :: ' ' :: (Nat.toDigits 10 n ++ ['\n']))
  | header key => '[' :: (key.toList ++ [']', '\n'])

/-- What a line says. -/
def said : Plain → Line
  | number key n => .assign ⟨[], key⟩ (.whole n)
  | header key => .table ⟨[], key⟩

/-- The key of a line needs no quotes, and its number is one with a sign. -/
def Good : Plain → Prop
  | number key n => Bare key ∧ n < signedCount
  | header key => Bare key

variable {key : String} {n : Nat} (rest : List Char)

theorem line_number (bare : Bare key) (fits : n < signedCount) :
    line ((number key n).text ++ rest) = some ((number key n).said, rest) := by
  have written : (number key n).text ++ rest =
      key.toList ++ (' ' :: '=' :: ' ' :: (Nat.toDigits 10 n ++ '\n' :: rest)) := by simp [text]
  have named : name (key.toList ++ (' ' :: '=' :: ' ' :: (Nat.toDigits 10 n ++ '\n' :: rest))) =
      some (⟨[], key⟩, '=' :: ' ' :: (Nat.toDigits 10 n ++ '\n' :: rest)) :=
    bare.name (by simp; decide) nofun
  rw [written]
  unfold line
  split
  · exact absurd ‹_› (bare.append_ne (by decide) _ _)
  · exact absurd ‹_› (bare.append_ne (by decide) _ _)
  · refine Option.bind_eq_some_iff.mpr ⟨_, named, ?_⟩
    refine Option.bind_eq_some_iff.mpr ⟨' ' :: (Nat.toDigits 10 n ++ '\n' :: rest), rfl, ?_⟩
    simp only [skipBlanks_toDigits]
    exact Option.bind_eq_some_iff.mpr ⟨_, value_toDigits rest fits _ 0, rfl⟩

theorem line_header (bare : Bare key) :
    line ((header key).text ++ rest) = some ((header key).said, rest) := by
  have written : (header key).text ++ rest = '[' :: (key.toList ++ (']' :: '\n' :: rest)) := by
    simp [text]
  have named : name (key.toList ++ (']' :: '\n' :: rest)) = some (⟨[], key⟩, ']' :: '\n' :: rest) :=
    bare.name (by simp; decide) nofun
  rw [written]
  unfold line
  split
  · rename_i same
    exact absurd (List.cons.inj same).2 (bare.append_ne (by decide) _ _)
  · rename_i same
    rw [← (List.cons.inj same).2]
    refine Option.bind_eq_some_iff.mpr ⟨_, named, ?_⟩
    exact Option.bind_eq_some_iff.mpr ⟨'\n' :: rest, rfl, rfl⟩
  · rename_i other
    exact absurd rfl (other _)

theorem line_text {p : Plain} (good : p.Good) : line (p.text ++ rest) = some (p.said, rest) := by
  cases p with
  | number key n => exact line_number rest good.1 good.2
  | header key => exact line_header rest good

/-- A line begins with what is no blank, no end of a line and no comment. -/
theorem text_eq_cons {p : Plain} (good : p.Good) :
    ∃ c cs, p.text = c :: cs ∧ (isBare c = true ∨ c = '[') := by
  cases p with
  | number key n =>
    obtain ⟨c, cs, written, first⟩ := Bare.eq_cons good.1
    exact ⟨c, _, by rw [text, written]; rfl, .inl first⟩
  | header key => exact ⟨'[', _, rfl, .inr rfl⟩

/-- The first line is read, and then the others. -/
theorem lines_cons {p : Plain} (good : p.Good) {fuel : Nat} {cs : List Char} {ls : List Line}
    (others : lines fuel cs = some ls) : lines (fuel + 1) (p.text ++ cs) = some (p.said :: ls) := by
  have said := line_text cs good
  obtain ⟨c, ds, written, first⟩ := text_eq_cons good
  have other {d : Char} (noBare : isBare d = false) (noBracket : d ≠ '[') : c ≠ d := by
    rintro rfl
    rcases first with bare | rfl
    · exact Bool.noConfusion (bare.symm.trans noBare)
    · exact noBracket rfl
  have solid : skipBlanks (c :: (ds ++ cs)) = c :: (ds ++ cs) := by
    refine List.dropWhile_cons_of_neg ?_
    simp [isBlank, other (d := ' ') (by decide) (by decide),
      other (d := '\t') (by decide) (by decide)]
  rw [written, List.cons_append] at said ⊢
  unfold lines
  rw [solid]
  split
  · rename_i nothing
    cases nothing
  · rename_i comment
    exact absurd (List.cons.inj comment).1 (other (by decide) (by decide))
  · have noBlank : newline (c :: (ds ++ cs)) = none := by
      unfold newline
      split
      · exact absurd (List.cons.inj ‹_›).1 (other (by decide) (by decide))
      · exact absurd (List.cons.inj ‹_›).1 (other (by decide) (by decide))
      · rfl
    rw [noBlank]
    refine Option.bind_eq_some_iff.mpr ⟨_, said, ?_⟩
    exact Option.bind_eq_some_iff.mpr ⟨_, others, rfl⟩

/-- **Lines are read one by one.** -/
theorem lines_text {ps : List Plain} (good : ∀ p ∈ ps, p.Good) {fuel : Nat}
    (enough : ps.length < fuel) : lines fuel (ps.flatMap text) = some (ps.map said) := by
  induction ps generalizing fuel with
  | nil =>
    cases fuel with
    | zero => cases enough
    | succ fuel => rfl
  | cons p ps ih =>
    cases fuel with
    | zero => cases enough
    | succ fuel =>
      rw [List.flatMap_cons]
      exact lines_cons (good p List.mem_cons_self)
        (ih (fun p' mem => good p' (List.mem_cons_of_mem _ mem)) (Nat.lt_of_succ_lt_succ enough))

end Plain

/-! ## Tables of numbers -/

/-- The entries of numbers in a table that is being read. -/
def leaves (numbers : List (String × Nat)) : List (String × Node) :=
  numbers.map fun e => (e.1, .leaf (.whole e.2))

/-- The fields of numbers. -/
def wholes (numbers : List (String × Nat)) : List (String × Value) :=
  numbers.map fun e => (e.1, .whole e.2)

section Tables

variable {key : String} {numbers : List (String × Nat)} {entries : List (String × Node)}

theorem map_fst_leaves (numbers : List (String × Nat)) :
    (leaves numbers).map Prod.fst = numbers.map Prod.fst := by
  simp [leaves]

theorem entriesValue_append (es es' : List (String × Node)) :
    entriesValue (es ++ es') = entriesValue es ++ entriesValue es' := by
  induction es with
  | nil => rfl
  | cons e es ih =>
    show entriesValue (e :: (es ++ es')) = _
    rw [entriesValue, ih, entriesValue]
    rfl

theorem entriesValue_leaves (numbers : List (String × Nat)) :
    entriesValue (leaves numbers) = wholes numbers := by
  induction numbers with
  | nil => rfl
  | cons e numbers ih =>
    show entriesValue ((e.1, .leaf (.whole e.2)) :: leaves numbers) = _
    rw [entriesValue, ih, Node.value]
    rfl

/-- A key that is new is set behind the others. -/
theorem put_of_notMem {t : Table} (new : key ∉ t.entries.map Prod.fst) (n : Node) :
    t.put key n = { t with entries := t.entries ++ [(key, n)] } := by
  have kept : t.entries.filter (fun e => e.1 != key) = t.entries :=
    List.filter_eq_self.mpr fun e mem => bne_iff_ne.mpr fun same =>
      new (same ▸ List.mem_map_of_mem mem)
  unfold Table.put Table.erase
  rw [kept]

theorem entry?_eq_none {t : Table} (new : key ∉ t.entries.map Prod.fst) : t.entry? key = none :=
  List.lookup_eq_none_iff.mpr fun _ mem => bne_iff_ne.mpr fun same =>
    new (same ▸ List.mem_map_of_mem mem)

/-- Lines that give numbers to new keys set them in the current table, in their order. -/
theorem foldlM_add_numbers {d : Draft} (current : d.current = ⟨.header, entries⟩)
    (distinct : (entries.map Prod.fst ++ numbers.map Prod.fst).Nodup) :
    (numbers.map fun e => (Plain.number e.1 e.2).said).foldlM Draft.add d =
      some { d with current := ⟨.header, entries ++ leaves numbers⟩ } := by
  -- By induction on the numbers, for all entries: those that have been set are among them.
  induction numbers generalizing d entries with
  | nil =>
    have none : entries ++ leaves [] = entries := List.append_nil entries
    rw [none, ← current]
    rfl
  | cons e numbers ih =>
    have new : e.1 ∉ entries.map Prod.fst := fun mem =>
      (List.nodup_append.mp distinct).2.2 _ mem _ List.mem_cons_self rfl
    have set : d.add (Plain.number e.1 e.2).said =
        some { d with current := ⟨.header, entries ++ [(e.1, .leaf (.whole e.2))]⟩ } := by
      have assigned : d.current.assign [] e.1 (.whole e.2) =
          some ⟨.header, entries ++ [(e.1, .leaf (.whole e.2))]⟩ := by
        rw [current]
        unfold Table.assign Table.changeAt Table.set
        simp [entry?_eq_none (t := ⟨.header, entries⟩) new,
          put_of_notMem (t := ⟨.header, entries⟩) new]
      exact congrArg (Option.map _) assigned
    rw [List.map_cons, List.foldlM_cons, set]
    refine (ih rfl ?_).trans ?_
    · simpa using distinct
    · simp [leaves]

/-- The header of a new table leaves the numbers above it behind. -/
theorem add_header (new : key ∉ entries.map Prod.fst) :
    Draft.add { current := ⟨.header, entries⟩ } (Plain.header key).said =
      some ⟨⟨.header, entries⟩, ⟨.header, []⟩, some ⟨[], key⟩, false⟩ := by
  show Draft.openTable _ _ = _
  unfold Draft.openTable Draft.close Table.changeAt
  simp [entry?_eq_none (t := ⟨.header, entries⟩) new]

/-- At the end of a document its last table goes behind what was there before. -/
theorem close_table (new : key ∉ entries.map Prod.fst) (inner : List (String × Node)) :
    Draft.close ⟨⟨.header, entries⟩, ⟨.header, inner⟩, some ⟨[], key⟩, false⟩ =
      some ⟨.header, entries ++ [(key, .table .header inner)]⟩ := by
  unfold Draft.close Table.changeAt
  simp [entry?_eq_none (t := ⟨.header, entries⟩) new, put_of_notMem (t := ⟨.header, entries⟩) new,
    Table.node]

/-- Numbers, and a table of numbers behind them. -/
def document (tops : List (String × Nat)) (key : String) (inner : List (String × Nat)) :
    List Plain :=
  tops.map (fun e => .number e.1 e.2) ++ .header key :: inner.map fun e => .number e.1 e.2

variable {tops inner : List (String × Nat)}

/-- **What numbers and a table of numbers say**, if no key is given twice. -/
theorem documentOf_document (distinct : (tops.map Prod.fst ++ [key]).Nodup)
    (distinct' : (inner.map Prod.fst).Nodup) :
    documentOf ((document tops key inner).map Plain.said) =
      some (wholes tops ++ [(key, .table (wholes inner))]) := by
  have new : key ∉ (leaves tops).map Prod.fst := fun mem =>
    (List.nodup_append.mp distinct).2.2 _ (map_fst_leaves tops ▸ mem) _ List.mem_cons_self rfl
  have first := foldlM_add_numbers (d := {}) rfl (List.nodup_append.mp distinct).1
  have second := foldlM_add_numbers (d := ⟨⟨.header, leaves tops⟩, ⟨.header, []⟩, some ⟨[], key⟩,
    false⟩) rfl distinct'
  have folded : ((document tops key inner).map Plain.said).foldlM Draft.add {} =
      some ⟨⟨.header, leaves tops⟩, ⟨.header, leaves inner⟩, some ⟨[], key⟩, false⟩ := by
    unfold document
    rw [List.map_append, List.map_cons, List.map_map, List.map_map, List.foldlM_append]
    refine Option.bind_eq_some_iff.mpr ⟨_, first, ?_⟩
    rw [List.foldlM_cons]
    exact Option.bind_eq_some_iff.mpr ⟨_, add_header new, second⟩
  unfold documentOf
  refine Option.bind_eq_some_iff.mpr ⟨_, folded, ?_⟩
  refine Option.bind_eq_some_iff.mpr ⟨_, close_table new _, ?_⟩
  simp [entriesValue_append, entriesValue_leaves, entriesValue, Node.value]

end Tables

/-! ## Texts -/

theorem length_le_length_flatMap {ps : List Plain} (good : ∀ p ∈ ps, p.Good) :
    ps.length ≤ (ps.flatMap Plain.text).length := by
  induction ps with
  | nil => exact Nat.le_refl _
  | cons p ps ih =>
    obtain ⟨c, cs, written, -⟩ := Plain.text_eq_cons (good p List.mem_cons_self)
    have others := ih fun p' mem => good p' (List.mem_cons_of_mem _ mem)
    rw [List.flatMap_cons, List.length_append, written]
    simp only [List.length_cons]
    omega

/-- **A document of lines of the plainest kind** says what they say. -/
theorem read?_text {ps : List Plain} (good : ∀ p ∈ ps, p.Good) :
    read? (String.ofList (ps.flatMap Plain.text)) = documentOf (ps.map Plain.said) := by
  have read := Plain.lines_text good (Nat.lt_succ_of_le (length_le_length_flatMap good))
  unfold read?
  rw [String.toList_ofList]
  simp only
  split
  · rename_i marked
    cases ps with
    | nil => cases marked
    | cons p ps =>
      obtain ⟨c, cs, written, first⟩ := Plain.text_eq_cons (good p List.mem_cons_self)
      rw [List.flatMap_cons, written] at marked
      obtain rfl : c = '\ufeff' := (List.cons.inj marked).1
      exact absurd first (by decide)
  · exact congrArg (Option.bind · documentOf) read

end SharedWatch.Toml
