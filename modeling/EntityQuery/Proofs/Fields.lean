import EntityQuery.Calendar.Field
import EntityQuery.Proofs.Integers
import EntityQuery.Proofs.Marks
import Mathlib.Algebra.GroupWithZero.Nat

/-!
# Numbers in fields

What digits note, and how fields of digits are read again. A number that is written with leading
zeros fills the width of its field, so that it ends where the field does even if a digit follows; a
number that may be wider than its field ends where the digits end.

## Main definitions

* `Digits`: one digit or more

## Main results

* `digitsValue_append`, `digitsValue_lt`: the number of digits in a row, and how large it can be
* `Field.nanoseconds_eq`: a fraction is filled up with zeros on the right
* `Field.number?_padded`, `Field.year?_digits`, `Field.year?_signed`: numbers in fields are read
  again
-/

namespace EntityQuery

/-! ## Digits -/

/-- A number in decimal digits, one at least; zeros may stand in front. -/
structure Digits (text : List Char) : Prop where
  nonempty : text ≠ []
  all : ∀ c ∈ text, c.isDigit

theorem Digits.not_mem {text : List Char} (number : Digits text) {c : Char}
    (other : c.isDigit = false) : c ∉ text := by
  intro hc
  rw [number.all c hc] at other
  cases other

theorem digitsValue_eq (digits : List Char) :
    digitsValue digits = Nat.ofDigitChars 10 digits 0 := Nat.ofDigitChars_eq_foldl.symm

/-- Digits in front count for as many tens as digits follow. -/
theorem digitsValue_append (front digits : List Char) :
    digitsValue (front ++ digits) =
      10 ^ digits.length * digitsValue front + digitsValue digits := by
  rw [digitsValue_eq, Nat.ofDigitChars_append, Nat.ofDigitChars_eq_ofDigitChars_zero,
    ← digitsValue_eq, ← digitsValue_eq]

theorem digitsValue_replicate_zero (n : Nat) : digitsValue (List.replicate n '0') = 0 := by
  rw [digitsValue_eq, Nat.ofDigitChars_replicate_zero, Nat.mul_zero]

theorem digitValue_le {c : Char} (digit : c.isDigit) : digitValue c ≤ 9 := by
  simp only [Char.isDigit, Bool.and_eq_true, decide_eq_true_eq] at digit
  have upper : c.toNat ≤ 57 := digit.2
  have zero : '0'.toNat = 48 := rfl
  rw [digitValue, zero]
  omega

/-- A number is below the power of ten with as many zeros as it has digits. -/
theorem digitsValue_lt {digits : List Char} (all : ∀ c ∈ digits, c.isDigit) :
    digitsValue digits < 10 ^ digits.length := by
  induction digits with
  | nil => exact Nat.one_pos
  | cons c digits ih =>
    obtain ⟨digit, all⟩ := List.forall_mem_cons.1 all
    have first : digitsValue [c] = digitValue c := Nat.zero_add _
    have first_le := digitValue_le digit
    have rest_lt := ih all
    have scaled : 10 ^ digits.length * digitValue c ≤ 10 ^ digits.length * 9 :=
      Nat.mul_le_mul_left _ first_le
    rw [← List.singleton_append, digitsValue_append, first, List.length_append,
      List.length_singleton, Nat.pow_add, Nat.pow_one]
    omega

namespace Field

/-- A fraction is filled up with zeros on the right to the digits of a nanosecond. -/
theorem nanoseconds_eq (digits : List Char) :
    nanoseconds digits =
      digitsValue (digits ++ List.replicate (nanosecondDigits - digits.length) '0') := by
  rw [digitsValue_append, digitsValue_replicate_zero, List.length_replicate, Nat.add_zero,
    Nat.mul_comm]
  rfl

/-! ## Numbers with leading zeros -/

variable {width n : Nat}

theorem digits_padded (width n : Nat) : Digits (padded width n) := by
  constructor
  · intro empty
    exact Nat.toDigits_ne_nil (List.append_eq_nil_iff.1 empty).2
  · intro c hc
    rcases List.mem_append.1 hc with zero | digit
    · rw [(List.mem_replicate.1 zero).2]
      rfl
    · exact isDigit_of_mem_toDigits digit

theorem isDigit_of_mem_padded {c : Char} (hc : c ∈ padded width n) : c.isDigit :=
  (digits_padded width n).all c hc

theorem digitsValue_padded (width n : Nat) : digitsValue (padded width n) = n := by
  show digitsValue (List.replicate _ '0' ++ Nat.toDigits 10 n) = n
  rw [digitsValue_append, digitsValue_replicate_zero, Nat.mul_zero, Nat.zero_add,
    digitsValue_toDigits]

/-- A number that fits its field fills it. -/
theorem length_padded (fits : n < 10 ^ width) (positive : 0 < width) :
    (padded width n).length = width := by
  have short := (Nat.length_toDigits_le_iff (by decide : 1 < 10) positive).2 fits
  show (List.replicate _ '0' ++ Nat.toDigits 10 n).length = width
  rw [List.length_append, List.length_replicate]
  omega

/-! ## Reading again -/

variable {digits rest : List Char}

/-- Blanks are no digits and no signs. -/
theorem isBlank_of_isDigit {c : Char} (digit : c.isDigit) : Text.isBlank c = false := by
  simp only [Char.isDigit, Bool.and_eq_true, decide_eq_true_eq] at digit
  have lower : 48 ≤ c.toNat := digit.1
  have upper : c.toNat ≤ 57 := digit.2
  simp only [Text.isBlank, Text.blankRanges, List.any_cons, List.any_nil, Bool.or_false,
    Bool.or_eq_false_iff, Bool.and_eq_false_iff, decide_eq_false_iff_not]
  omega

theorem skipBlanks_cons {c : Char} (solid : Text.isBlank c = false) (rest : List Char) :
    Text.skipBlanks (c :: rest) = c :: rest :=
  List.dropWhile_cons_of_neg (by rw [solid]; exact Bool.false_ne_true)

theorem skipBlanks_digits (number : Digits digits) (rest : List Char) :
    Text.skipBlanks (digits ++ rest) = digits ++ rest := by
  obtain ⟨c, tail, rfl⟩ := List.exists_cons_of_ne_nil number.nonempty
  exact skipBlanks_cons (isBlank_of_isDigit (number.all c List.mem_cons_self)) _

/-- Digits are read up to the width of their field, or up to where they end. -/
theorem digits?_append {most : Nat} (number : Digits digits) (short : digits.length ≤ most)
    (ends : digits.length = most ∨ ∀ c ∈ rest.head?, c.isDigit = false) :
    digits? most (digits ++ rest) = some (digitsValue digits, rest) := by
  have no_more : (rest.take (most - digits.length)).takeWhile Char.isDigit = [] := by
    rcases ends with full | ends
    · rw [full, Nat.sub_self, List.take_zero, List.takeWhile_nil]
    · cases rest with
      | nil => rw [List.take_nil, List.takeWhile_nil]
      | cons c rest =>
        cases most - digits.length with
        | zero => rfl
        | succ k =>
          rw [List.take_succ_cons, List.takeWhile_cons, ends c rfl]
          rfl
  have taken : ((digits ++ rest).take most).takeWhile Char.isDigit = digits := by
    rw [List.take_append, List.take_of_length_le short,
      List.takeWhile_append_of_pos number.all, no_more, List.append_nil]
  rw [digits?, taken, List.isEmpty_eq_false_iff.2 number.nonempty, List.drop_left]
  rfl

/-- A number of the width of its field is read again, whatever follows it. -/
theorem number?_padded (fits : n < 10 ^ width) (positive : 0 < width) (rest : List Char) :
    number? width (padded width n ++ rest) = some (n, rest) := by
  have number := digits_padded width n
  have full := length_padded fits positive
  rw [number?, skipBlanks_digits number, digits?_append number full.le (.inl full),
    digitsValue_padded]

/-- Most fields have two digits. -/
theorem number?_two (small : n < 100) (rest : List Char) :
    number? 2 (padded 2 n ++ rest) = some (n, rest) :=
  number?_padded (show n < 10 ^ 2 from small) Nat.two_pos rest

@[simp] theorem mark?_cons (mark : Char) (rest : List Char) :
    mark? mark (mark :: rest) = some rest := if_pos rfl

/-- A year without a sign fills its field. -/
theorem year?_digits (number : Digits digits) (full : digits.length = 4) (rest : List Char) :
    year? (digits ++ rest) = some ((digitsValue digits : Int), rest) := by
  have read : digits? 4 (digits ++ rest) = some (digitsValue digits, rest) :=
    digits?_append number full.le (.inl full)
  rw [year?, skipBlanks_digits number]
  obtain ⟨c, tail, rfl⟩ := List.exists_cons_of_ne_nil number.nonempty
  obtain ⟨not_minus, not_plus, -⟩ := ne_sign_of_digits number.all rfl
  rw [List.cons_append] at read ⊢
  split
  · rename_i starts
    exact absurd (List.cons.inj starts).1 not_minus
  · rename_i starts
    exact absurd (List.cons.inj starts).1 not_plus
  · rw [read]
    rfl

/-- A year with a sign has all digits that follow. -/
theorem year?_signed (number : Digits digits) (ends : ∀ c ∈ rest.head?, c.isDigit = false) :
    year? ('-' :: (digits ++ rest)) = some (-(digitsValue digits : Int), rest) ∧
      year? ('+' :: (digits ++ rest)) = some ((digitsValue digits : Int), rest) := by
  have short : digits.length ≤ (digits ++ rest).length := by
    rw [List.length_append]
    exact Nat.le_add_right _ _
  have read := digits?_append number short (.inr ends)
  constructor
  · rw [year?, skipBlanks_cons (by decide)]
    simp only [read, Option.map_some]
  · rw [year?, skipBlanks_cons (by decide)]
    simp only [read, Option.map_some]

/-- A fraction of nine digits at most is read again at the end of a text. -/
theorem fraction?_padded (fits : n < 10 ^ width) (positive : 0 < width)
    (short : width ≤ nanosecondDigits) :
    fraction? ('.' :: padded width n) = some (n * 10 ^ (nanosecondDigits - width), []) := by
  have number := digits_padded width n
  have full := length_padded fits positive
  have all : (padded width n).takeWhile Char.isDigit = padded width n :=
    List.takeWhile_eq_self_iff.2 number.all
  have count : nanoseconds (padded width n) = n * 10 ^ (nanosecondDigits - width) := by
    rw [nanoseconds, digitsValue_padded, full]
    rfl
  rw [fraction?, all, List.isEmpty_eq_false_iff.2 number.nonempty,
    List.take_of_length_le (full.le.trans short), List.drop_length, count]
  rfl

end Field

end EntityQuery
