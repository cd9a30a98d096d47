import EntityQuery.Number.Decimal
import EntityQuery.Query.Failure
import Mathlib.Tactic.ByContra
import Mathlib.Data.List.TakeWhile

/-!
# Texts of integers

What the readers of integers have in common: an optional sign in front of one digit or more notes an
integer, however many zeros it starts with. A reader of a fixed width reads every such text whose
integer lies in its range, and no other text; the readers of integers of any size and of decimal
numbers read all of them.

## Main definitions

* `IntegerText`: a text that notes an integer

## Main results

* `magnitude_eq_ok`: digits are read up to a limit if their number is not above it
* `IntegerText.of_read`, `IntegerText.read_eq`: what a reader of a fixed width reads
* `IntegerText.of_readInteger`, `IntegerText.readInteger_eq`: integers of any size
* `Decimal.read_of_whole`: integers as decimal numbers
-/

namespace EntityQuery

/-- The number that digits continue from another one. -/
def continued (n : Nat) (digits : List Char) : Nat :=
  digits.foldl (fun n c => 10 * n + digitValue c) n

theorem continued_cons (n : Nat) (c : Char) (digits : List Char) :
    continued n (c :: digits) = continued (10 * n + digitValue c) digits := List.foldl_cons ..

theorem le_continued (n : Nat) (digits : List Char) : n ≤ continued n digits := by
  induction digits generalizing n with
  | nil => exact Nat.le_refl n
  | cons c digits ih =>
    have grown := ih (10 * n + digitValue c)
    rw [continued_cons]
    omega

/-- Digits are read up to a limit if their number is not above it. It never falls on the way, so no
digit is refused too early. -/
theorem magnitude_eq_ok {limit : Nat} {overflow : IntegerFault} {digits : List Char}
    {n m : { n : Nat // n ≤ limit }} :
    magnitude limit overflow n digits = .ok m ↔
      (∀ c ∈ digits, c.isDigit) ∧ continued n.1 digits = m.1 := by
  induction digits generalizing n with
  | nil => simp [magnitude, continued, Subtype.ext_iff]
  | cons c digits ih =>
    rw [magnitude, List.forall_mem_cons, continued_cons]
    by_cases digit : c.isDigit
    · rw [if_pos digit]
      by_cases small : 10 * n.1 + digitValue c ≤ limit
      · rw [dif_pos small, ih]
        simp [digit]
      · -- No later digit takes the number back below the limit.
        rw [dif_neg small]
        have grown := le_continued (10 * n.1 + digitValue c) digits
        have le_limit := m.2
        simp only [reduceCtorEq, false_iff]
        omega
    · simp [digit]

/-! ## Integers -/

/-- A text that notes an integer: an optional sign and one digit or more. -/
inductive IntegerText : List Char → Int → Prop
  | unsigned {digits : List Char} (nonempty : digits ≠ []) (all : ∀ c ∈ digits, c.isDigit) :
      IntegerText digits (digitsValue digits)
  | plus {digits : List Char} (nonempty : digits ≠ []) (all : ∀ c ∈ digits, c.isDigit) :
      IntegerText ('+' :: digits) (digitsValue digits)
  | minus {digits : List Char} (nonempty : digits ≠ []) (all : ∀ c ∈ digits, c.isDigit) :
      IntegerText ('-' :: digits) (-digitsValue digits)

/-- Digits are not taken for a sign. -/
theorem ne_sign_of_digits {digits : List Char} (all : ∀ c ∈ digits, c.isDigit) {c : Char}
    {rest : List Char} (same : digits = c :: rest) : c ≠ '-' ∧ c ≠ '+' ∧ c ≠ '_' := by
  have digit := all c (by simp [same])
  refine ⟨?_, ?_, ?_⟩ <;> rintro rfl <;> exact absurd digit (by decide)

namespace Signed

variable {width : Nat}

theorem readPositive_eq_ok {digits : List Char} {n : Signed width} :
    readPositive digits = .ok n ↔
      (∀ c ∈ digits, c.isDigit) ∧ (digitsValue digits : Int) = n.val := by
  rw [readPositive, map_eq_ok]
  constructor
  · rintro ⟨m, read, rfl⟩
    obtain ⟨all, value⟩ := magnitude_eq_ok.1 read
    exact ⟨all, congrArg Int.ofNat value⟩
  · rintro ⟨all, value⟩
    have small : digitsValue digits ≤ bound width - 1 := by
      have upper := n.upper
      omega
    refine ⟨⟨digitsValue digits, small⟩, magnitude_eq_ok.2 ⟨all, rfl⟩, ?_⟩
    cases n
    simp only at value
    subst value
    rfl

theorem readNegative_eq_ok {digits : List Char} {n : Signed width} :
    readNegative digits = .ok n ↔
      (∀ c ∈ digits, c.isDigit) ∧ -(digitsValue digits : Int) = n.val := by
  rw [readNegative, map_eq_ok]
  constructor
  · rintro ⟨m, read, rfl⟩
    obtain ⟨all, value⟩ := magnitude_eq_ok.1 read
    exact ⟨all, congrArg (fun m : Nat => -(m : Int)) value⟩
  · rintro ⟨all, value⟩
    have small : digitsValue digits ≤ bound width := by
      have lower := n.lower
      omega
    refine ⟨⟨digitsValue digits, small⟩, magnitude_eq_ok.2 ⟨all, rfl⟩, ?_⟩
    cases n
    simp only at value
    subst value
    rfl

end Signed

theorem separatedDigits_eq {digits : List Char} (all : ∀ c ∈ digits, c.isDigit) (n : Nat) :
    separatedDigits n digits = .ok (continued n digits) := by
  induction digits generalizing n with
  | nil => rfl
  | cons c digits ih =>
    obtain ⟨digit, all⟩ := List.forall_mem_cons.1 all
    rw [separatedDigits, if_pos digit, ih all, continued_cons]

theorem readNatural_eq {digits : List Char} (nonempty : digits ≠ [])
    (all : ∀ c ∈ digits, c.isDigit) : readNatural digits = .ok (digitsValue digits) := by
  unfold readNatural
  split
  case h_1 => exact absurd rfl nonempty
  case h_2 => exact absurd rfl (ne_sign_of_digits all rfl).2.2
  case h_3 => exact separatedDigits_eq all 0

theorem all_isDigit_of_separatedDigits {digits : List Char} (free : '_' ∉ digits) {n m : Nat}
    (h : separatedDigits n digits = .ok m) : ∀ c ∈ digits, c.isDigit := by
  induction digits generalizing n with
  | nil => exact fun _ hc => nomatch hc
  | cons c digits ih =>
    rw [List.mem_cons, not_or] at free
    rw [separatedDigits, if_neg (Ne.symm free.1)] at h
    split at h
    · rename_i digit
      exact List.forall_mem_cons.2 ⟨digit, ih free.2 h⟩
    · cases h

/-- Without underscores, one digit or more are read, and nothing else. -/
theorem readNatural_eq_ok {digits : List Char} (free : '_' ∉ digits) {n : Nat} :
    readNatural digits = .ok n ↔
      digits ≠ [] ∧ (∀ c ∈ digits, c.isDigit) ∧ digitsValue digits = n := by
  constructor
  · intro h
    have nonempty : digits ≠ [] := by
      rintro rfl
      cases h
    have all : ∀ c ∈ digits, c.isDigit := by
      unfold readNatural at h
      split at h
      case h_1 | h_2 => cases h
      case h_3 => exact all_isDigit_of_separatedDigits free h
    rw [readNatural_eq nonempty all] at h
    exact ⟨nonempty, all, Except.ok.inj h⟩
  · rintro ⟨nonempty, all, rfl⟩
    exact readNatural_eq nonempty all

/-! ## Signs and digits -/

/-- Signs and digits are no points and start no exponent. -/
theorem whole_of_sign_or_digit {c : Char} (h : c = '+' ∨ c = '-' ∨ c.isDigit) :
    c ≠ '.' ∧ Decimal.isExponentMark c = false := by
  rcases h with rfl | rfl | digit
  · decide
  · decide
  · refine ⟨?_, ?_⟩
    · rintro rfl
      exact absurd digit (by decide)
    · by_contra mark
      simp only [Decimal.isExponentMark, Bool.not_eq_false, Bool.or_eq_true, beq_iff_eq] at mark
      rcases mark with rfl | rfl <;> exact absurd digit (by decide)

/-- A decimal number without point and exponent is an integer. -/
theorem Decimal.read_of_whole {text : List Char} (nonempty : text ≠ [])
    (whole : ∀ c ∈ text, c ≠ '.' ∧ isExponentMark c = false) :
    Decimal.read text = match readInteger text with
      | .ok z => .ok ⟨z, 0⟩
      | .error fault => .error (.digits fault) := by
  have base : text.takeWhile (!isExponentMark ·) = text :=
    List.takeWhile_eq_self_iff.2 fun c hc => by simp [(whole c hc).2]
  have exponent : text.dropWhile (!isExponentMark ·) = [] :=
    List.dropWhile_eq_nil_iff.2 fun c hc => by simp [(whole c hc).2]
  have lead : text.takeWhile (· != '.') = text :=
    List.takeWhile_eq_self_iff.2 fun c hc => bne_iff_ne.2 (whole c hc).1
  have trail : text.dropWhile (· != '.') = [] :=
    List.dropWhile_eq_nil_iff.2 fun c hc => bne_iff_ne.2 (whole c hc).1
  have digits : dropPoint text = (text, 0) := by rw [dropPoint, trail, lead]
  rw [Decimal.read, base, exponent]
  simp only [readExponent, digits, List.isEmpty_eq_false_iff.2 nonempty]
  cases readInteger text <;> rfl

namespace IntegerText

variable {text : List Char} {z z' : Int} {width : Nat}

/-- What a reader of a fixed width reads notes an integer. -/
theorem of_read {n : Signed width} (h : Signed.read text = .ok n) : IntegerText text n.val := by
  unfold Signed.read at h
  split at h
  case h_1 | h_2 | h_3 => cases h
  case h_4 digits alone =>
    obtain ⟨all, value⟩ := Signed.readNegative_eq_ok.1 h
    rw [← value]
    exact .minus (fun nil => alone (by rw [nil])) all
  case h_5 digits alone =>
    obtain ⟨all, value⟩ := Signed.readPositive_eq_ok.1 h
    rw [← value]
    exact .plus (fun nil => alone (by rw [nil])) all
  case h_6 nonempty _ _ _ _ =>
    obtain ⟨all, value⟩ := Signed.readPositive_eq_ok.1 h
    rw [← value]
    exact .unsigned nonempty all

/-- A reader of a fixed width reads every integer in its range. -/
theorem read_eq (h : IntegerText text z) (lower : -(bound width : Int) ≤ z)
    (upper : z < (bound width : Int)) :
    Signed.read text = .ok (⟨z, lower, upper⟩ : Signed width) := by
  cases h with
  | unsigned nonempty all =>
    unfold Signed.read
    split
    case h_1 => exact absurd rfl nonempty
    case h_2 | h_4 => exact absurd rfl (ne_sign_of_digits all rfl).1
    case h_3 | h_5 => exact absurd rfl (ne_sign_of_digits all rfl).2.1
    case h_6 => exact Signed.readPositive_eq_ok.2 ⟨all, rfl⟩
  | plus nonempty all =>
    obtain ⟨c, rest, rfl⟩ := List.exists_cons_of_ne_nil nonempty
    exact Signed.readPositive_eq_ok.2 ⟨all, rfl⟩
  | minus nonempty all =>
    obtain ⟨c, rest, rfl⟩ := List.exists_cons_of_ne_nil nonempty
    exact Signed.readNegative_eq_ok.2 ⟨all, rfl⟩

/-- Integers of any size are read. -/
theorem readInteger_eq (h : IntegerText text z) : readInteger text = .ok z := by
  cases h with
  | unsigned nonempty all =>
    unfold readInteger
    split
    case h_1 => exact absurd rfl (ne_sign_of_digits all rfl).1
    case h_2 => exact absurd rfl (ne_sign_of_digits all rfl).2.1
    case h_3 =>
      rw [readNatural_eq nonempty all]
      rfl
  | plus nonempty all =>
    rw [readInteger, readNatural_eq nonempty all]
    rfl
  | minus nonempty all =>
    rw [readInteger, readNatural_eq nonempty all]
    rfl

/-- Without underscores, what is read as an integer of any size notes one. -/
theorem of_readInteger (free : '_' ∉ text) (h : readInteger text = .ok z) :
    IntegerText text z := by
  have digits_of_read {digits : List Char} {n : Int} (free : '_' ∉ digits)
      (h : (do return ((← readNatural digits : Nat) : Int)) = Except.ok n) :
      digits ≠ [] ∧ (∀ c ∈ digits, c.isDigit) ∧ (digitsValue digits : Int) = n := by
    obtain ⟨m, read, value⟩ := bind_eq_ok.1 h
    obtain ⟨nonempty, all, rfl⟩ := (readNatural_eq_ok free).1 read
    exact ⟨nonempty, all, Except.ok.inj value⟩
  unfold readInteger at h
  split at h
  case h_1 =>
    obtain ⟨n, read, rfl⟩ := map_eq_ok.1 h
    obtain ⟨nonempty, all, rfl⟩ := digits_of_read (fun hm => free (.tail _ hm)) read
    exact .minus nonempty all
  case h_2 =>
    obtain ⟨n, read, rfl⟩ := map_eq_ok.1 h
    obtain ⟨nonempty, all, rfl⟩ := digits_of_read (fun hm => free (.tail _ hm)) read
    exact .plus nonempty all
  case h_3 =>
    obtain ⟨n, read, rfl⟩ := map_eq_ok.1 h
    obtain ⟨nonempty, all, rfl⟩ := digits_of_read free read
    exact .unsigned nonempty all

/-- A text notes one integer only. -/
theorem unique (h : IntegerText text z) (h' : IntegerText text z') : z = z' :=
  Except.ok.inj (h.readInteger_eq.symm.trans h'.readInteger_eq)

/-- An integer has no characters but a sign and digits. -/
theorem sign_or_digit (h : IntegerText text z) {c : Char} (hc : c ∈ text) :
    c = '+' ∨ c = '-' ∨ c.isDigit := by
  cases h with
  | unsigned _ all => exact .inr (.inr (all c hc))
  | plus _ all => exact (List.mem_cons.1 hc).imp_right fun hc => .inr (all c hc)
  | minus _ all => exact .inr ((List.mem_cons.1 hc).imp_right (all c))

theorem ne_nil (h : IntegerText text z) : text ≠ [] := by
  cases h with
  | unsigned nonempty => exact nonempty
  | plus | minus => exact List.cons_ne_nil _ _

/-- An integer has no point and no exponent. -/
theorem whole (h : IntegerText text z) : ∀ c ∈ text,
    c ≠ '.' ∧ Decimal.isExponentMark c = false :=
  fun _ hc => whole_of_sign_or_digit (h.sign_or_digit hc)

/-- An integer is a decimal number without places. -/
theorem decimal_eq (h : IntegerText text z) : Decimal.read text = .ok ⟨z, 0⟩ := by
  rw [Decimal.read_of_whole h.ne_nil h.whole, h.readInteger_eq]

end IntegerText

end EntityQuery
