import EntityQuery.Literal.Temporal
import EntityQuery.Proofs.Clocks

/-!
# Texts of durations

A duration notes amounts of time one after the other: digits, for seconds perhaps a point and the
digits of a fraction, and the letter of the unit. The units come in falling order, so that none
comes twice. The reader goes through a text amount by amount, in words of 32 bits; a day has few
enough seconds that no word overflows before the day is over, whatever the number of digits.

## Main definitions

* `Duration.TimeUnit`, `Duration.Amount`: units, and numbers with their units
* `Duration.Notes`: the amounts that a text notes
* `Duration.totalSeconds`, `Duration.fractionOf`: what amounts come to, in unbounded numbers

## Main results

* `Duration.total?_amount_append`: one round of the reader
* `Duration.total?_eq_some`: what the reader adds up over all its rounds
* `readClock_duration_iff`: which durations are read, and as what
-/

namespace EntityQuery

namespace Duration

/-! ## Amounts -/

/-- A unit of time in a duration. -/
inductive TimeUnit where
  | hour
  | minute
  | second
  deriving DecidableEq, Repr

namespace TimeUnit

/-- The letter after a number of the unit. -/
def letter : TimeUnit → Char
  | hour => 'H'
  | minute => 'M'
  | second => 'S'

/-- The seconds of the unit. -/
def seconds : TimeUnit → Nat
  | hour => 3600
  | minute => 60
  | second => 1

/-- The place of the unit in a duration. -/
def rank : TimeUnit → Nat
  | hour => 1
  | minute => 2
  | second => 3

theorem rank_pos (unit : TimeUnit) : 0 < unit.rank := by
  cases unit <;> exact Nat.succ_pos _

/-- Seconds come last. -/
theorem rank_le_second (unit : TimeUnit) : unit.rank ≤ second.rank := by
  cases unit with
  | hour => exact Nat.le_add_right 1 2
  | minute => exact Nat.le_add_right 2 1
  | second => exact Nat.le_refl 3

theorem seconds_pos (unit : TimeUnit) : 0 < unit.seconds := by
  cases unit <;> exact Nat.succ_pos _

theorem isNumeric_letter (unit : TimeUnit) : isNumeric unit.letter = false := by
  cases unit <;> rfl

end TimeUnit

/-- The letters of units are known with their rank and their seconds, and no other character is. -/
theorem unit?_eq_some {c : Char} {rank factor : Nat} :
    unit? c = some (rank, factor) ↔
      ∃ unit : TimeUnit, unit.letter = c ∧ unit.rank = rank ∧ unit.seconds = factor := by
  constructor
  · intro h
    unfold unit? at h
    split at h
    · obtain ⟨rfl, rfl⟩ := Prod.mk.inj (Option.some.inj h)
      exact ⟨.hour, rfl, rfl, rfl⟩
    · obtain ⟨rfl, rfl⟩ := Prod.mk.inj (Option.some.inj h)
      exact ⟨.minute, rfl, rfl, rfl⟩
    · obtain ⟨rfl, rfl⟩ := Prod.mk.inj (Option.some.inj h)
      exact ⟨.second, rfl, rfl, rfl⟩
    · cases h
  · rintro ⟨unit, rfl, rfl, rfl⟩
    cases unit <;> rfl

/-- A number with its unit. Only seconds may have a fraction, of nine digits at most. -/
structure Amount where
  unit : TimeUnit
  /-- The digits of the whole number, however many. -/
  whole : List Char
  /-- The digits after the point, if there is one. -/
  fraction : Option (List Char)
  digits_whole : Digits whole
  digits_fraction : ∀ digits ∈ fraction,
    unit = .second ∧ Digits digits ∧ digits.length ≤ Field.nanosecondDigits

namespace Amount

/-- The number of an amount as it is written. -/
def number (a : Amount) : List Char :=
  match a.fraction with
  | none => a.whole
  | some digits => a.whole ++ '.' :: digits

/-- An amount as it is written. -/
def text (a : Amount) : List Char := a.number ++ [a.unit.letter]

/-- The whole seconds of an amount. -/
def seconds (a : Amount) : Nat := digitsValue a.whole * a.unit.seconds

/-- The nanoseconds that the fraction of an amount notes, filled up with zeros on the right. -/
def nanoseconds? (a : Amount) : Option Nat :=
  a.fraction.map fun digits =>
    digitsValue (digits ++ List.replicate (Field.nanosecondDigits - digits.length) '0')

theorem isNumeric_of_mem_number {a : Amount} {c : Char} (hc : c ∈ a.number) : isNumeric c := by
  have of_digit {c : Char} (digit : c.isDigit) : isNumeric c := by
    rw [isNumeric, digit, Bool.true_or]
  unfold number at hc
  split at hc
  · exact of_digit (a.digits_whole.all c hc)
  · rename_i digits fraction
    rcases List.mem_append.1 hc with whole | point | digit
    · exact of_digit (a.digits_whole.all c whole)
    · rfl
    · exact of_digit ((a.digits_fraction digits fraction).2.1.all c (by assumption))

/-- Numbers end at the letter of their unit. -/
theorem takeWhile_text_append (a : Amount) (rest : List Char) :
    (a.text ++ rest).takeWhile isNumeric = a.number ∧
      (a.text ++ rest).dropWhile isNumeric = a.unit.letter :: rest := by
  have letter := a.unit.isNumeric_letter
  have all : ∀ c ∈ a.number, isNumeric c := fun c hc => isNumeric_of_mem_number hc
  rw [text, List.append_assoc, List.singleton_append, List.takeWhile_append_of_pos all,
    List.dropWhile_append_of_pos all, List.takeWhile_cons_of_neg (by simp [letter]),
    List.dropWhile_cons_of_neg (by simp [letter]), List.append_nil]
  exact ⟨rfl, rfl⟩

end Amount

/-! ## Numbers that are read -/

theorem word?_eq_some {n m : Nat} : word? n = some m ↔ n < 2 ^ 32 ∧ n = m := by
  unfold word?
  by_cases fits : n < Nat.pow 2 32
  · rw [if_pos fits, Option.some.injEq]
    exact ⟨fun same => ⟨fits, same⟩, And.right⟩
  · rw [if_neg fits]
    exact ⟨nofun, fun h => absurd h.1 fits⟩

/-- Digits are counted if their number fits a word. -/
theorem count?_eq_some {digits : List Char} {n : Nat} :
    count? digits = some n ↔
      Digits digits ∧ digitsValue digits < 2 ^ 32 ∧ digitsValue digits = n := by
  unfold count?
  split
  · rename_i refused
    refine ⟨nofun, fun ⟨number, _⟩ => ?_⟩
    rw [List.isEmpty_eq_false_iff.2 number.nonempty, List.all_eq_true.2 number.all] at refused
    cases refused
  · rename_i accepted
    rw [Bool.or_eq_true, not_or, List.isEmpty_iff, Bool.not_eq_true', Bool.not_eq_false,
      List.all_eq_true] at accepted
    rw [word?_eq_some]
    exact ⟨fun h => ⟨⟨accepted.1, accepted.2⟩, h⟩, And.right⟩

/-- Nine digits fit a word. -/
theorem fraction?_eq_some {digits : List Char} {n : Nat} :
    fraction? digits = some n ↔ Digits digits ∧ digits.length ≤ Field.nanosecondDigits ∧
      Field.nanoseconds digits = n := by
  unfold fraction?
  by_cases long : digits.length > Field.nanosecondDigits
  · rw [if_pos long]
    refine ⟨nofun, fun h => ?_⟩
    exact absurd h.2.1 (Nat.not_le_of_gt long)
  · rw [if_neg long, Option.map_eq_some_iff]
    constructor
    · rintro ⟨m, counted, rfl⟩
      exact ⟨(count?_eq_some.1 counted).1, Nat.le_of_not_gt long, rfl⟩
    · rintro ⟨number, short, rfl⟩
      have small : 10 ^ digits.length ≤ 10 ^ 9 := Nat.pow_le_pow_right (by decide) short
      have value_lt := digitsValue_lt number.all
      exact ⟨_, count?_eq_some.2 ⟨number, by omega, rfl⟩, rfl⟩

/-- A number without a point has whole seconds only. -/
theorem amount?_of_whole {unit : Char} {factor : Nat} {number : List Char}
    (whole : Text.cut? ['.'] number = none) :
    amount? unit factor number = (count? number).bind fun n =>
      (word? (n * factor)).map fun seconds => (seconds, none) := by
  rw [amount?, whole]
  show (count? number).bind _ = _
  congr 1
  funext n
  show (word? (n * factor)).bind _ = _
  cases word? (n * factor) <;> rfl

/-- A number with a point has a fraction, which only seconds may have. -/
theorem amount?_of_cut {unit : Char} {factor : Nat} {number before after : List Char}
    (cut : Text.cut? ['.'] number = some (before, after)) :
    amount? unit factor number =
      if unit = 'S' then (count? before).bind fun n => (word? (n * factor)).bind fun seconds =>
        (fraction? after).map fun nanoseconds => (seconds, some nanoseconds)
      else none := by
  rw [amount?, cut]
  by_cases seconds : unit = 'S'
  · simp only [if_pos seconds]
    show (count? before).bind _ = _
    congr 1
    funext n
    show (word? (n * factor)).bind _ = _
    congr 1
    funext m
    show (fraction? after).bind _ = _
    cases fraction? after <;> rfl
  · simp only [if_neg seconds]
    rfl

/-- What is read as a number before a unit is the number of an amount. -/
theorem exists_amount_of_amount? {unit : TimeUnit} {number : List Char} {result : Nat × Option Nat}
    (h : amount? unit.letter unit.seconds number = some result) :
    ∃ a : Amount, a.unit = unit ∧ a.number = number := by
  cases cut : Text.cut? ['.'] number with
  | none =>
    rw [amount?_of_whole cut] at h
    obtain ⟨n, counted, -⟩ := Option.bind_eq_some_iff.1 h
    exact ⟨⟨unit, number, none, (count?_eq_some.1 counted).1, nofun⟩, rfl, rfl⟩
  | some pieces =>
    obtain ⟨before, after⟩ := pieces
    rw [amount?_of_cut cut] at h
    split at h
    · rename_i is_second
      obtain ⟨n, counted, h⟩ := Option.bind_eq_some_iff.1 h
      obtain ⟨seconds, -, h⟩ := Option.bind_eq_some_iff.1 h
      obtain ⟨nanoseconds, read, -⟩ := Option.map_eq_some_iff.1 h
      obtain ⟨digits_after, short, -⟩ := fraction?_eq_some.1 read
      have unit_eq : unit = .second := by
        cases unit
        · exact absurd is_second (by decide)
        · exact absurd is_second (by decide)
        · rfl
      refine ⟨⟨unit, before, some after, (count?_eq_some.1 counted).1, ?_⟩, rfl, ?_⟩
      · intro digits same
        obtain rfl := Option.some.inj same
        exact ⟨unit_eq, digits_after, short⟩
      · rw [Text.eq_of_cut? cut, List.append_assoc]
        rfl
    · cases h

namespace Amount

/-- A number is cut at the point in front of its fraction. -/
theorem cut?_number (a : Amount) :
    Text.cut? ['.'] a.number = a.fraction.map fun digits => (a.whole, digits) := by
  have no_point : '.' ∉ a.whole := a.digits_whole.not_mem rfl
  unfold number
  cases a.fraction with
  | none =>
    refine Text.cut?_eq_none.2 fun inside => no_point ?_
    exact inside.subset List.mem_cons_self
  | some digits =>
    show Text.cut? ['.'] (a.whole ++ '.' :: digits) = some (a.whole, digits)
    rw [Text.cut?_append_of_not_mem no_point]
    simp [Text.cut?]

/-- The digits of a whole number are counted as far as their seconds fit a word: a unit has a second
at least, so the number itself is no larger. -/
theorem bind_count? {β : Type} (a : Amount) (f : Nat → Option β) :
    ((count? a.whole).bind fun n => (word? (n * a.unit.seconds)).bind f) =
      (word? a.seconds).bind f := by
  by_cases fits : digitsValue a.whole < 2 ^ 32
  · rw [count?_eq_some.2 ⟨a.digits_whole, fits, rfl⟩]
    rfl
  · have uncounted : count? a.whole = none := by
      rw [Option.eq_none_iff_forall_ne_some]
      intro n counted
      exact fits (count?_eq_some.1 counted).2.1
    have larger : digitsValue a.whole ≤ a.seconds := Nat.le_mul_of_pos_right _ a.unit.seconds_pos
    have too_large : ¬a.seconds < Nat.pow 2 32 := fun small => fits (larger.trans_lt small)
    rw [uncounted, word?, if_neg too_large]
    rfl

/-- A number before its unit is read if its seconds fit a word. -/
theorem amount?_number (a : Amount) :
    amount? a.unit.letter a.unit.seconds a.number =
      (word? a.seconds).map fun seconds => (seconds, a.nanoseconds?) := by
  have cut := a.cut?_number
  rw [Option.map_eq_bind]
  cases given : a.fraction with
  | none =>
    have fraction : a.nanoseconds? = none := by rw [nanoseconds?, given, Option.map_none]
    have whole : a.number = a.whole := by rw [number, given]
    rw [given] at cut
    rw [amount?_of_whole cut, ← a.bind_count?, fraction, whole]
    simp only [Option.map_eq_bind]
  | some digits =>
    obtain ⟨is_second, number, short⟩ := a.digits_fraction digits given
    have letter : a.unit.letter = 'S' := congrArg TimeUnit.letter is_second
    have fraction : a.nanoseconds? = some (Field.nanoseconds digits) := by
      rw [nanoseconds?, given, Option.map_some, Field.nanoseconds_eq]
    rw [given] at cut
    rw [amount?_of_cut cut, if_pos letter, fraction?_eq_some.2 ⟨number, short, rfl⟩,
      ← a.bind_count?, fraction]
    rfl

end Amount

/-! ## Rounds of the reader -/

variable {rank seconds nanoseconds : Nat} {text : List Char} {result : Nat × Nat}

theorem total?_nil : total? rank seconds nanoseconds [] = some (seconds, nanoseconds) := by
  rw [total?]
  rfl

/-- **One round of the reader.** An amount is added if its unit is of higher rank than the units
before it and the sum fits a word; the reader goes on after it. -/
theorem total?_amount_append (a : Amount) (rest : List Char) :
    total? rank seconds nanoseconds (a.text ++ rest) =
      if rank < a.unit.rank ∧ seconds + a.seconds < 2 ^ 32 then
        total? a.unit.rank (seconds + a.seconds) (a.nanoseconds?.getD nanoseconds) rest
      else none := by
  obtain ⟨number, follows⟩ := a.takeWhile_text_append rest
  have nonempty : (a.text ++ rest).isEmpty = false := by simp [Amount.text]
  have known : unit? a.unit.letter = some (a.unit.rank, a.unit.seconds) :=
    unit?_eq_some.2 ⟨a.unit, rfl, rfl, rfl⟩
  rw [total?, nonempty, if_neg Bool.false_ne_true]
  split
  · rename_i ends
    rw [follows] at ends
    cases ends
  · rename_i unit rest' found
    rw [follows] at found
    obtain ⟨rfl, rfl⟩ := List.cons.inj found
    simp only [known, number, Option.bind_eq_bind, Option.bind_some, a.amount?_number]
    by_cases rises : rank < a.unit.rank
    · rw [if_neg (Nat.not_le_of_gt rises)]
      by_cases fits : seconds + a.seconds < 2 ^ 32
      · have small : a.seconds < 2 ^ 32 := by omega
        rw [if_pos ⟨rises, fits⟩, word?_eq_some.2 ⟨small, rfl⟩]
        show (word? (seconds + a.seconds)).bind _ = _
        rw [word?_eq_some.2 ⟨fits, rfl⟩]
        rfl
      · -- Whether the amount alone fits a word or not, the sum does not.
        have overflow : word? (seconds + a.seconds) = none := if_neg fits
        rw [if_neg fun h => fits h.2]
        cases counted : word? a.seconds with
        | none => rfl
        | some n =>
          obtain ⟨-, rfl⟩ := word?_eq_some.1 counted
          show (word? (seconds + a.seconds)).bind _ = none
          rw [overflow]
          rfl
    · rw [if_pos (Nat.le_of_not_gt rises), if_neg (fun h => rises h.1)]

/-- A text that is read to its end starts with an amount. -/
theorem exists_amount_of_total? (nonempty : text ≠ [])
    (h : total? rank seconds nanoseconds text = some result) :
    ∃ (a : Amount) (rest : List Char), text = a.text ++ rest := by
  rw [total?, List.isEmpty_eq_false_iff.2 nonempty, if_neg Bool.false_ne_true] at h
  split at h
  · cases h
  · rename_i c rest follows
    obtain ⟨⟨rank', factor⟩, known, h⟩ := Option.bind_eq_some_iff.1 h
    obtain ⟨unit, rfl, rfl, rfl⟩ := unit?_eq_some.1 known
    simp only at h
    split at h
    · cases h
    · obtain ⟨amount, counted, -⟩ := Option.bind_eq_some_iff.1 h
      obtain ⟨a, rfl, number⟩ := exists_amount_of_amount? counted
      refine ⟨a, rest, ?_⟩
      rw [Amount.text, number, List.append_assoc, List.singleton_append, ← follows,
        List.takeWhile_append_dropWhile]

/-! ## Durations -/

/-- The amounts that a text notes, their units in falling order and each at most once. -/
structure Notes (text : List Char) (amounts : List Amount) : Prop where
  written : text = amounts.flatMap Amount.text
  falling : amounts.Pairwise fun a b => a.unit.rank < b.unit.rank

/-- The whole seconds of some amounts. -/
def totalSeconds (amounts : List Amount) : Nat := (amounts.map Amount.seconds).sum

/-- The nanoseconds of the fraction that one of some amounts has, or others if none has one. -/
def fractionOf (amounts : List Amount) (others : Nat) : Nat :=
  (amounts.findSome? Amount.nanoseconds?).getD others

theorem Notes.nil : Notes [] [] := ⟨rfl, .nil⟩

theorem Notes.cons_iff {a : Amount} {amounts : List Amount} :
    Notes text (a :: amounts) ↔ ∃ rest, text = a.text ++ rest ∧ Notes rest amounts ∧
      ∀ b ∈ amounts, a.unit.rank < b.unit.rank := by
  constructor
  · rintro ⟨rfl, falling⟩
    obtain ⟨first, falling⟩ := List.pairwise_cons.1 falling
    exact ⟨_, List.flatMap_cons, ⟨rfl, falling⟩, first⟩
  · rintro ⟨rest, rfl, ⟨rfl, falling⟩, first⟩
    exact ⟨List.flatMap_cons.symm, .cons first falling⟩

theorem totalSeconds_cons (a : Amount) (amounts : List Amount) :
    totalSeconds (a :: amounts) = a.seconds + totalSeconds amounts := by
  rw [totalSeconds, List.map_cons, List.sum_cons]
  rfl

/-- No amount comes after one with a fraction. -/
theorem fractionOf_cons {a : Amount} {amounts : List Amount}
    (falling : ∀ b ∈ amounts, a.unit.rank < b.unit.rank) (others : Nat) :
    fractionOf (a :: amounts) others = fractionOf amounts (a.nanoseconds?.getD others) := by
  rw [fractionOf, fractionOf, List.findSome?_cons]
  cases given : a.fraction with
  | none =>
    have none : a.nanoseconds? = none := by rw [Amount.nanoseconds?, given, Option.map_none]
    rw [none]
    rfl
  | some digits =>
    have last : amounts = [] := by
      rw [List.eq_nil_iff_forall_not_mem]
      intro b hb
      have lower := falling b hb
      rw [(a.digits_fraction digits given).1] at lower
      exact absurd b.unit.rank_le_second (Nat.not_le_of_gt lower)
    have some : a.nanoseconds?.isSome := by rw [Amount.nanoseconds?, given]; rfl
    obtain ⟨n, found⟩ := Option.isSome_iff_exists.1 some
    rw [found, last]
    rfl

/-- **What the reader adds up over all its rounds**: the amounts that a text notes, as long as their
units are of higher rank than those before them and the sum fits a word. -/
theorem total?_eq_some (small : seconds < 2 ^ 32) :
    total? rank seconds nanoseconds text = some result ↔
      ∃ amounts, Notes text amounts ∧ (∀ a ∈ amounts, rank < a.unit.rank) ∧
        seconds + totalSeconds amounts < 2 ^ 32 ∧
        (seconds + totalSeconds amounts, fractionOf amounts nanoseconds) = result := by
  constructor
  · intro h
    induction length : text.length using Nat.strong_induction_on
      generalizing rank seconds nanoseconds text with
    | _ n ih =>
      by_cases nonempty : text = []
      · subst nonempty
        rw [total?_nil] at h
        obtain rfl := Option.some.inj h
        exact ⟨[], .nil, nofun, small, rfl⟩
      · obtain ⟨a, rest, rfl⟩ := exists_amount_of_total? nonempty h
        rw [total?_amount_append] at h
        split at h
        · rename_i goes_on
          obtain ⟨rises, fits⟩ := goes_on
          have shorter : rest.length < n := by
            rw [← length, List.length_append, Amount.text, List.length_append,
              List.length_singleton]
            omega
          obtain ⟨amounts, notes, higher, sum_lt, rfl⟩ := ih _ shorter fits h rfl
          refine ⟨a :: amounts, Notes.cons_iff.2 ⟨rest, rfl, notes, higher⟩, ?_, ?_, ?_⟩
          · intro b hb
            rcases List.mem_cons.1 hb with rfl | later
            · exact rises
            · exact rises.trans (higher b later)
          · rw [totalSeconds_cons]
            omega
          · rw [totalSeconds_cons, fractionOf_cons higher, Nat.add_assoc]
        · cases h
  · rintro ⟨amounts, notes, higher, fits, rfl⟩
    induction amounts generalizing rank seconds nanoseconds text with
    | nil =>
      obtain rfl := notes.written
      exact total?_nil
    | cons a amounts ih =>
      obtain ⟨rest, rfl, notes, falling⟩ := Notes.cons_iff.1 notes
      rw [totalSeconds_cons] at fits
      have rises := higher a List.mem_cons_self
      have next : seconds + a.seconds < 2 ^ 32 := by omega
      rw [total?_amount_append, if_pos ⟨rises, next⟩, totalSeconds_cons, fractionOf_cons falling,
        ← Nat.add_assoc]
      exact ih next notes falling (by omega)

/-! ## Times of day -/

/-- A fraction is less than a second. -/
theorem fractionOf_lt (amounts : List Amount) : fractionOf amounts 0 < Clock.perSecond := by
  unfold fractionOf
  cases found : amounts.findSome? Amount.nanoseconds? with
  | none => exact Nat.succ_pos _
  | some n =>
    obtain ⟨a, -, counted⟩ := List.exists_of_findSome?_eq_some found
    obtain ⟨digits, given, rfl⟩ := Option.map_eq_some_iff.1 counted
    obtain ⟨-, number, short⟩ := a.digits_fraction digits given
    have zeros : ∀ c ∈ List.replicate (Field.nanosecondDigits - digits.length) '0', c.isDigit := by
      intro c hc
      rw [(List.mem_replicate.1 hc).2]
      rfl
    have value_lt := digitsValue_lt (List.forall_mem_append.2 ⟨number.all, zeros⟩)
    rwa [List.length_append, List.length_replicate, Nat.add_sub_cancel' short] at value_lt

/-- A duration is read if it notes one amount at least, and less than a day. -/
theorem readClock?_eq_some {text : List Char} {clock : Clock} :
    readClock? text = some clock ↔
      ∃ amounts, amounts ≠ [] ∧ Notes text amounts ∧ totalSeconds amounts < 86400 ∧
        clock.seconds = totalSeconds amounts ∧ clock.nanosecond = fractionOf amounts 0 := by
  unfold readClock?
  by_cases empty : text = []
  · subst empty
    refine ⟨nofun, ?_⟩
    rintro ⟨_ | ⟨a, amounts⟩, some, notes, -⟩
    · exact absurd rfl some
    · obtain ⟨rest, written, -⟩ := Notes.cons_iff.1 notes
      simp [Amount.text] at written
  · rw [List.isEmpty_eq_false_iff.2 empty, if_neg Bool.false_ne_true]
    constructor
    · intro h
      obtain ⟨result, added, made⟩ := Option.bind_eq_some_iff.1 h
      obtain ⟨amounts, notes, -, -, rfl⟩ := (total?_eq_some (by decide)).1 added
      simp only [Nat.zero_add] at made
      obtain ⟨day, seconds, fraction⟩ := (Clock.ofSeconds?_eq_some (fractionOf_lt amounts)).1 made
      refine ⟨amounts, ?_, notes, day, seconds, fraction⟩
      rintro rfl
      exact empty notes.written
    · rintro ⟨amounts, -, notes, day, seconds, fraction⟩
      -- The seconds of a day fit a word, so no round overflows.
      have fits : 0 + totalSeconds amounts < 2 ^ 32 := by omega
      have higher : ∀ a ∈ amounts, 0 < a.unit.rank := fun a _ => a.unit.rank_pos
      have added : total? 0 0 0 text = some (0 + totalSeconds amounts, fractionOf amounts 0) :=
        (total?_eq_some (by decide)).2 ⟨amounts, notes, higher, fits, rfl⟩
      refine Option.bind_eq_some_iff.2 ⟨_, added, ?_⟩
      simp only [Nat.zero_add]
      exact (Clock.ofSeconds?_eq_some (fractionOf_lt amounts)).2 ⟨day, seconds, fraction⟩

end Duration

/-- **A duration is read if it has the form of one and ends on the same day.** What follows the
marker of a duration is read if it notes amounts of time, one at least, their units in falling order
and each at most once, that come to less than the seconds of a day, however many digits they have.
What is read is the time of day so many seconds after midnight, with the fraction of the amount of
seconds, filled up with zeros on the right, as nanoseconds. -/
theorem readClock_duration_iff (duration : String) (clock : Clock) :
    Temporal.readClock ("PT" ++ duration) = .ok clock ↔
      ∃ amounts, amounts ≠ [] ∧ Duration.Notes duration.toList amounts ∧
        Duration.totalSeconds amounts < 86400 ∧ clock.seconds = Duration.totalSeconds amounts ∧
          clock.nanosecond = Duration.fractionOf amounts 0 := by
  have marked : ("PT" ++ duration).toList = 'P' :: 'T' :: duration.toList := by simp
  rw [← Duration.readClock?_eq_some, Temporal.readClock, marked]
  simp only
  split
  · rename_i read
    rw [read, Except.ok.injEq, Option.some.injEq]
  · rename_i read
    rw [read]
    exact ⟨nofun, nofun⟩

end EntityQuery
