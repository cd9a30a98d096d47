import EntityQuery.Calendar.Clock
import EntityQuery.Proofs.Fields

/-!
# Times of day by their fields

A time of day is made from the fields that it shows, and a leap second shows the second 60. Only the
last second of a minute can be followed by a leap second, which the type of times does not ask for;
the times that are made from fields all keep to it, and they are those that are read again.

## Main definitions

* `Clock.Shown`, `Clock.shownSecond`: times that have a notation of their own, and their second

## Main results

* `Clock.ofFields?_eq_some`: the fields that a time is made from are those that it shows
* `Clock.ofSeconds?_eq_some`: the time that some seconds after midnight is
* `Clock.read?_text`: a time is read again from its notation, with its fraction and without
-/

namespace EntityQuery

namespace Clock

/-! ## Fields -/

/-- A time of which the notation shows all: a leap second comes after the last second of a
minute. -/
def Shown (clock : Clock) : Prop := clock.isLeap → clock.second.val = 59

/-- The second that the notation shows. -/
def shownSecond (clock : Clock) : Nat :=
  if clock.isLeap then clock.second + 1 else clock.second

theorem isLeap_iff {clock : Clock} : clock.isLeap ↔ perSecond ≤ clock.nanosecond.val :=
  decide_eq_true_iff

variable {clock : Clock} {hour minute second nanosecond : Nat}

theorem shownSecond_of_leap (leap : perSecond ≤ clock.nanosecond.val) :
    clock.shownSecond = clock.second + 1 := if_pos (isLeap_iff.2 leap)

theorem shownSecond_of_plain (plain : clock.nanosecond.val < perSecond) :
    clock.shownSecond = clock.second :=
  if_neg fun leap => Nat.not_le_of_gt plain (isLeap_iff.1 leap)

/-- A time that is made from fields shows them. -/
theorem fields_of_ofFields? (h : ofFields? hour minute second nanosecond = some clock) :
    clock.Shown ∧ clock.hour = hour ∧ clock.minute = minute ∧ clock.shownSecond = second ∧
      clock.nanosecond % perSecond = nanosecond := by
  unfold ofFields? at h
  split at h
  · rename_i bounds
    have second_le := bounds.2.2.1
    have small := bounds.2.2.2
    split at h
    · obtain rfl := Option.some.inj h
      refine ⟨fun leap => ?_, rfl, rfl, shownSecond_of_plain small, Nat.mod_eq_of_lt small⟩
      exact absurd (isLeap_iff.1 leap) (Nat.not_le_of_gt small)
    · rename_i beyond
      obtain rfl := Option.some.inj h
      refine ⟨fun _ => rfl, rfl, rfl, ?_, ?_⟩
      · rw [shownSecond_of_leap (Nat.le_add_right _ _)]
        show 59 + 1 = second
        omega
      · show (perSecond + nanosecond) % perSecond = nanosecond
        rw [Nat.add_mod_left, Nat.mod_eq_of_lt small]
  · cases h

/-- A time is made again from the fields that it shows. -/
theorem ofFields?_fields (shown : clock.Shown) :
    ofFields? clock.hour clock.minute clock.shownSecond (clock.nanosecond % perSecond) =
      some clock := by
  have second_lt := clock.second.isLt
  have nanosecond_lt := clock.nanosecond.isLt
  have rest_lt : clock.nanosecond % perSecond < perSecond := Nat.mod_lt _ (Nat.succ_pos _)
  rcases Nat.lt_or_ge clock.nanosecond.val perSecond with plain | leap
  · rw [shownSecond_of_plain plain, ofFields?,
      dif_pos ⟨clock.hour.isLt, clock.minute.isLt, second_lt.le, rest_lt⟩, dif_pos second_lt]
    simp only [Nat.mod_eq_of_lt plain]
  · have last : clock.second.val = 59 := shown (isLeap_iff.2 leap)
    have whole : perSecond + clock.nanosecond % perSecond = clock.nanosecond := by
      unfold perSecond at leap ⊢
      omega
    rw [shownSecond_of_leap leap, last, ofFields?,
      dif_pos ⟨clock.hour.isLt, clock.minute.isLt, Nat.le_refl 60, rest_lt⟩, dif_neg (by decide)]
    have second_eq : clock.second = 59 := Fin.ext last
    simp only [whole, ← second_eq]

/-- The fields that a time is made from are those that it shows. -/
theorem ofFields?_eq_some :
    ofFields? hour minute second nanosecond = some clock ↔
      clock.Shown ∧ clock.hour = hour ∧ clock.minute = minute ∧ clock.shownSecond = second ∧
        clock.nanosecond % perSecond = nanosecond := by
  constructor
  · exact fields_of_ofFields?
  · rintro ⟨shown, rfl, rfl, rfl, rfl⟩
    exact ofFields?_fields shown

/-- The time that some seconds after midnight is, on the same day. -/
theorem ofSeconds?_eq_some {seconds : Nat} (small : nanosecond < perSecond) :
    ofSeconds? seconds nanosecond = some clock ↔
      seconds < 86400 ∧ clock.seconds = seconds ∧ clock.nanosecond = nanosecond := by
  have hour_lt := clock.hour.isLt
  have minute_lt := clock.minute.isLt
  have second_lt := clock.second.isLt
  rw [ofSeconds?, ofFields?_eq_some, Clock.seconds]
  constructor
  · rintro ⟨shown, hour_eq, minute_eq, second_eq, rest_eq⟩
    -- The second 60 of a leap second is no rest by 60.
    have plain : clock.nanosecond.val < perSecond := by
      by_contra leap
      rw [Nat.not_lt] at leap
      rw [shownSecond_of_leap leap, shown (isLeap_iff.2 leap)] at second_eq
      omega
    rw [shownSecond_of_plain plain] at second_eq
    rw [Nat.mod_eq_of_lt plain] at rest_eq
    exact ⟨by omega, by omega, rest_eq⟩
  · rintro ⟨day, rfl, rfl⟩
    refine ⟨fun leap => absurd (isLeap_iff.1 leap) (Nat.not_le_of_gt small), ?_, ?_, ?_,
      Nat.mod_eq_of_lt small⟩
    · omega
    · omega
    · rw [shownSecond_of_plain small]
      omega

/-! ## Reading again -/

theorem text_eq (clock : Clock) :
    clock.text = Field.padded 2 clock.hour ++ ':' :: (Field.padded 2 clock.minute ++
      ':' :: Field.padded 2 clock.shownSecond) := by
  rw [text, List.append_assoc]
  rfl

theorem shownSecond_le (clock : Clock) : clock.shownSecond ≤ 60 := by
  have second_lt := clock.second.isLt
  rcases Nat.lt_or_ge clock.nanosecond.val perSecond with plain | leap
  · rw [shownSecond_of_plain plain]
    omega
  · rw [shownSecond_of_leap leap]
    omega

/-- A fraction is written in the fewest digits that are exact, and read again. -/
theorem fraction?_fractionText (clock : Clock) :
    Field.fraction? clock.fractionText = some (clock.nanosecond % perSecond, []) := by
  have rest_lt : clock.nanosecond % perSecond < 1000000000 := Nat.mod_lt _ (Nat.succ_pos _)
  unfold fractionText
  generalize clock.nanosecond % perSecond = rest at rest_lt ⊢
  have read {width n : Nat} (positive : 0 < width) (short : width ≤ Field.nanosecondDigits)
      (fits : n < 10 ^ width) (whole : n * 10 ^ (Field.nanosecondDigits - width) = rest) :
      Field.fraction? ('.' :: Field.padded width n) = some (rest, []) := by
    rw [Field.fraction?_padded fits positive short, whole]
  simp only
  split
  · subst rest
    rfl
  · split
    · refine read (Nat.succ_pos 2) (by decide) (by omega) ?_
      show rest / 1000000 * 10 ^ 6 = rest
      omega
    · split
      · refine read (Nat.succ_pos 5) (by decide) (by omega) ?_
        show rest / 1000 * 10 ^ 3 = rest
        omega
      · exact read (Nat.succ_pos 8) (Nat.le_refl _) rest_lt (Nat.mul_one _)

/-- **A time is read again** from its notation with the fraction. -/
theorem read?_text (shown : clock.Shown) :
    read? true (clock.text ++ clock.fractionText) = some (clock, []) := by
  have hour_lt := clock.hour.isLt
  have minute_lt := clock.minute.isLt
  have second_le := clock.shownSecond_le
  have hour := Field.number?_two (show clock.hour.val < 100 by omega)
  have minute := Field.number?_two (show clock.minute.val < 100 by omega)
  have second := Field.number?_two (show clock.shownSecond < 100 by omega)
  rw [text_eq, read?]
  simp only [List.append_assoc, List.cons_append, hour, minute, second, Field.mark?_cons,
    fraction?_fractionText, ofFields?_fields shown, Option.bind_eq_bind, Option.bind_some, if_true]
  rfl

/-- A time that is read is made from fields. -/
theorem shown_of_read? {allowFraction : Bool} {text rest : List Char}
    (h : read? allowFraction text = some (clock, rest)) : clock.Shown := by
  have of_fields {hour minute second : Nat} {read : Option (Nat × List Char)}
      (h : (read.bind fun fraction => (ofFields? hour minute second fraction.1).bind fun clock =>
        some (clock, fraction.2)) = some (clock, rest)) : clock.Shown := by
    obtain ⟨⟨nanosecond, text⟩, -, h⟩ := Option.bind_eq_some_iff.1 h
    obtain ⟨made, fields, same⟩ := Option.bind_eq_some_iff.1 h
    obtain ⟨rfl, -⟩ := Prod.mk.inj (Option.some.inj same)
    exact (fields_of_ofFields? fields).1
  obtain ⟨⟨hour, text⟩, -, h⟩ := Option.bind_eq_some_iff.1 h
  obtain ⟨text, -, h⟩ := Option.bind_eq_some_iff.1 h
  obtain ⟨⟨minute, text⟩, -, h⟩ := Option.bind_eq_some_iff.1 h
  obtain ⟨text, -, h⟩ := Option.bind_eq_some_iff.1 h
  obtain ⟨⟨second, text⟩, -, h⟩ := Option.bind_eq_some_iff.1 h
  simp only at h
  split at h
  · exact of_fields h
  · exact of_fields h

end Clock

end EntityQuery
