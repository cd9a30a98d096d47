import EntityQuery.Proofs.Clocks
import EntityQuery.Proofs.NativeTypes
import EntityQuery.Proofs.Offsets

/-!
# Dates and times that are read again

A date, a moment or a time of day that is bound has a notation, which is the text of the value. The
readers take more forms than are written: seconds and fractions may be missing, universal time may
be a `Z`, and a time of day may be a duration. Whichever form was read, the form that is written is
read as the same value, with leap seconds, signed years and all places of a fraction.

## Main results

* `Date.read?_text`, `Moment.read?_text`: dates and moments are read again from their notation
* `OffsetMoment.notes_offsetText`: offsets of whole minutes are noted in hours and minutes
* `encode_text_again`: the text of a bound date or time is encoded as the same value
* `encodeText_text_again`: the text of a bound date or time is bound as the same value
-/

namespace EntityQuery

/-! ## Dates -/

namespace Date

/-- A year is read again in front of a hyphen, which ends its digits. -/
theorem year?_yearText (year : Int) (rest : List Char) :
    Field.year? (yearText year ++ '-' :: rest) = some (year, '-' :: rest) := by
  unfold yearText
  split
  · rename_i plain
    have full : (Field.padded 4 year.toNat).length = 4 :=
      Field.length_padded (by omega) (Nat.succ_pos 3)
    rw [Field.year?_digits (Field.digits_padded _ _) full, Field.digitsValue_padded,
      Int.toNat_of_nonneg plain.1]
  · have ended : ∀ c ∈ ('-' :: rest).head?, c.isDigit = false := by simp
    have signed := Field.year?_signed (Field.digits_padded 4 year.natAbs) ended
    rw [Field.digitsValue_padded] at signed
    split
    · rename_i negative
      rw [List.cons_append, signed.1]
      congr 2
      omega
    · rename_i positive
      rw [List.cons_append, signed.2]
      congr 2
      omega

theorem daysIn_le (year : Int) (month : Nat) : daysIn year month ≤ 31 := by
  unfold daysIn
  split
  case h_12 => split <;> omega
  all_goals omega

/-- **A date is read again** from its notation, whatever follows it. -/
theorem read?_text (date : Date) (rest : List Char) :
    read? (date.text ++ rest) = some (date, rest) := by
  obtain ⟨-, month_le⟩ := date.month_bounds
  have day_le := date.exists_day.2.2.2.trans (daysIn_le date.year date.month)
  have month := Field.number?_two (show date.month < 100 by omega)
  have day := Field.number?_two (show date.day < 100 by omega)
  have made : ofFields? date.year date.month date.day = some date := dif_pos date.exists_day
  rw [text, read?]
  simp only [List.append_assoc, List.cons_append, year?_yearText, Field.mark?_cons, month, day,
    made, Option.bind_eq_bind, Option.bind_some]
  rfl

/-- The notation of a date has digits, hyphens and a sign. -/
theorem mem_text {date : Date} {c : Char} (hc : c ∈ date.text) :
    c.isDigit ∨ c = '-' ∨ c = '+' := by
  simp only [text, yearText, List.mem_append, List.mem_cons] at hc
  rcases hc with (year | rfl | month) | rfl | day
  · split at year
    · exact .inl (Field.isDigit_of_mem_padded year)
    · rcases List.mem_cons.1 year with rfl | year
      · split <;> simp
      · exact .inl (Field.isDigit_of_mem_padded year)
  · exact .inr (.inl rfl)
  · exact .inl (Field.isDigit_of_mem_padded month)
  · exact .inr (.inl rfl)
  · exact .inl (Field.isDigit_of_mem_padded day)

end Date

/-! ## Times of day -/

namespace Clock

/-- The notation of a time has digits and colons. -/
theorem mem_text {clock : Clock} {c : Char} (hc : c ∈ clock.text) : c.isDigit ∨ c = ':' := by
  rw [text_eq] at hc
  simp only [List.mem_append, List.mem_cons] at hc
  rcases hc with hour | rfl | minute | rfl | second
  · exact .inl (Field.isDigit_of_mem_padded hour)
  · exact .inr rfl
  · exact .inl (Field.isDigit_of_mem_padded minute)
  · exact .inr rfl
  · exact .inl (Field.isDigit_of_mem_padded second)

/-- The notation of a fraction has digits and a point. -/
theorem mem_fractionText {clock : Clock} {c : Char} (hc : c ∈ clock.fractionText) :
    c.isDigit ∨ c = '.' := by
  have pointed {width n : Nat} (hc : c ∈ '.' :: Field.padded width n) : c.isDigit ∨ c = '.' := by
    rcases List.mem_cons.1 hc with rfl | digit
    · exact .inr rfl
    · exact .inl (Field.isDigit_of_mem_padded digit)
  unfold fractionText at hc
  simp only at hc
  split at hc
  · cases hc
  · split at hc
    · exact pointed hc
    · split at hc
      · exact pointed hc
      · exact pointed hc

/-- A time has two colons, so it is not taken for one without seconds. -/
theorem count_colon (clock : Clock) : (clock.text ++ clock.fractionText).count ':' = 2 := by
  have no_colon (n : Nat) : (Field.padded 2 n).count ':' = 0 := by
    rw [List.count_eq_zero]
    exact (Field.digits_padded 2 n).not_mem rfl
  have no_colon_after : clock.fractionText.count ':' = 0 := by
    rw [List.count_eq_zero]
    intro colon
    exact absurd (mem_fractionText colon) (by decide)
  rw [text_eq]
  simp [List.count_append, no_colon, no_colon_after]

end Clock

/-! ## Moments -/

namespace Moment

variable {moment : Moment}

theorem text_eq (moment : Moment) :
    moment.text = moment.date.text ++ 'T' :: (moment.clock.text ++ moment.clock.fractionText) := by
  rw [text, List.append_assoc]
  rfl

/-- **A moment is read again** from its notation, with a leap second, a signed year and all places
of the fraction. -/
theorem read?_text (shown : moment.clock.Shown) : read? moment.text = some moment := by
  have no_letter : 'T' ∉ moment.date.text := by
    intro letter
    exact absurd (Date.mem_text letter) (by decide)
  have cut : Text.cut? ['T'] moment.text =
      some (moment.date.text, moment.clock.text ++ moment.clock.fractionText) := by
    rw [text_eq, Text.cut?_append_of_not_mem no_letter]
    simp [Text.cut?]
  have seconds : ¬(moment.clock.text ++ moment.clock.fractionText).count ':' = 1 := by
    rw [Clock.count_colon]
    decide
  rw [read?, cut]
  simp only [if_neg seconds]
  rw [text_eq, readExact?]
  simp only [Date.read?_text, Field.mark?_cons, Clock.read?_text shown, Option.bind_eq_bind,
    Option.bind_some]
  rfl

/-- The clock of a moment that is read shows it. -/
theorem shown_of_read? {text : List Char} (h : read? text = some moment) : moment.clock.Shown := by
  have of_exact {allowFraction : Bool} {text : List Char}
      (h : readExact? allowFraction text = some moment) : moment.clock.Shown := by
    obtain ⟨⟨date, text⟩, -, h⟩ := Option.bind_eq_some_iff.1 h
    obtain ⟨text, -, h⟩ := Option.bind_eq_some_iff.1 h
    obtain ⟨⟨clock, text⟩, read, h⟩ := Option.bind_eq_some_iff.1 h
    simp only at h
    split at h
    · obtain rfl := Option.some.inj h
      exact Clock.shown_of_read? read
    · cases h
  unfold read? at h
  split at h
  · cases h
  · split at h
    · exact of_exact h
    · exact of_exact h

/-- A moment does not end in the letter of universal time. -/
theorem dropZulu_text (moment : Moment) : Temporal.dropZulu moment.text = moment.text := by
  refine if_neg fun last => ?_
  have letter := List.mem_of_getLast? last
  rw [text_eq] at letter
  simp only [List.mem_append, List.mem_cons] at letter
  rcases letter with date | letter | time | fraction
  · exact absurd (Date.mem_text date) (by decide)
  · exact absurd letter (by decide)
  · exact absurd (Clock.mem_text time) (by decide)
  · exact absurd (Clock.mem_fractionText fraction) (by decide)

end Moment

/-! ## Offsets -/

namespace OffsetMoment

/-- A text notes an offset of whole minutes. -/
theorem minutes_of_notes {text : List Char} {offset : Int} (notes : OffsetText text offset) :
    offset % 60 = 0 := by
  cases notes with
  | universal => rfl
  | ahead => omega
  | behind => omega

/-- An offset of whole minutes is noted in hours and minutes. -/
theorem notes_offsetText {offset : Int} (less : offset.natAbs < Moment.secondsPerDay)
    (minutes : offset % 60 = 0) : OffsetText (offsetText offset) offset := by
  unfold Moment.secondsPerDay at less
  have hours := Field.digitsValue_padded 2 (offset.natAbs / 3600)
  have rest := Field.digitsValue_padded 2 (offset.natAbs / 60 % 60)
  have hours_le : digitsValue (Field.padded 2 (offset.natAbs / 3600)) ≤ 23 := by omega
  have rest_le : digitsValue (Field.padded 2 (offset.natAbs / 60 % 60)) ≤ 59 := by omega
  have digits_hours := Field.digits_padded 2 (offset.natAbs / 3600)
  have digits_rest := Field.digits_padded 2 (offset.natAbs / 60 % 60)
  by_cases negative : offset < 0
  · have notes := OffsetText.behind digits_hours digits_rest hours_le rest_le
    rw [hours, rest] at notes
    have value : -(3600 * ((offset.natAbs / 3600 : Nat) : Int) +
        60 * ((offset.natAbs / 60 % 60 : Nat) : Int)) = offset := by omega
    rw [value] at notes
    rwa [offsetText, if_pos negative]
  · have notes := OffsetText.ahead digits_hours digits_rest hours_le rest_le
    rw [hours, rest] at notes
    have value : 3600 * ((offset.natAbs / 3600 : Nat) : Int) +
        60 * ((offset.natAbs / 60 % 60 : Nat) : Int) = offset := by omega
    rw [value] at notes
    rwa [offsetText, if_neg negative]

end OffsetMoment

/-! ## Texts of values -/

namespace Temporal

/-- A moment is read behind what may be a `Z`. -/
theorem readMoment_eq_ok {text : String} {moment : Moment} :
    readMoment text = .ok moment ↔ Moment.read? (dropZulu text.toList) = some moment := by
  unfold readMoment
  cases Moment.read? (dropZulu text.toList) with
  | none => exact ⟨nofun, nofun⟩
  | some read => rw [Except.ok.injEq, Option.some.injEq]

theorem readMoment_text {text : String} {moment : Moment} (h : readMoment text = .ok moment) :
    readMoment (String.ofList moment.text) = .ok moment := by
  have shown := Moment.shown_of_read? (readMoment_eq_ok.1 h)
  rw [readMoment_eq_ok, String.toList_ofList, Moment.dropZulu_text]
  exact Moment.read?_text shown

theorem readOffsetMoment_text {text : String} {value : OffsetMoment}
    (h : readOffsetMoment text = .ok value) :
    readOffsetMoment (String.ofList value.text) = .ok value := by
  obtain ⟨front, behind, -, reads, notes⟩ := readOffsetMoment_eq_ok.1 h
  refine readOffsetMoment_eq_ok.2 ⟨_, _, String.toList_ofList, ?_, ?_⟩
  · exact Moment.read?_text (Moment.shown_of_read? reads)
  · exact OffsetMoment.notes_offsetText value.offset_lt (OffsetMoment.minutes_of_notes notes)

/-- A time in whole seconds is read again from its notation, which is not taken for a duration. -/
theorem readClock_text (clock : Clock) :
    readClock (String.ofList clock.wholeSecond.text) = .ok clock.wholeSecond := by
  have shown : clock.wholeSecond.Shown := by
    intro leap
    exact absurd (Clock.isLeap_iff.1 leap) (Nat.not_le_of_gt (Nat.succ_pos _))
  have no_fraction : clock.wholeSecond.fractionText = [] := rfl
  have read := Clock.read?_text shown
  rw [no_fraction, List.append_nil] at read
  unfold readClock
  rw [String.toList_ofList]
  have by_clock : readClockTime? clock.wholeSecond.text = some clock.wholeSecond := by
    rw [readClockTime?, wholeClock?, read]
    rfl
  split
  · rename_i duration marked
    have letter : 'P' ∈ clock.wholeSecond.text := marked ▸ List.mem_cons_self
    exact absurd (Clock.mem_text letter) (by decide)
  · simp only [by_clock]

end Temporal

/-! ## Encoding again -/

section Again

variable {kind : Kind} {text : String} {native native' : Option NativeType} {v : Value}

theorem encode_dateTime_eq_ok : encode text .dateTime native = .ok (.value v) ↔
    ∃ moment, Temporal.readMoment text = .ok moment ∧ Value.timestamp moment = v := by
  have reads : Encoding.instantValue text .dateTime =
      ((Temporal.readMoment text).map Value.timestamp).mapError (.literal text .dateTime) := rfl
  show (Encoding.instantValue text .dateTime).map Encoded.value = _ ↔ _
  rw [map_value_eq_ok, reads, mapError_eq_ok, map_eq_ok]

theorem encode_dateTimeOffset_eq_ok : encode text .dateTimeOffset native = .ok (.value v) ↔
    ∃ moment, Temporal.readOffsetMoment text = .ok moment ∧
      Value.timestampWithOffset moment = v := by
  show (Encoding.instantValue text .dateTimeOffset).map Encoded.value = _ ↔ _
  rw [map_value_eq_ok, Encoding.instantValue, mapError_eq_ok, map_eq_ok]

/-- A time of day is bound in whole seconds. -/
theorem encode_time_eq_ok : encode text .time native = .ok (.value v) ↔
    ∃ clock, Temporal.readClock text = .ok clock ∧ Value.time clock.wholeSecond = v := by
  show (Encoding.timeValue text).map Encoded.value = _ ↔ _
  rw [map_value_eq_ok, Encoding.timeValue]
  cases Temporal.readClock text with
  | error e =>
    constructor
    · rintro ⟨⟩
    · rintro ⟨_, ⟨⟩, _⟩
  | ok clock => simp only [Except.ok.injEq, exists_eq_left']

/-- The text of a bound date or time is encoded as the same value. -/
theorem encode_text_again (temporal : kind ∈ [Kind.dateTime, .dateTimeOffset, .time])
    (encodes : encode text kind native = .ok (.value v)) :
    encode v.text kind native' = .ok (.value v) := by
  simp only [List.mem_cons, List.not_mem_nil, or_false] at temporal
  rcases temporal with rfl | rfl | rfl
  · obtain ⟨moment, read, rfl⟩ := encode_dateTime_eq_ok.1 encodes
    exact encode_dateTime_eq_ok.2 ⟨moment, Temporal.readMoment_text read, rfl⟩
  · obtain ⟨moment, read, rfl⟩ := encode_dateTimeOffset_eq_ok.1 encodes
    exact encode_dateTimeOffset_eq_ok.2 ⟨moment, Temporal.readOffsetMoment_text read, rfl⟩
  · obtain ⟨clock, -, rfl⟩ := encode_time_eq_ok.1 encodes
    exact encode_time_eq_ok.2 ⟨clock.wholeSecond, Temporal.readClock_text clock, rfl⟩

/-- **The text of a bound date or time is bound as the same value.** Whatever text of a moment, a
moment with an offset or a time of day is placed in a query, the notation of the value that was
bound for it is placed as well, whatever the marker, the native type asked for and the ledger, and
what is bound is the value itself: with the same offset, the same leap second, the same signed year
and the same fraction. -/
theorem encodeText_text_again (temporal : kind ∈ [Kind.dateTime, .dateTimeOffset, .time])
    {marker placed : String} {ledger after : Ledger}
    (h : (encodeText marker text kind native).over ledger = (.ok placed, after)) :
    ∃ v, after = ledger.bind v ∧
      ∀ (marker' : String) (native' : Option NativeType) (ledger' : Ledger),
        (encodeText marker' v.text kind native').over ledger' =
          (.ok (placeholder marker' ledger'.nextIndex), ledger'.bind v) := by
  have valued : kind.family ≠ .other := by
    simp only [List.mem_cons, List.not_mem_nil, or_false] at temporal
    rcases temporal with rfl | rfl | rfl <;> exact nofun
  obtain ⟨v, encodes, -, rfl⟩ := (over_encodeText_of_valued valued).1 h
  refine ⟨v, rfl, fun marker' native' ledger' => ?_⟩
  exact over_encodeText_eq_ok.2 ⟨.value v, encode_text_again temporal encodes, rfl, rfl⟩

/-- A leap second of a year before zero, with a quarter of a second, by universal time: the text of
the value has leading zeros and three places, and no letter at its end. -/
theorem encodeText_text_again_of_leap :
    ∃ moment : Moment,
      (encodeText "?" "-1-2-3T4:5:60.25Z" .dateTime none).over {} =
          (.ok "?1", ({} : Ledger).bind (.timestamp moment)) ∧
        (Value.timestamp moment).text = "-0001-02-03T04:05:60.250" ∧
        (encodeText ":p" "-0001-02-03T04:05:60.250" .dateTime none).over {} =
          (.ok ":p1", ({} : Ledger).bind (.timestamp moment)) := by
  let moment : Moment := ⟨⟨-1, 2, 3, by decide⟩, ⟨4, 5, 59, ⟨1250000000, by decide⟩⟩⟩
  have placed : (encodeText "?" "-1-2-3T4:5:60.25Z" .dateTime none).over {} =
      (.ok "?1", ({} : Ledger).bind (.timestamp moment)) := rfl
  have text_eq : (Value.timestamp moment).text = "-0001-02-03T04:05:60.250" := by
    decide +kernel
  obtain ⟨v, same, again⟩ := encodeText_text_again (by decide) placed
  obtain rfl := Ledger.bind_inj.1 same
  have again := again ":p" none ({} : Ledger)
  rw [text_eq] at again
  exact ⟨moment, placed, text_eq, again⟩

end Again

end EntityQuery
