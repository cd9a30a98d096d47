import EntityQuery.Literal.Temporal
import EntityQuery.Proofs.Fields
import EntityQuery.Proofs.Instants

/-!
# Texts of moments with an offset

A moment with an offset is cut at the last sign of its time of day. The date in front of it may have
signs as well, and a count of hours would be read with a sign of its own; but no sign is left behind
the last one, so that hours and minutes are digits alone, whatever the text. What stands in front of
the cut is then read as a moment by the local clock.

## Main definitions

* `OffsetText`: a text that notes an offset

## Main results

* `Temporal.cutOffset?_append`, `Temporal.eq_of_cutOffset?`: where a text is cut
* `Temporal.readOffset?_eq_some`: which offsets are read behind the cut
* `readOffsetMoment_iff`: which texts are read as moments with an offset
-/

namespace EntityQuery

/-! ## Offsets -/

/-- A text that notes an offset in seconds: a `Z`, or a sign, the digits of the hours, a colon and
the digits of the minutes, however many zeros stand in front of either. -/
inductive OffsetText : List Char → Int → Prop
  | universal : OffsetText ['Z'] 0
  | ahead {hours minutes : List Char} (digits_hours : Digits hours)
      (digits_minutes : Digits minutes) (hours_le : digitsValue hours ≤ 23)
      (minutes_le : digitsValue minutes ≤ 59) :
      OffsetText ('+' :: (hours ++ ':' :: minutes))
        (3600 * digitsValue hours + 60 * digitsValue minutes)
  | behind {hours minutes : List Char} (digits_hours : Digits hours)
      (digits_minutes : Digits minutes) (hours_le : digitsValue hours ≤ 23)
      (minutes_le : digitsValue minutes ≤ 59) :
      OffsetText ('-' :: (hours ++ ':' :: minutes))
        (-(3600 * digitsValue hours + 60 * digitsValue minutes))

/-- A clock is less than a day ahead or behind. -/
theorem OffsetText.lt_day {text : List Char} {offset : Int} (notes : OffsetText text offset) :
    offset.natAbs < Moment.secondsPerDay := by
  unfold Moment.secondsPerDay
  cases notes with
  | universal => exact Nat.succ_pos _
  | ahead => omega
  | behind => omega

namespace Temporal

theorem isSign_iff {c : Char} : isSign c ↔ c = '+' ∨ c = '-' := by
  simp [isSign]

theorem isSign_of_isDigit {c : Char} (digit : c.isDigit) : isSign c = false := by
  by_contra sign
  rcases isSign_iff.1 (Bool.not_eq_false _ ▸ sign) with rfl | rfl
  · cases digit
  · cases digit

/-- **No sign, no negative count.** What is read from a text without signs has digits alone. -/
theorem digits_of_read {width : Nat} {text : List Char} {n : Signed width}
    (free : ∀ c ∈ text, isSign c = false) (h : Signed.read text = .ok n) :
    Digits text ∧ (digitsValue text : Int) = n.val := by
  generalize value : n.val = z at *
  have noted : IntegerText text z := value ▸ IntegerText.of_read h
  cases noted with
  | unsigned nonempty all => exact ⟨⟨nonempty, all⟩, rfl⟩
  | plus => cases free '+' List.mem_cons_self
  | minus => cases free '-' List.mem_cons_self

/-- Digits are counted up to a limit, however many they are. -/
theorem readCount?_eq_some {most count : Int} {text : List Char}
    (free : ∀ c ∈ text, isSign c = false) (fits : most < bound 32) :
    readCount? most text = some count ↔
      Digits text ∧ digitsValue text ≤ most ∧ digitsValue text = count := by
  unfold readCount?
  constructor
  · intro h
    split at h
    · rename_i n read
      obtain ⟨digits, value⟩ := digits_of_read free read
      split at h
      · rename_i le
        obtain rfl := Option.some.inj h
        exact ⟨digits, value ▸ le, value⟩
      · cases h
    · cases h
  · rintro ⟨digits, le, rfl⟩
    have noted : IntegerText text (digitsValue text) := .unsigned digits.nonempty digits.all
    have positive := bound_pos 32
    have read : Signed.read text = .ok (⟨digitsValue text, by omega, by omega⟩ : Signed 32) :=
      noted.read_eq _ _
    rw [read]
    exact if_pos le

/-! ## Cutting -/

/-- Cutting loses nothing, and behind the first character of an offset stands no sign. -/
theorem eq_of_cutOffset? {text front behind : List Char}
    (h : cutOffset? text = some (front, behind)) :
    text = front ++ behind ∧ ∀ c ∈ behind.tail, isSign c = false := by
  unfold cutOffset? at h
  split at h
  · rename_i last
    obtain ⟨rfl, rfl⟩ := Prod.mk.inj (Option.some.inj h)
    obtain ⟨front, rfl⟩ := List.getLast?_eq_some_iff.1 last
    exact ⟨by rw [List.dropLast_concat], fun c hc => nomatch hc⟩
  · split at h
    · cases h
    · rename_i date time cut
      obtain ⟨⟨clock, behind⟩, cut_last, same⟩ := Option.map_eq_some_iff.1 h
      obtain ⟨rfl, rfl⟩ := Prod.mk.inj same
      obtain ⟨rfl, sign, rest, rfl, -, free⟩ := Text.eq_of_cutLast? cut_last
      refine ⟨?_, free⟩
      rw [Text.eq_of_cut? cut]
      simp

/-- A moment by the local clock has the letter that its time of day follows. -/
theorem exists_cut?_of_read? {text : List Char} {moment : Moment}
    (h : Moment.read? text = some moment) :
    ∃ date time, Text.cut? ['T'] text = some (date, time) := by
  unfold Moment.read? at h
  split at h
  · cases h
  · rename_i date time cut
    exact ⟨date, time, cut⟩

/-- Behind its sign an offset has digits and a colon. -/
theorem mem_of_notes {text : List Char} {offset : Int} (notes : OffsetText text offset) :
    text = ['Z'] ∨ ∃ sign rest, text = sign :: rest ∧ isSign sign ∧ rest ≠ [] ∧
      ∀ c ∈ rest, c.isDigit ∨ c = ':' := by
  have characters {hours minutes : List Char} (digits_hours : Digits hours)
      (digits_minutes : Digits minutes) : ∀ c ∈ hours ++ ':' :: minutes, c.isDigit ∨ c = ':' := by
    intro c hc
    rcases List.mem_append.1 hc with hour | later
    · exact .inl (digits_hours.all c hour)
    · rcases List.mem_cons.1 later with colon | minute
      · exact .inr colon
      · exact .inl (digits_minutes.all c minute)
  cases notes with
  | universal => exact .inl rfl
  | ahead digits_hours digits_minutes =>
    exact .inr ⟨'+', _, rfl, rfl, by simp, characters digits_hours digits_minutes⟩
  | behind digits_hours digits_minutes =>
    exact .inr ⟨'-', _, rfl, rfl, by simp, characters digits_hours digits_minutes⟩

/-- A text that notes an offset is cut off behind a moment by the local clock: signs of the date do
not count, as they stand in front of the letter. -/
theorem cutOffset?_append {front text : List Char} {moment : Moment} {offset : Int}
    (reads : Moment.read? front = some moment) (notes : OffsetText text offset) :
    cutOffset? (front ++ text) = some (front, text) := by
  obtain ⟨date, time, cut⟩ := exists_cut?_of_read? reads
  unfold cutOffset?
  rcases mem_of_notes notes with rfl | ⟨sign, rest, rfl, is_sign, nonempty, characters⟩
  · rw [List.getLast?_concat, if_pos rfl, List.dropLast_concat]
  · have free : ∀ c ∈ rest, isSign c = false := by
      intro c hc
      rcases characters c hc with digit | rfl
      · exact isSign_of_isDigit digit
      · rfl
    have last : (front ++ sign :: rest).getLast? ≠ some 'Z' := by
      intro same
      have split : front ++ sign :: rest = (front ++ [sign]) ++ rest := by simp
      rw [split, List.getLast?_append, List.getLast?_eq_some_getLast nonempty,
        Option.some_or, Option.some.injEq] at same
      rcases characters _ (List.getLast_mem nonempty) with digit | colon
      · rw [same] at digit
        exact absurd digit (by decide)
      · rw [same] at colon
        exact absurd colon (by decide)
    rw [if_neg last, Text.cut?_append_of_some cut]
    simp only [Text.cutLast?_append is_sign free, Option.map_some]
    rw [Text.eq_of_cut? cut]
    simp

/-! ## Reading -/

/-- The digits of hours and minutes stand on both sides of the first colon. -/
theorem cut?_colon {hours : List Char} (digits : Digits hours) (minutes : List Char) :
    Text.cut? [':'] (hours ++ ':' :: minutes) = some (hours, minutes) := by
  have no_colon : ':' ∉ hours := digits.not_mem rfl
  rw [Text.cut?_append_of_not_mem no_colon]
  simp [Text.cut?]

theorem hours_fit : (23 : Int) < bound 32 := by decide

theorem minutes_fit : (59 : Int) < bound 32 := by decide

/-- Counts of hours and minutes that are read behind the cut are those of their digits. -/
theorem counts_of_cut? {rest hours minutes : List Char} {h m : Int}
    (free : ∀ c ∈ rest, isSign c = false) (cut : Text.cut? [':'] rest = some (hours, minutes))
    (read_hours : readCount? 23 hours = some h) (read_minutes : readCount? 59 minutes = some m) :
    rest = hours ++ ':' :: minutes ∧
      (Digits hours ∧ digitsValue hours ≤ 23 ∧ (digitsValue hours : Int) = h) ∧
      (Digits minutes ∧ digitsValue minutes ≤ 59 ∧ (digitsValue minutes : Int) = m) := by
  have written : rest = hours ++ ':' :: minutes := by
    rw [Text.eq_of_cut? cut, List.append_assoc]
    rfl
  have free_hours : ∀ c ∈ hours, isSign c = false :=
    fun c hc => free c (written ▸ List.mem_append_left _ hc)
  have free_minutes : ∀ c ∈ minutes, isSign c = false :=
    fun c hc => free c (written ▸ List.mem_append_right _ (List.mem_cons_of_mem _ hc))
  obtain ⟨digits_hours, hours_le, hours_eq⟩ :=
    (readCount?_eq_some free_hours hours_fit).1 read_hours
  obtain ⟨digits_minutes, minutes_le, minutes_eq⟩ :=
    (readCount?_eq_some free_minutes minutes_fit).1 read_minutes
  exact ⟨written, ⟨digits_hours, by omega, hours_eq⟩, ⟨digits_minutes, by omega, minutes_eq⟩⟩

/-- Digits on both sides of a colon are read as hours and minutes. -/
theorem readOffset?_signed {sign : Char} {hours minutes : List Char} (is_sign : isSign sign)
    (digits_hours : Digits hours) (digits_minutes : Digits minutes)
    (hours_le : digitsValue hours ≤ 23) (minutes_le : digitsValue minutes ≤ 59) :
    readOffset? (sign :: (hours ++ ':' :: minutes)) =
      some (if sign = '-' then -(digitsValue hours * 3600 + digitsValue minutes * 60 : Int)
        else digitsValue hours * 3600 + digitsValue minutes * 60) := by
  have free {digits : List Char} (number : Digits digits) : ∀ c ∈ digits, isSign c = false :=
    fun c hc => isSign_of_isDigit (number.all c hc)
  have read_hours := (readCount?_eq_some (free digits_hours) hours_fit).2
    ⟨digits_hours, by omega, rfl⟩
  have read_minutes := (readCount?_eq_some (free digits_minutes) minutes_fit).2
    ⟨digits_minutes, by omega, rfl⟩
  unfold readOffset?
  split
  · rename_i alone
    simp at alone
  · rename_i sign' rest same
    obtain ⟨rfl, rfl⟩ := List.cons.inj same
    rw [if_pos is_sign, cut?_colon digits_hours]
    simp only [read_hours, read_minutes, Option.bind_eq_bind, Option.bind_some]
    rfl
  · rename_i none
    simp at none

/-- **Offsets are read behind the cut**, where no second sign stands, and nothing else is. -/
theorem readOffset?_eq_some {text : List Char} {offset : Int}
    (free : ∀ c ∈ text.tail, isSign c = false) :
    readOffset? text = some offset ↔ OffsetText text offset := by
  constructor
  · intro h
    unfold readOffset? at h
    split at h
    · obtain rfl := Option.some.inj h
      exact .universal
    · rename_i sign rest _
      split at h
      · rename_i is_sign
        split at h
        · cases h
        · rename_i hours minutes cut
          obtain ⟨h_count, read_hours, h⟩ := Option.bind_eq_some_iff.1 h
          obtain ⟨m_count, read_minutes, h⟩ := Option.bind_eq_some_iff.1 h
          obtain ⟨rfl, ⟨digits_hours, hours_le, rfl⟩, digits_minutes, minutes_le, rfl⟩ :=
            counts_of_cut? free cut read_hours read_minutes
          obtain rfl := Option.some.inj h
          rcases isSign_iff.1 is_sign with rfl | rfl
          · rw [if_neg (by decide), Int.mul_comm, Int.mul_comm (digitsValue minutes)]
            exact .ahead digits_hours digits_minutes hours_le minutes_le
          · rw [if_pos rfl, Int.mul_comm, Int.mul_comm (digitsValue minutes)]
            exact .behind digits_hours digits_minutes hours_le minutes_le
      · cases h
    · cases h
  · intro notes
    cases notes with
    | universal => rfl
    | ahead digits_hours digits_minutes hours_le minutes_le =>
      rw [readOffset?_signed rfl digits_hours digits_minutes hours_le minutes_le,
        if_neg (by decide), Int.mul_comm, Int.mul_comm (digitsValue _)]
    | behind digits_hours digits_minutes hours_le minutes_le =>
      rw [readOffset?_signed rfl digits_hours digits_minutes hours_le minutes_le, if_pos rfl,
        Int.mul_comm, Int.mul_comm (digitsValue _)]

/-- Parts that make a moment with an offset are the parts of it: the moment itself is less than a
day off and in the calendar. -/
theorem ofParts?_eq_some {moment : Moment} {offset : Int} {value : OffsetMoment} :
    OffsetMoment.ofParts? moment offset = some value ↔
      value.moment = moment ∧ value.offset = offset := by
  unfold OffsetMoment.ofParts?
  constructor
  · intro h
    split at h
    · obtain rfl := Option.some.inj h
      exact ⟨rfl, rfl⟩
    · cases h
  · rintro ⟨rfl, rfl⟩
    exact dif_pos ⟨value.offset_lt, value.inCalendar⟩

/-- **What is read is a moment by the local clock with an offset behind it.** -/
theorem readOffsetMoment_eq_ok {text : String} {value : OffsetMoment} :
    readOffsetMoment text = .ok value ↔
      ∃ front behind, text.toList = front ++ behind ∧
        Moment.read? front = some value.moment ∧ OffsetText behind value.offset := by
  unfold readOffsetMoment
  constructor
  · intro h
    simp only at h
    split at h
    · cases h
    · rename_i front behind cut
      obtain ⟨written, free⟩ := eq_of_cutOffset? cut
      split at h
      · cases h
      · cases h
      · rename_i moment offset reads read_offset
        split at h
        · rename_i value' parts
          obtain rfl := Except.ok.inj h
          obtain ⟨rfl, rfl⟩ := ofParts?_eq_some.1 parts
          exact ⟨front, behind, written, reads, (readOffset?_eq_some free).1 read_offset⟩
        · cases h
  · rintro ⟨front, behind, written, reads, notes⟩
    have cut := cutOffset?_append reads notes
    have read_offset := (readOffset?_eq_some (eq_of_cutOffset? cut).2).2 notes
    rw [written, cut]
    simp only [reads, read_offset, ofParts?_eq_some.2 ⟨rfl, rfl⟩]

end Temporal

/-- **A text is read as a moment with an offset if it is one in front of the other.** In front
stands a moment by the local clock and behind it an offset, and the instant that the two come to
lies in the calendar; what is read has that moment and that offset. Counts of hours and minutes that
are multiplied out are never negative, and come to less than a day, so that they fit a word with
either sign. -/
theorem readOffsetMoment_iff (text : String) :
    (∀ moment offset,
        (∃ value, Temporal.readOffsetMoment text = .ok value ∧
            value.moment = moment ∧ value.offset = offset) ↔
          CalendarHolds (moment.instant offset) ∧
            ∃ front behind, text.toList = front ++ behind ∧
              Moment.read? front = some moment ∧ OffsetText behind offset) ∧
      ∀ {front rest hours minutes : List Char} {sign : Char} {h m : Int},
        Temporal.cutOffset? text.toList = some (front, sign :: rest) →
        Text.cut? [':'] rest = some (hours, minutes) →
        Temporal.readCount? 23 hours = some h → Temporal.readCount? 59 minutes = some m →
        0 ≤ h ∧ 0 ≤ m ∧ h * 3600 + m * 60 < Moment.secondsPerDay := by
  constructor
  · intro moment offset
    constructor
    · rintro ⟨value, read, rfl, rfl⟩
      exact ⟨(Moment.inCalendar_iff value.offset_lt).1 value.inCalendar,
        Temporal.readOffsetMoment_eq_ok.1 read⟩
    · rintro ⟨holds, front, behind, written, reads, notes⟩
      have less := notes.lt_day
      have in_calendar := (Moment.inCalendar_iff less).2 holds
      exact ⟨⟨moment, offset, less, in_calendar⟩,
        Temporal.readOffsetMoment_eq_ok.2 ⟨front, behind, written, reads, notes⟩, rfl, rfl⟩
  · intro front rest hours minutes sign h m cut cut_colon read_hours read_minutes
    obtain ⟨-, free⟩ := Temporal.eq_of_cutOffset? cut
    obtain ⟨-, ⟨-, hours_le, rfl⟩, -, minutes_le, rfl⟩ :=
      Temporal.counts_of_cut? free cut_colon read_hours read_minutes
    unfold Moment.secondsPerDay
    omega

/-- A leap second of a year with five digits, half an hour behind universal time: the first sign and
the hyphens of the date are passed over. An offset with a second sign leaves a count without a
sign. -/
theorem readOffsetMoment_iff_of_signs :
    (∃ value, Temporal.readOffsetMoment "+10000-12-31T23:59:60.5-000:0030" = .ok value ∧
        value.moment =
          ⟨⟨10000, 12, 31, by decide⟩, ⟨23, 59, 59, ⟨1500000000, by decide⟩⟩⟩ ∧
        value.offset = -1800) ∧
      (0 : Int) ≤ 5 ∧ (0 : Int) ≤ 30 ∧ (5 : Int) * 3600 + 30 * 60 < Moment.secondsPerDay := by
  have hours : Digits "000".toList := ⟨List.cons_ne_nil _ _, List.all_eq_true.1 rfl⟩
  have minutes : Digits "0030".toList := ⟨List.cons_ne_nil _ _, List.all_eq_true.1 rfl⟩
  have notes : OffsetText "-000:0030".toList (-1800) :=
    OffsetText.behind hours minutes (by decide) (by decide)
  refine ⟨((readOffsetMoment_iff "+10000-12-31T23:59:60.5-000:0030").1 _ _).2
    ⟨⟨by decide, by decide⟩, "+10000-12-31T23:59:60.5".toList, _, rfl, rfl, notes⟩, ?_⟩
  have cut : Temporal.cutOffset? "2020-01-01T10:00+-05:30".toList =
      some ("2020-01-01T10:00+".toList, '-' :: "05:30".toList) := rfl
  have cut_colon : Text.cut? [':'] "05:30".toList = some ("05".toList, "30".toList) := rfl
  exact (readOffsetMoment_iff "2020-01-01T10:00+-05:30").2 cut cut_colon rfl rfl

end EntityQuery
