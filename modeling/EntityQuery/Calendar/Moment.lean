import EntityQuery.Calendar.Clock
import EntityQuery.Calendar.Date
import EntityQuery.Text.Search

/-!
# Moments

A date and a time of day, by a local clock or with the offset of that clock from universal time. A
moment with an offset also lies within the calendar by universal time.

## Main definitions

* `Moment`: a date and a time of day
* `OffsetMoment`: a moment by a clock that is some seconds ahead of universal time
* `Moment.read?`, `Moment.text`, `OffsetMoment.text`: `2020-01-31T10:30:00.500+01:00`
-/

namespace EntityQuery

/-- A date and a time of day. -/
structure Moment where
  date : Date
  clock : Clock
  deriving DecidableEq, Repr

namespace Moment

/-- Reads a date, the letter `T` and a time that reaches to the end of the text. -/
def readExact? (allowFraction : Bool) (text : List Char) : Option Moment := do
  let (date, text) ← Date.read? text
  let text ← Field.mark? 'T' text
  let (clock, text) ← Clock.read? allowFraction text
  if text.isEmpty then return ⟨date, clock⟩ else none

/-- Reads a moment whose seconds may be missing, and a fraction with them. -/
def read? (text : List Char) : Option Moment :=
  match Text.cut? ['T'] text with
  | none => none
  | some (_, time) =>
    if time.count ':' = 1 then readExact? false (text ++ [':', '0', '0'])
    else readExact? true text

/-- The notation of a moment. -/
def text (moment : Moment) : List Char :=
  moment.date.text ++ 'T' :: moment.clock.text ++ moment.clock.fractionText

/-- The seconds of a day. -/
def secondsPerDay : Nat := 86400

/-- Whether a moment by a clock ahead of universal time by `offset` seconds, less than a day, lies
within the calendar by universal time. -/
def InCalendar (moment : Moment) (offset : Int) : Prop :=
  (moment.date.isFirst → offset ≤ moment.clock.seconds) ∧
    (moment.date.isLast → (moment.clock.seconds : Int) - offset < secondsPerDay)

instance (moment : Moment) (offset : Int) : Decidable (moment.InCalendar offset) :=
  inferInstanceAs (Decidable (_ ∧ _))

end Moment

/-- A moment by a clock that is `offset` seconds ahead of universal time. -/
structure OffsetMoment where
  /-- What the clock shows. -/
  moment : Moment
  /-- How far the clock is ahead, in seconds. -/
  offset : Int
  offset_lt : offset.natAbs < Moment.secondsPerDay
  inCalendar : moment.InCalendar offset
  deriving DecidableEq, Repr

namespace OffsetMoment

/-- A moment with an offset of less than a day, within the calendar by universal time. -/
def ofParts? (moment : Moment) (offset : Int) : Option OffsetMoment :=
  if h : offset.natAbs < Moment.secondsPerDay ∧ moment.InCalendar offset then
    some ⟨moment, offset, h.1, h.2⟩
  else none

/-- The notation of an offset in hours and minutes. -/
def offsetText (offset : Int) : List Char :=
  (if offset < 0 then '-' else '+') :: Field.padded 2 (offset.natAbs / 3600) ++ ':' ::
    Field.padded 2 (offset.natAbs / 60 % 60)

/-- The notation of a moment with its offset. -/
def text (m : OffsetMoment) : List Char := m.moment.text ++ offsetText m.offset

end OffsetMoment

end EntityQuery
