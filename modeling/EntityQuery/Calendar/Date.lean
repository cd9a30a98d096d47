import EntityQuery.Calendar.Field

/-!
# Dates

Days of the Gregorian calendar, extended backwards with a year zero, within the years that a moment
may have.

## Main definitions

* `Date`: year, month and day that exist
* `Date.read?`, `Date.text`: `2020-01-31`, the year signed where it does not fit four digits
-/

namespace EntityQuery

namespace Date

/-- The least year. -/
def firstYear : Int := -262143

/-- The greatest year. -/
def lastYear : Int := 262142

/-- Whether a year has a leap day. -/
def isLeap (year : Int) : Bool := year % 4 == 0 && (year % 100 != 0 || year % 400 == 0)

/-- The number of days of a month, zero where there is no such month. -/
def daysIn (year : Int) (month : Nat) : Nat :=
  match month with
  | 1 | 3 | 5 | 7 | 8 | 10 | 12 => 31
  | 4 | 6 | 9 | 11 => 30
  | 2 => if isLeap year then 29 else 28
  | _ => 0

/-- Whether a year, a month and a day name a day. -/
def Exists (year : Int) (month day : Nat) : Prop :=
  firstYear ≤ year ∧ year ≤ lastYear ∧ 1 ≤ day ∧ day ≤ daysIn year month

instance (year : Int) (month day : Nat) : Decidable (Exists year month day) :=
  inferInstanceAs (Decidable (_ ∧ _))

end Date

/-- A day of the calendar. -/
structure Date where
  year : Int
  month : Nat
  day : Nat
  exists_day : Date.Exists year month day
  deriving DecidableEq, Repr

namespace Date

/-- The day named by a year, a month and a day. -/
def ofFields? (year : Int) (month day : Nat) : Option Date :=
  if h : Exists year month day then some ⟨year, month, day, h⟩ else none

/-- Reads a date at the start of a text. -/
def read? (text : List Char) : Option (Date × List Char) := do
  let (year, text) ← Field.year? text
  let text ← Field.mark? '-' text
  let (month, text) ← Field.number? 2 text
  let text ← Field.mark? '-' text
  let (day, text) ← Field.number? 2 text
  let date ← ofFields? year month day
  return (date, text)

/-- The notation of a year: four digits, or a sign and at least four. -/
def yearText (year : Int) : List Char :=
  if 0 ≤ year ∧ year ≤ 9999 then Field.padded 4 year.toNat
  else (if year < 0 then '-' else '+') :: Field.padded 4 year.natAbs

/-- The notation of a date. -/
def text (date : Date) : List Char :=
  yearText date.year ++ '-' :: Field.padded 2 date.month ++ '-' :: Field.padded 2 date.day

/-- Whether a date is the first of the calendar. -/
def isFirst (date : Date) : Bool := date.year == firstYear && date.month == 1 && date.day == 1

/-- Whether a date is the last of the calendar. -/
def isLast (date : Date) : Bool := date.year == lastYear && date.month == 12 && date.day == 31

end Date

end EntityQuery
