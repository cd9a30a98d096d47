import EntityQuery.Calendar.Field

/-!
# Times of day

A time of day down to the nanosecond. A leap second is the second 59 with a thousand million
nanoseconds or more, and it is written as the second 60.

## Main definitions

* `Clock`: hour, minute, second and nanosecond
* `Clock.read?`, `Clock.readMinutes?`: `10:30:00`, `10:30`
* `Clock.text`, `Clock.fractionText`: the notation and the fraction after it
* `Clock.ofSeconds?`: the time a number of seconds after midnight
-/

namespace EntityQuery

/-- A time of day. -/
structure Clock where
  hour : Fin 24
  minute : Fin 60
  second : Fin 60
  /-- The nanoseconds of the second, two thousand million in a second followed by a leap second. -/
  nanosecond : Fin 2000000000
  deriving DecidableEq, Repr

namespace Clock

/-- The nanoseconds of a second. -/
def perSecond : Nat := 1000000000

/-- The time of day of an hour, a minute, a second up to 60, and nanoseconds. -/
def ofFields? (hour minute second nanosecond : Nat) : Option Clock :=
  if h : hour < 24 ∧ minute < 60 ∧ second ≤ 60 ∧ nanosecond < perSecond then
    if hs : second < 60 then
      some ⟨⟨hour, h.1⟩, ⟨minute, h.2.1⟩, ⟨second, hs⟩, ⟨nanosecond, by
        have := h.2.2.2; unfold perSecond at this; omega⟩⟩
    else
      some ⟨⟨hour, h.1⟩, ⟨minute, h.2.1⟩, 59, ⟨perSecond + nanosecond, by
        have := h.2.2.2; unfold perSecond at *; omega⟩⟩
  else none

/-- Reads hour, minute and second at the start of a text, and a fraction where one is allowed. -/
def read? (allowFraction : Bool) (text : List Char) : Option (Clock × List Char) := do
  let (hour, text) ← Field.number? 2 text
  let text ← Field.mark? ':' text
  let (minute, text) ← Field.number? 2 text
  let text ← Field.mark? ':' text
  let (second, text) ← Field.number? 2 text
  let (nanosecond, text) ← if allowFraction then Field.fraction? text else some (0, text)
  let clock ← ofFields? hour minute second nanosecond
  return (clock, text)

/-- Reads hour and minute at the start of a text. -/
def readMinutes? (text : List Char) : Option (Clock × List Char) := do
  let (hour, text) ← Field.number? 2 text
  let text ← Field.mark? ':' text
  let (minute, text) ← Field.number? 2 text
  let clock ← ofFields? hour minute 0 0
  return (clock, text)

/-- The time a number of seconds and nanoseconds after midnight. -/
def ofSeconds? (seconds nanosecond : Nat) : Option Clock :=
  ofFields? (seconds / 3600) (seconds / 60 % 60) (seconds % 60) nanosecond

/-- The whole seconds since midnight. -/
def seconds (clock : Clock) : Nat := 3600 * clock.hour + 60 * clock.minute + clock.second

/-- The time of day at the start of its second; the second before a leap second for that one. -/
def wholeSecond (clock : Clock) : Clock := { clock with nanosecond := 0 }

/-- Whether a time lies in a leap second. -/
def isLeap (clock : Clock) : Bool := perSecond ≤ clock.nanosecond.val

/-- The notation of a time without its fraction. -/
def text (clock : Clock) : List Char :=
  Field.padded 2 clock.hour ++ ':' :: Field.padded 2 clock.minute ++ ':' ::
    Field.padded 2 (if clock.isLeap then clock.second + 1 else clock.second)

/-- The fraction of the second: nothing, or a point and three, six or nine digits, the fewest that
are exact. -/
def fractionText (clock : Clock) : List Char :=
  let fraction := clock.nanosecond % perSecond
  if fraction = 0 then []
  else if fraction % 1000000 = 0 then '.' :: Field.padded 3 (fraction / 1000000)
  else if fraction % 1000 = 0 then '.' :: Field.padded 6 (fraction / 1000)
  else '.' :: Field.padded 9 fraction

end Clock

end EntityQuery
