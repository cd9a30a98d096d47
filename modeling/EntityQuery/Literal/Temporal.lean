import EntityQuery.Calendar.Duration
import EntityQuery.Calendar.Moment
import EntityQuery.Literal.Fault

/-!
# Dates and times in literals

The plain texts of the temporal kinds: a moment with an optional `Z` after it, a moment with an
offset, and a time of day as a duration or by the clock.

## Main definitions

* `Temporal.readMoment`, `Temporal.readOffsetMoment`, `Temporal.readClock`
-/

namespace EntityQuery.Temporal

/-- A text without a `Z` at its end. -/
def dropZulu (text : List Char) : List Char :=
  if text.getLast? = some 'Z' then text.dropLast else text

/-- Reads a moment, which a `Z` may follow. -/
def readMoment (text : String) : Except LiteralError Moment :=
  match Moment.read? (dropZulu text.toList) with
  | some moment => .ok moment
  | none => .error (.invalid text .dateTime .momentShape)

/-! ## Offsets -/

/-- Whether a character is a sign. -/
def isSign (c : Char) : Bool := c == '+' || c == '-'

/-- A text cut in front of its offset: a `Z` at its end, or what follows the last sign of its time
of day. -/
def cutOffset? (text : List Char) : Option (List Char × List Char) :=
  if text.getLast? = some 'Z' then some (text.dropLast, ['Z'])
  else
    match Text.cut? ['T'] text with
    | none => none
    | some (date, time) =>
      (Text.cutLast? isSign time).map fun (clock, offset) => (date ++ 'T' :: clock, offset)

/-- Reads a count of hours or minutes that is not above `most`. -/
def readCount? (most : Int) (text : List Char) : Option Int :=
  match (Signed.read text : Except IntegerFault (Signed 32)) with
  | .ok n => if n.val ≤ most then some n.val else none
  | .error _ => none

/-- Reads an offset in seconds: `Z`, or a sign, hours and minutes. -/
def readOffset? : List Char → Option Int
  | ['Z'] => some 0
  | sign :: rest =>
    if isSign sign then
      match Text.cut? [':'] rest with
      | none => none
      | some (hours, minutes) => do
        let hours ← readCount? 23 hours
        let minutes ← readCount? 59 minutes
        let seconds := hours * 3600 + minutes * 60
        return if sign = '-' then -seconds else seconds
    else none
  | [] => none

/-- Reads a moment with an offset. -/
def readOffsetMoment (text : String) : Except LiteralError OffsetMoment :=
  let invalid := fun fault => Except.error (.invalid text .dateTimeOffset fault)
  match cutOffset? text.toList with
  | none => invalid .offsetMissing
  | some (localText, offsetText) =>
    match Moment.read? localText, readOffset? offsetText with
    | none, _ => invalid .momentShape
    | some _, none => invalid .offsetInvalid
    | some moment, some offset =>
      match OffsetMoment.ofParts? moment offset with
      | some value => .ok value
      | none => invalid .momentRange

/-! ## Times of day -/

/-- Reads a time of day that reaches to the end of the text. -/
def wholeClock? (read? : List Char → Option (Clock × List Char)) (text : List Char) :
    Option Clock :=
  match read? text with
  | some (clock, []) => some clock
  | _ => none

/-- Reads a time of day by the clock, with or without seconds. -/
def readClockTime? (text : List Char) : Option Clock :=
  (wholeClock? (Clock.read? true) text).or (wholeClock? Clock.readMinutes? text)

/-- Reads a time of day: what starts as a duration is one, all else is a time by the clock. -/
def readClock (text : String) : Except LiteralError Clock :=
  let read := match text.toList with
    | 'P' :: 'T' :: duration => Duration.readClock? duration
    | chars => readClockTime? chars
  match read with
  | some clock => .ok clock
  | none => .error (.invalid text .time .clockShape)

end EntityQuery.Temporal
