import EntityQuery.Calendar.Clock
import EntityQuery.Text.Search

/-!
# Durations

Durations of hours, minutes and seconds, such as `PT10H30M`, read as the time of day that they end
at when they start at midnight. Counts of seconds are words of 32 bits, and whatever does not fit is
refused.

## Main definitions

* `Duration.readClock?`: the time of day of a duration
-/

namespace EntityQuery.Duration

/-- A unit of a duration: its rank and its seconds. -/
def unit? : Char → Option (Nat × Nat)
  | 'H' => some (1, 3600)
  | 'M' => some (2, 60)
  | 'S' => some (3, 1)
  | _ => none

/-- A count that fits 32 bits. -/
def word? (n : Nat) : Option Nat := if n < Nat.pow 2 32 then some n else none

/-- Reads a count of digits, all of them. -/
def count? (digits : List Char) : Option Nat :=
  if digits.isEmpty || !digits.all Char.isDigit then none else word? (digitsValue digits)

/-- Reads the fraction of a second: one digit at least and nine at most. -/
def fraction? (digits : List Char) : Option Nat :=
  if digits.length > Field.nanosecondDigits then none
  else (count? digits).map fun _ => Field.nanoseconds digits

/-- The seconds and the nanoseconds of a number before its unit. Only seconds have a fraction. -/
def amount? (unit : Char) (factor : Nat) (number : List Char) : Option (Nat × Option Nat) := do
  let (whole, fraction) ← match Text.cut? ['.'] number with
    | some (whole, fraction) => if unit = 'S' then some (whole, some fraction) else none
    | none => some (number, none)
  let seconds ← word? ((← count? whole) * factor)
  match fraction with
  | some digits => return (seconds, some (← fraction? digits))
  | none => return (seconds, none)

/-- Whether a character belongs to a number. -/
def isNumeric (c : Char) : Bool := c.isDigit || c == '.'

/-- Adds up numbers with units of rising rank, up to the end of the text. -/
def total? (rank seconds nanoseconds : Nat) (text : List Char) : Option (Nat × Nat) :=
  if text.isEmpty then some (seconds, nanoseconds)
  else
    match h : text.dropWhile isNumeric with
    | [] => none
    | unit :: rest => do
      have : rest.length < text.length := by
        have := (List.dropWhile_sublist (p := isNumeric) (l := text)).length_le
        rw [h] at this
        exact this
      let (rank', factor) ← unit? unit
      if rank' ≤ rank then none
      else
        let (amount, fraction) ← amount? unit factor (text.takeWhile isNumeric)
        let seconds ← word? (seconds + amount)
        total? rank' seconds (fraction.getD nanoseconds) rest
termination_by text.length

/-- Reads a duration after its marker as a time of day. -/
def readClock? (text : List Char) : Option Clock :=
  if text.isEmpty then none
  else do
    let (seconds, nanoseconds) ← total? 0 0 0 text
    Clock.ofSeconds? seconds nanoseconds

end EntityQuery.Duration
