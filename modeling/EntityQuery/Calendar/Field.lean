import EntityQuery.Number.Integer
import EntityQuery.Text.Blank

/-!
# Fields of dates and times

A date or a time is read field by field: numbers of a bounded number of digits, before which blanks
are passed over, and characters that must stand exactly where they are expected. Each reader returns
what it read and the rest of the text.

## Main definitions

* `Field.number?`, `Field.year?`: numeric fields
* `Field.mark?`: an expected character
* `Field.fraction?`: a fraction of a second, in nanoseconds
* `Field.padded`: a number with leading zeros
-/

namespace EntityQuery.Field

/-- Reads one digit at least and `most` at most. -/
def digits? (most : Nat) (text : List Char) : Option (Nat × List Char) :=
  let digits := (text.take most).takeWhile Char.isDigit
  if digits.isEmpty then none else some (digitsValue digits, text.drop digits.length)

/-- Reads a number of at most `most` digits, after blanks. -/
def number? (most : Nat) (text : List Char) : Option (Nat × List Char) :=
  digits? most (Text.skipBlanks text)

/-- Reads a year, after blanks: four digits at most, or a sign and any number of digits. -/
def year? (text : List Char) : Option (Int × List Char) :=
  match Text.skipBlanks text with
  | '-' :: rest => (digits? rest.length rest).map fun (n, rest) => (-(n : Int), rest)
  | '+' :: rest => (digits? rest.length rest).map fun (n, rest) => ((n : Int), rest)
  | rest => (digits? 4 rest).map fun (n, rest) => ((n : Int), rest)

/-- Reads an expected character. -/
def mark? (mark : Char) : List Char → Option (List Char)
  | c :: rest => if c = mark then some rest else none
  | [] => none

/-- The number of digits of a nanosecond. -/
def nanosecondDigits : Nat := 9

/-- Digits of a fraction as nanoseconds; digits that are missing count as zeros. -/
def nanoseconds (digits : List Char) : Nat :=
  digitsValue digits * Nat.pow 10 (nanosecondDigits - digits.length)

/-- Reads a fraction of a second, which a point introduces. Nine digits count, and further digits
are passed over. Without a point the fraction is zero. -/
def fraction? : List Char → Option (Nat × List Char)
  | '.' :: rest =>
    let digits := rest.takeWhile Char.isDigit
    if digits.isEmpty then none
    else some (nanoseconds (digits.take nanosecondDigits), rest.drop digits.length)
  | rest => some (0, rest)

/-- A number in at least `width` digits. -/
def padded (width n : Nat) : List Char :=
  let digits := Nat.toDigits 10 n
  List.replicate (width - digits.length) '0' ++ digits

end EntityQuery.Field
