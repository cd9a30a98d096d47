import EntityQuery.Number.Integer

/-!
# Decimal numbers

Decimal numbers of any size that keep their places: `1.50` and `1.5` are different numbers here,
with the same value.

## Main definitions

* `Decimal`: an integer and the number of places its point stands to the left
* `Decimal.read`: digits, an optional point, an optional exponent
* `Decimal.text`: positional, or with an exponent where many zeros would be needed
-/

namespace EntityQuery

/-- The number `unscaled * 10 ^ (-scale)`. -/
structure Decimal where
  /-- The digits and the sign. -/
  unscaled : Int
  /-- The number of digits after the point; below zero, of zeros left out before it. -/
  scale : Int
  deriving DecidableEq, Repr

/-- Why a text is no decimal number. -/
inductive DecimalFault where
  /-- The exponent is no integer. -/
  | exponent (fault : IntegerFault)
  /-- Nothing before the exponent. -/
  | empty
  /-- The scale leaves the 64-bit range. -/
  | scale (text : String)
  /-- The digits are no integer. -/
  | digits (fault : IntegerFault)
  deriving DecidableEq, Repr

/-- The wording of a fault. -/
def DecimalFault.message : DecimalFault → String
  | .exponent fault => fault.message
  | .empty => "Failed to parse empty string"
  | .scale text => "Exponent overflow when parsing '" ++ text ++ "'"
  | .digits fault => fault.message

namespace Decimal

/-- Whether a character starts an exponent. -/
def isExponentMark (c : Char) : Bool := c == 'e' || c == 'E'

/-- The exponent of a text: what follows the first mark, or zero without one. -/
def readExponent : List Char → Except DecimalFault Int
  | [] => .ok 0
  | _ :: digits =>
    match (Signed.read digits : Except IntegerFault (Signed 128)) with
    | .ok n => .ok n.val
    | .error fault => .error (.exponent fault)

/-- The digits of a text without its point, and the number of places after it. A point at the end
has no places. -/
def dropPoint (base : List Char) : List Char × Nat :=
  let lead := base.takeWhile (· != '.')
  match base.dropWhile (· != '.') with
  | [] | [_] => (lead, 0)
  | _ :: trail => (lead ++ trail, trail.countP (· != '_'))

/-- Whether a scale fits 64 bits. -/
def scaleFits (scale : Int) : Bool := -(bound 64 : Int) ≤ scale && scale < (bound 64 : Int)

/-- Reads a decimal number. Of several faults the exponent's comes first, then an empty base, then
the scale, then the digits. -/
def read (text : List Char) : Except DecimalFault Decimal := do
  let base := text.takeWhile (!isExponentMark ·)
  let exponent ← readExponent (text.dropWhile (!isExponentMark ·))
  if base.isEmpty then throw .empty
  let (digits, places) := dropPoint base
  let scale := (places : Int) - exponent
  if !scaleFits scale then throw (.scale (String.ofList text))
  match readInteger digits with
  | .ok unscaled => return ⟨unscaled, scale⟩
  | .error fault => throw (.digits fault)

/-! ## Notation -/

/-- The most zeros between the point and the first digit that are written out. -/
def leadingZeros : Nat := 5

/-- The most zeros after the last digit that are written out. -/
def trailingZeros : Nat := 15

/-- Digits with a point `places` before their end, zeros filled in on the left. -/
def pointed (digits : List Char) (places : Nat) : List Char :=
  let padded := List.replicate (places + 1 - digits.length) '0' ++ digits
  padded.take (padded.length - places) ++ '.' :: padded.drop (padded.length - places)

/-- Digits with a point after the first of them, none after a lone digit. -/
def scientific (digits : List Char) : List Char :=
  match digits with
  | first :: second :: rest => first :: '.' :: second :: rest
  | digits => digits

/-- The notation of a number other than zero without its sign. -/
def magnitudeText (digits : List Char) (scale : Int) : List Char :=
  if scale > digits.length + leadingZeros then
    scientific digits ++ 'E' :: (toString ((digits.length : Int) - scale - 1)).toList
  else if scale > 0 then pointed digits scale.toNat
  else if -scale ≤ trailingZeros then digits ++ List.replicate (-scale).toNat '0'
  else digits ++ 'e' :: '+' :: (toString (-scale)).toList

/-- The notation of a decimal number. -/
def text (d : Decimal) : String :=
  if d.unscaled = 0 then "0"
  else
    let digits := Nat.toDigits 10 d.unscaled.natAbs
    let sign := if d.unscaled < 0 then ['-'] else []
    String.ofList (sign ++ magnitudeText digits d.scale)

end Decimal

end EntityQuery
