import EntityQuery.Number.Integer

/-!
# Binary floating-point numbers

Numbers of a binary format as an integer significand times a power of two, and the reading of
decimal notation, correctly rounded.

## Main definitions

* `BinaryFormat`: the precision and the exponents of a format
* `Floating`: the numbers of a format, the infinities, and the value that is no number
* `Floating.ofDecimal`: the number nearest to a decimal one, of two the even one
* `Floating.read`: decimal notation with an optional exponent, and the names of special values
-/

namespace EntityQuery

/-- A binary floating-point format. -/
structure BinaryFormat where
  /-- The number of bits of a significand. -/
  precision : Nat
  /-- The least exponent of the unit in the last place. -/
  least : Int
  /-- The greatest exponent of the unit in the last place. -/
  greatest : Int
  deriving DecidableEq, Repr

/-- The format of 32 bits. -/
def BinaryFormat.single : BinaryFormat := ⟨24, -149, 104⟩

/-- The format of 64 bits. -/
def BinaryFormat.double : BinaryFormat := ⟨53, -1074, 971⟩

/-- A floating-point number; `finite n m q` is `m * 2 ^ q`, negated where `n` says so. -/
inductive Floating where
  | nan
  | infinite (negative : Bool)
  | finite (negative : Bool) (significand : Nat) (exponent : Int)
  deriving DecidableEq, Repr

/-- Why a text is no floating-point number. -/
inductive FloatingFault where
  /-- No character at all. -/
  | empty
  /-- Some other notation. -/
  | invalid
  deriving DecidableEq, Repr

/-- The wording of a fault. -/
def FloatingFault.message : FloatingFault → String
  | .empty => "cannot parse float from empty string"
  | .invalid => "invalid float literal"

namespace Floating

/-! ## Rounding -/

/-- The integer nearest to a quotient, of two the even one. -/
def roundQuotient (num den : Nat) : Nat :=
  let quotient := num / den
  match compare (2 * (num % den)) den with
  | .lt => quotient
  | .gt => quotient + 1
  | .eq => if quotient % 2 = 0 then quotient else quotient + 1

/-- The exponent of the unit in which a positive quotient is rounded: the least one, or the one
that leaves a significand of full precision. -/
def unitExponent (format : BinaryFormat) (num den : Nat) : Int :=
  let guess := max ((num.log2 : Int) - den.log2 - format.precision) format.least
  let ceiling := guess + format.precision
  if num * Nat.pow 2 (-ceiling).toNat ≥ den * Nat.pow 2 ceiling.toNat then guess + 1 else guess

/-- The number of a format nearest to a positive quotient; infinite above the greatest one. -/
def ofQuotient (format : BinaryFormat) (negative : Bool) (num den : Nat) : Floating :=
  let unit := unitExponent format num den
  let rounded := roundQuotient (num * Nat.pow 2 (-unit).toNat) (den * Nat.pow 2 unit.toNat)
  let (significand, unit) :=
    if rounded = Nat.pow 2 format.precision then (rounded / 2, unit + 1) else (rounded, unit)
  if unit > format.greatest then infinite negative else finite negative significand unit

/-- Decimal exponents beyond which every format has only its infinity or its zero. -/
def decimalReach : Int := 400

/-- The number of a format nearest to `digits * 10 ^ exponent`. -/
def ofDecimal (format : BinaryFormat) (negative : Bool) (digits : Nat) (exponent : Int) :
    Floating :=
  let order := (Nat.toDigits 10 digits).length + exponent
  if digits = 0 ∨ order < -decimalReach then finite negative 0 format.least
  else if order > decimalReach then infinite negative
  else ofQuotient format negative (digits * Nat.pow 10 exponent.toNat)
    (Nat.pow 10 (-exponent).toNat)

/-! ## Reading -/

/-- The exponent part of a notation: nothing, or a mark, an optional sign and digits. -/
def readExponent? : List Char → Option Int
  | [] => some 0
  | mark :: rest =>
    if mark = 'e' ∨ mark = 'E' then
      let (negative, digits) := match rest with
        | '-' :: digits => (true, digits)
        | '+' :: digits => (false, digits)
        | digits => (false, digits)
      if digits.isEmpty || !digits.all Char.isDigit then none
      else some (if negative then -(digitsValue digits : Int) else digitsValue digits)
    else none

/-- Digits with an optional point among or around them, and an optional exponent, as an integer
and a power of ten. -/
def readDecimal? (text : List Char) : Option (Nat × Int) :=
  let whole := text.takeWhile Char.isDigit
  let (fraction, rest) := match text.dropWhile Char.isDigit with
    | '.' :: rest => (rest.takeWhile Char.isDigit, rest.dropWhile Char.isDigit)
    | rest => ([], rest)
  if whole.isEmpty && fraction.isEmpty then none
  else (readExponent? rest).map fun exponent =>
    (digitsValue (whole ++ fraction), exponent - fraction.length)

/-- A text without its sign, and whether the sign is a minus. -/
def readSign : List Char → Bool × List Char
  | '-' :: rest => (true, rest)
  | '+' :: rest => (false, rest)
  | rest => (false, rest)

/-- Reads an optional sign and then the name of a special value, in any case, or a decimal
notation. -/
def read (format : BinaryFormat) (text : List Char) : Except FloatingFault Floating :=
  if text.isEmpty then .error .empty
  else
    let (negative, rest) := readSign text
    let name := String.ofList (rest.map Char.toLower)
    if name = "nan" then .ok nan
    else if name = "inf" ∨ name = "infinity" then .ok (infinite negative)
    else match readDecimal? rest with
      | some (digits, exponent) => .ok (ofDecimal format negative digits exponent)
      | none => .error .invalid

end Floating

end EntityQuery
