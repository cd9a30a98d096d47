import EntityQuery.Number.Floating

/-!
# Shortest notation of floating-point numbers

A floating-point number is written with the fewest digits that read back to it, and of those with
the ones nearest to it; where two are equally near, with the greater. The notation is positional for
every magnitude, without a point for integers.

## Main definitions

* `Floating.readsBack`: whether a decimal number rounds to a floating-point number
* `Floating.shortest`: the fewest digits that read back
* `Floating.text`: the positional notation
-/

namespace EntityQuery.Floating

/-- Compares `a * 10 ^ i` with `n * 2 ^ j`, exactly. -/
def compareScaled (a : Nat) (i : Int) (n : Nat) (j : Int) : Ordering :=
  compare (a * Nat.pow 10 i.toNat * Nat.pow 2 (-j).toNat)
    (n * Nat.pow 2 j.toNat * Nat.pow 10 (-i).toNat)

/-- Four times the lower end of the numbers that round to `significand * 2 ^ exponent`, in units of
`2 ^ exponent`. Below a power of two the neighbour is only half as far away. -/
def lowerEnd (format : BinaryFormat) (significand : Nat) (exponent : Int) : Nat :=
  if significand = Nat.pow 2 (format.precision - 1) ∧ exponent > format.least then
    4 * significand - 1
  else 4 * significand - 2

/-- Whether `digits * 10 ^ scale` rounds to `significand * 2 ^ exponent`. The ends of the interval
belong to it where the significand is even. -/
def readsBack (format : BinaryFormat) (significand : Nat) (exponent : Int) (digits : Nat)
    (scale : Int) : Bool :=
  let ends := significand % 2 == 0
  let low := compareScaled digits scale (lowerEnd format significand exponent) (exponent - 2)
  let high := compareScaled digits scale (4 * significand + 2) (exponent - 2)
  (low == .gt || (ends && low == .eq)) && (high == .lt || (ends && high == .eq))

/-- The number `significand * 2 ^ exponent` in units of `10 ^ scale`, as a quotient. -/
def inUnits (significand : Nat) (exponent scale : Int) : Nat × Nat :=
  (significand * Nat.pow 2 exponent.toNat * Nat.pow 10 (-scale).toNat,
    Nat.pow 2 (-exponent).toNat * Nat.pow 10 scale.toNat)

/-- The multiple of `10 ^ scale` next to `significand * 2 ^ exponent` that reads back: of two the
nearer, and the greater if both are equally near. -/
def neighbour? (format : BinaryFormat) (significand : Nat) (exponent : Int) (scale : Int) :
    Option Nat :=
  let (num, den) := inUnits significand exponent scale
  let below := num / den
  match readsBack format significand exponent below scale,
      readsBack format significand exponent (below + 1) scale with
  | true, true => some (if 2 * (num % den) < den then below else below + 1)
  | true, false => some below
  | false, true => some (below + 1)
  | false, false => none

/-- The coarsest grid from `10 ^ scale` on with a multiple that reads back, and that multiple; at
most `steps` grids are tried, and the multiple below the number is the answer of last resort. -/
def shortestFrom (format : BinaryFormat) (significand : Nat) (exponent : Int) :
    Nat → Int → Nat × Int
  | 0, scale =>
    let (num, den) := inUnits significand exponent scale
    (num / den, scale)
  | steps + 1, scale =>
    match neighbour? format significand exponent scale with
    | some digits => (digits, scale)
    | none => shortestFrom format significand exponent steps (scale - 1)

/-- A power of ten that is not below `significand * 2 ^ exponent`, nor above ten times it. -/
def startScale (significand : Nat) (exponent : Int) : Int :=
  let (num, den) := inUnits significand exponent 0
  if num ≥ den then (Nat.toDigits 10 (num / den)).length
  else 1 - (Nat.toDigits 10 (den / num)).length

/-- Grids enough to reach seventeen digits. -/
def gridCount : Nat := 19

/-- The fewest digits that read back as a positive number, and their power of ten. -/
def shortest (format : BinaryFormat) (significand : Nat) (exponent : Int) : Nat × Int :=
  shortestFrom format significand exponent gridCount (startScale significand exponent)

/-! ## Layout -/

/-- The positional notation of `digits * 10 ^ scale`. -/
def positional (digits : Nat) (scale : Int) : List Char :=
  let ds := Nat.toDigits 10 digits
  if scale ≥ 0 then ds ++ List.replicate scale.toNat '0'
  else
    let places := (-scale).toNat
    let padded := List.replicate (places + 1 - ds.length) '0' ++ ds
    padded.take (padded.length - places) ++ '.' :: padded.drop (padded.length - places)

/-- The notation of the absolute value of a finite number. -/
def magnitudeText (format : BinaryFormat) (significand : Nat) (exponent : Int) : List Char :=
  if significand = 0 then ['0']
  else
    let (digits, scale) := shortest format significand exponent
    positional digits scale

/-- The notation of a number. Zero keeps its sign, and the value that is no number has none. -/
def text (format : BinaryFormat) : Floating → String
  | nan => "NaN"
  | infinite negative => if negative then "-inf" else "inf"
  | finite negative significand exponent =>
    String.ofList ((if negative then ['-'] else []) ++ magnitudeText format significand exponent)

end EntityQuery.Floating
