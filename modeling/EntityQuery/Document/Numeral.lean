import EntityQuery.Number.Floating

/-!
# The range of numbers in a document

A number is taken as a significand of 64 bits times a power of ten. Digits that no longer fit into
the significand are dropped; each one dropped before the point still counts as a factor of ten. The
significand and the power are rounded to 53 bits each, and so is their product, which may not reach
`2 ^ 1024`. Near that limit the outcome depends on how a number is written, not on its value alone.

## Main definitions

* `Numeral`: the digits and the exponent of a number
* `Numeral.scientific`: its significand and its power of ten
* `Numeral.isInRange`: whether it is not too large
-/

namespace EntityQuery

/-- A number without its sign, as it is written. -/
structure Numeral where
  /-- The digits before the point. -/
  whole : List Char
  /-- The digits after the point. -/
  fraction : List Char
  exponent : Int
  deriving DecidableEq, Repr

namespace Numeral

/-- The least number that is too large for a significand. -/
def significandLimit : Nat := Nat.pow 2 64

/-- Takes digits into a significand as long as it fits; the digits left over come with it. -/
def absorb (significand : Nat) : List Char → Nat × List Char
  | [] => (significand, [])
  | c :: rest =>
    if 10 * significand + digitValue c < significandLimit then
      absorb (10 * significand + digitValue c) rest
    else (significand, c :: rest)

/-- The significand of a number and its power of ten. -/
def scientific (n : Numeral) : Nat × Int :=
  let (significand, dropped) := absorb 0 n.whole
  let (significand, unused) := absorb significand n.fraction
  (significand, n.exponent + dropped.length + unused.length - n.fraction.length)

/-! ## Rounding -/

/-- The number of at most `precision` bits, before any zeros, that is nearest to a natural number,
of two the even one. -/
def roundBits (precision n : Nat) : Nat :=
  let unit := Nat.pow 2 (n.log2 + 1 - precision)
  Floating.roundQuotient n unit * unit

/-- The greatest power of ten that a significand is multiplied by. -/
def greatestPower : Nat := 308

/-- Whether a number is not too large. Zero never is, whatever its power of ten. -/
def isInRange (n : Numeral) : Bool :=
  let (significand, power) := n.scientific
  significand == 0 || power < 0 ||
    (power ≤ greatestPower &&
      roundBits 53 (roundBits 53 significand * roundBits 53 (Nat.pow 10 power.toNat))
        < Nat.pow 2 1024)

end Numeral

end EntityQuery
