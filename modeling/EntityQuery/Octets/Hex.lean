/-!
# Hexadecimal notation of octets

Octets are written as two lowercase digits each and read with digits of either case. Positions and
lengths count the octets of the UTF-8 encoding of a text.

## Main definitions

* `HexFault`: why a text is no hexadecimal notation
* `Hex.encode`, `Hex.decode`: writing and reading
-/

namespace EntityQuery

/-- Why a text is no hexadecimal notation of octets. -/
inductive HexFault where
  /-- A digit without a partner. -/
  | oddLength
  /-- An octet of the text that is no digit, and its position. -/
  | invalidDigit (octet : UInt8) (position : Nat)
  deriving DecidableEq, Repr

/-- The octets of a text. -/
def octets (text : List Char) : List UInt8 := text.flatMap String.utf8EncodeChar

namespace Hex

/-- The digit of a number below sixteen. -/
def digit (n : Nat) : Char := Nat.digitChar n

/-- The number of a digit of either case. -/
def digitValue? (octet : UInt8) : Option UInt8 :=
  if '0'.toUInt8 ≤ octet ∧ octet ≤ '9'.toUInt8 then some (octet - '0'.toUInt8)
  else if 'a'.toUInt8 ≤ octet ∧ octet ≤ 'f'.toUInt8 then some (octet - 'a'.toUInt8 + 10)
  else if 'A'.toUInt8 ≤ octet ∧ octet ≤ 'F'.toUInt8 then some (octet - 'A'.toUInt8 + 10)
  else none

/-- The two digits of an octet. -/
def pair (octet : UInt8) : List Char := [digit (octet.toNat / 16), digit (octet.toNat % 16)]

/-- The notation of octets. -/
def encode (data : List UInt8) : List Char := data.flatMap pair

/-- Reads pairs of digits, the first of them at `position`. -/
def decodePairs (position : Nat) : List UInt8 → Except HexFault (List UInt8)
  | [] => .ok []
  | [_] => .error .oddLength
  | a :: b :: rest =>
    match digitValue? a, digitValue? b with
    | none, _ => .error (.invalidDigit a position)
    | some _, none => .error (.invalidDigit b (position + 1))
    | some high, some low =>
      (decodePairs (position + 2) rest).map fun data => (16 * high + low) :: data

/-- Reads the octets that a text notes. An odd length is reported before any digit is looked at. -/
def decode (text : List Char) : Except HexFault (List UInt8) :=
  let digits := octets text
  if digits.length % 2 = 1 then .error .oddLength else decodePairs 0 digits

/-! ## Wording -/

/-- A character code in hexadecimal digits between braces. -/
def codeNotation (octet : UInt8) : List Char :=
  ['\\', 'u', '\x7b'] ++ Nat.toDigits 16 octet.toNat ++ ['\x7d']

/-- An octet as a quoted character: quotes, backslashes and control characters are escaped. -/
def quotedCharacter (octet : UInt8) : List Char :=
  let c := Char.ofNat octet.toNat
  let body :=
    if c = '\t' then ['\\', 't']
    else if c = '\r' then ['\\', 'r']
    else if c = '\n' then ['\\', 'n']
    else if c = '\x00' then ['\\', '0']
    else if c = '\'' ∨ c = '\\' then ['\\', c]
    else if octet < 0x20 ∨ (0x7F ≤ octet ∧ octet ≤ 0xA0) ∨ octet = 0xAD then codeNotation octet
    else [c]
  '\'' :: body ++ ['\'']

end Hex

/-- The wording of a fault. -/
def HexFault.message : HexFault → String
  | .oddLength => "Odd number of digits"
  | .invalidDigit octet position =>
    "Invalid character " ++ String.ofList (Hex.quotedCharacter octet) ++ " at position "
      ++ toString position

end EntityQuery
