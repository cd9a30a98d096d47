import EntityQuery.Octets.Hex

/-!
# Globally unique identifiers

The notations of a globally unique identifier: thirty-two hexadecimal digits, or the same in five
groups with hyphens between them, which may stand in braces or after `urn:uuid:`. A text that is
none of these is met with the first reason that a left to right look at it gives.

## Main definitions

* `Guid.accepts`: whether a text notes an identifier
* `Guid.diagnose`: why a text notes none
* `Guid.check`: one or the other
-/

namespace EntityQuery

/-- Why a text notes no identifier. -/
inductive GuidFault where
  /-- A character that is neither a digit nor a hyphen, and its position. -/
  | character (found : Char) (position : Nat)
  /-- A length that no notation has. -/
  | length (found : Nat)
  /-- A number of groups other than one and five. -/
  | groupCount (found : Nat)
  /-- A group, its length as it should be and as it is. -/
  | groupLength (group expected found : Nat)
  deriving DecidableEq, Repr

/-- The wording of a fault. -/
def GuidFault.message : GuidFault → String
  | .character found position =>
    "invalid character: found `" ++ String.singleton found ++ "` at " ++ toString position
  | .length found => "invalid length: found " ++ toString found
  | .groupCount found => "invalid group count: expected 5, found " ++ toString found
  | .groupLength group expected found =>
    "invalid group length in group " ++ toString group ++ ": expected " ++ toString expected
      ++ ", found " ++ toString found

namespace Guid

/-- Whether a character is a hexadecimal digit. -/
def isHexDigit (c : Char) : Bool :=
  c.isDigit || ('a' ≤ c && c ≤ 'f') || ('A' ≤ c && c ≤ 'F')

/-- The number of octets of a text. -/
def size (text : List Char) : Nat := text.foldl (fun size c => size + c.utf8Size) 0

/-- What stands between braces. -/
def inBraces? : List Char → Option (List Char)
  | '\x7b' :: rest => if rest.getLast? = some '\x7d' then some rest.dropLast else none
  | _ => none

/-- The marker of an identifier written as a resource name, in lower case. -/
def urnMark : List Char := "urn:uuid:".toList

/-- What follows the marker of a resource name, in any case. -/
def afterUrn? (text : List Char) : Option (List Char) :=
  if (text.take urnMark.length).map Char.toLower = urnMark then some (text.drop urnMark.length)
  else none

/-- The lengths of the groups. -/
def groupLengths : List Nat := [8, 4, 4, 4, 12]

/-- The number of digits. -/
def digitCount : Nat := groupLengths.foldl (· + ·) 0

/-- Whether a text consists of groups of digits of the given lengths, hyphens between them. -/
def isGrouped : List Nat → List Char → Bool
  | [], text => text.isEmpty
  | [last], text => text.length == last && text.all isHexDigit
  | length :: rest, text =>
    (text.take length).length == length && (text.take length).all isHexDigit
      && match text.drop length with
        | '-' :: tail => isGrouped rest tail
        | _ => false

/-- The number of octets of the notation in groups. -/
def groupedSize : Nat := digitCount + 4

/-- The text inside braces or after the marker, where it has the size of the notation in groups. -/
def wrapped? (text : List Char) : Option (List Char) :=
  match inBraces? text, afterUrn? text with
  | some inner, _ => if size inner = groupedSize then some inner else none
  | none, some inner => if size inner = groupedSize then some inner else none
  | none, none => none

/-- Whether a text notes an identifier. -/
def accepts (text : List Char) : Bool :=
  (text.length == digitCount && text.all isHexDigit)
    || isGrouped groupLengths ((wrapped? text).getD text)

/-! ## Reasons -/

/-- The characters of a text with their positions, counted in octets from `position`. -/
def positions (position : Nat) : List Char → List (Nat × Char)
  | [] => []
  | c :: rest => (position, c) :: positions (position + c.utf8Size) rest

/-- The first group whose hyphen is misplaced, or else the last group. -/
def groupFault (total : Nat) : Nat → Nat → List Nat → List Nat → GuidFault
  | group, start, expected :: lengths, hyphen :: hyphens =>
    if hyphen = start + expected then
      groupFault total (group + 1) (start + expected + 1) lengths hyphens
    else .groupLength group expected (hyphen - start)
  | group, start, expected :: _, [] => .groupLength group expected (total - start)
  | _, _, [], _ => .length total

/-- The reason found in `text`, of which `scanned` is looked at from octet `offset` on; `grouped`
says that hyphens are expected in any case. -/
def reason (text scanned : List Char) (offset : Nat) (grouped : Bool) : GuidFault :=
  match (positions 0 scanned).find? fun (_, c) => !(isHexDigit c || c == '-') with
  | some (position, c) => .character c (position + offset)
  | none =>
    let hyphens := ((positions 0 scanned).filter (·.2 == '-')).map (·.1)
    if !grouped && hyphens.isEmpty then .length (size text)
    else if hyphens.length ≠ 4 then .groupCount (hyphens.length + 1)
    else groupFault (size text) 0 0 groupLengths hyphens

/-- Why a text that notes no identifier does not. -/
def diagnose (text : List Char) : GuidFault :=
  match wrapped? text with
  | some inner => reason inner inner 0 true
  | none =>
    if text.isEmpty ∨ size text > groupedSize + urnMark.length then .length (size text)
    else if size text = groupedSize then reason text text 0 true
    else match inBraces? text, afterUrn? text with
      | some inner, _ => reason text inner 1 true
      | none, some inner => reason text inner urnMark.length true
      | none, none => reason text text 0 false

/-- Accepts the notations of an identifier and gives a reason for any other text. -/
def check (text : List Char) : Except GuidFault Unit :=
  if accepts text then .ok () else .error (diagnose text)

end Guid

end EntityQuery
