/-!
# JSON values

The values of JSON documents. Objects keep their fields in order, also fields of the same name; the
readers of records decide what to make of them.

## Main definitions

* `Json`: the values
* `Json.isUsable`: whether all of a value can be used
* `Json.render`: the notation without blanks
-/

namespace EntityQuery

/-- A JSON value. -/
inductive Json where
  | null
  | bool (b : Bool)
  /-- A number, as it is written. -/
  | number (digits : String)
  | string (text : String)
  | array (items : List Json)
  | object (fields : List (String × Json))
  /-- A value that is written correctly but stands for nothing: too deep, too large, or half of a
  character. -/
  | unusable
  deriving Repr

namespace Json

mutual

/-- Whether all of a value can be used. -/
def isUsable : Json → Bool
  | null | bool _ | number _ | string _ => true
  | array items => areUsable items
  | object fields => haveUsable fields
  | unusable => false

/-- Whether all of some values can be used. -/
def areUsable : List Json → Bool
  | [] => true
  | item :: items => item.isUsable && areUsable items

/-- Whether all values of some fields can be used. -/
def haveUsable : List (String × Json) → Bool
  | [] => true
  | (_, value) :: fields => value.isUsable && haveUsable fields

end

/-- The natural number below `2 ^ 64` that a value is. -/
def word? : Json → Option Nat
  | number digits =>
    let n := digits.toList.foldl (fun n c => 10 * n + (c.toNat - '0'.toNat)) 0
    if digits.toList.all Char.isDigit && n < Nat.pow 2 64 then some n else none
  | _ => none

/-! ## Notation -/

/-- The four digits of a character code. -/
def codeDigits (c : Char) : List Char :=
  let digits := Nat.toDigits 16 c.toNat
  List.replicate (4 - digits.length) '0' ++ digits

/-- What one character is written as inside a string. -/
def escapeChar (c : Char) : List Char :=
  if c = '"' ∨ c = '\\' then ['\\', c]
  else if c = '\n' then ['\\', 'n']
  else if c = '\r' then ['\\', 'r']
  else if c = '\t' then ['\\', 't']
  else if c.toNat < 0x20 then '\\' :: 'u' :: codeDigits c
  else [c]

/-- The notation of a string. -/
def quoted (text : String) : String :=
  String.ofList ('"' :: text.toList.flatMap escapeChar ++ ['"'])

mutual

/-- The notation of a value without blanks; what stands for nothing is written as `null`. -/
def render : Json → String
  | null | unusable => "null"
  | bool b => if b then "true" else "false"
  | number digits => digits
  | string text => quoted text
  | array items => "[" ++ String.intercalate "," (renderItems items) ++ "]"
  | object fields =>
    "\x7b" ++ String.intercalate "," (renderFields fields) ++ "\x7d"

/-- The notations of some values. -/
def renderItems : List Json → List String
  | [] => []
  | item :: items => render item :: renderItems items

/-- The notations of some fields. -/
def renderFields : List (String × Json) → List String
  | [] => []
  | (name, value) :: fields => (quoted name ++ ":" ++ render value) :: renderFields fields

end

end Json

end EntityQuery
