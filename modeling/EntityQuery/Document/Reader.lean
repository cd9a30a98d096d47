import EntityQuery.Document.Json
import EntityQuery.Document.Numeral

/-!
# Reading JSON

The reading of a JSON document: one value, with blanks around it and nothing else. Values nested too
deeply, numbers that are too large and strings with half of a surrogate pair are unusable, and so is
an object with such a name; they do no harm where nobody looks at them.

## Main definitions

* `Json.read?`: the value of a document
-/

namespace EntityQuery.Json

namespace Reader

/-- Whether a character is a blank of the grammar. -/
def isBlank (c : Char) : Bool := c == ' ' || c == '\t' || c == '\n' || c == '\r'

/-- A text without the blanks at its start. -/
def skipBlanks (text : List Char) : List Char := text.dropWhile isBlank

/-! ## Strings -/

/-- The number of a hexadecimal digit. -/
def hexDigit? (c : Char) : Option Nat :=
  if c.isDigit then some (c.toNat - '0'.toNat)
  else if 'a' ≤ c ∧ c ≤ 'f' then some (c.toNat - 'a'.toNat + 10)
  else if 'A' ≤ c ∧ c ≤ 'F' then some (c.toNat - 'A'.toNat + 10)
  else none

/-- The character of an escape with one letter. -/
def escaped? (c : Char) : Option Char :=
  match c with
  | '"' | '\\' | '/' => some c
  | 'b' => some '\x08'
  | 'f' => some '\x0c'
  | 'n' => some '\n'
  | 'r' => some '\r'
  | 't' => some '\t'
  | _ => none

/-- A character of a string, or a code unit given by its number. -/
abbrev Piece := Char ⊕ Nat

/-- The units of a string up to its closing quote, and what follows. -/
def units? : List Char → Option (List Piece × List Char)
  | '"' :: rest => some ([], rest)
  | '\\' :: 'u' :: a :: b :: c :: d :: rest => do
    let a ← hexDigit? a
    let b ← hexDigit? b
    let c ← hexDigit? c
    let d ← hexDigit? d
    let (units, rest) ← units? rest
    return (.inr (((a * 16 + b) * 16 + c) * 16 + d) :: units, rest)
  | '\\' :: c :: rest => do
    let c ← escaped? c
    let (units, rest) ← units? rest
    return (.inl c :: units, rest)
  | c :: rest => do
    if c.toNat < 0x20 then none
    let (units, rest) ← units? rest
    return (.inl c :: units, rest)
  | [] => none

/-- Whether a code unit is the first half of a pair. -/
def isHigh (n : Nat) : Bool := 0xD800 ≤ n && n < 0xDC00

/-- Whether a code unit is the second half of a pair. -/
def isLow (n : Nat) : Bool := 0xDC00 ≤ n && n < 0xE000

/-- The text of units; half of a pair stands for nothing. -/
def text? : List Piece → Option (List Char)
  | [] => some []
  | .inl c :: rest => (text? rest).map (c :: ·)
  | .inr high :: .inr low :: rest =>
    if isHigh high && isLow low then
      (text? rest).map (Char.ofNat (0x10000 + (high - 0xD800) * 0x400 + (low - 0xDC00)) :: ·)
    else if isHigh high || isLow high then none
    else (text? (.inr low :: rest)).map (Char.ofNat high :: ·)
  | .inr n :: rest =>
    if isHigh n || isLow n then none else (text? rest).map (Char.ofNat n :: ·)

/-! ## Numbers -/

/-- The digits at the start of a text, at least one. -/
def digits? (text : List Char) : Option (List Char × List Char) :=
  let digits := text.takeWhile Char.isDigit
  if digits.isEmpty then none else some (digits, text.drop digits.length)

/-- The digits before the point: a zero alone, or digits that start with another one. -/
def whole? : List Char → Option (List Char × List Char)
  | '0' :: rest => some (['0'], rest)
  | text => digits? text

/-- The point and the digits after it, if there is a point. -/
def fraction? : List Char → Option (List Char × List Char)
  | '.' :: rest => (digits? rest).map fun (digits, rest) => ('.' :: digits, rest)
  | text => some ([], text)

/-- The exponent, if there is one. -/
def exponent? : List Char → Option (List Char × List Char)
  | c :: rest =>
    if c = 'e' ∨ c = 'E' then
      match rest with
      | '-' :: rest => (digits? rest).map fun (digits, rest) => (c :: '-' :: digits, rest)
      | '+' :: rest => (digits? rest).map fun (digits, rest) => (c :: '+' :: digits, rest)
      | rest => (digits? rest).map fun (digits, rest) => (c :: digits, rest)
    else some ([], c :: rest)
  | [] => some ([], [])

/-- The number at the start of a text, as it is written; one that is too large is unusable. -/
def number? (text : List Char) : Option (Json × List Char) := do
  let (sign, text) := match text with
    | '-' :: rest => (['-'], rest)
    | text => ([], text)
  let (whole, text) ← whole? text
  let (fraction, text) ← fraction? text
  let (scale, text) ← exponent? text
  let numeral : Numeral := ⟨whole, fraction.tail, ← Floating.readExponent? scale⟩
  if numeral.isInRange then
    return (number (String.ofList (sign ++ whole ++ fraction ++ scale)), text)
  else return (unusable, text)

/-! ## Values -/

/-- The rest of a text after a word. -/
def afterWord? (word : String) (text : List Char) : Option (List Char) :=
  if word.toList.isPrefixOf text then some (text.drop word.length) else none

/-- The value of a word or a number at the start of a text. -/
def scalar? (text : List Char) : Option (Json × List Char) :=
  match afterWord? "null" text, afterWord? "true" text, afterWord? "false" text with
  | some rest, _, _ => some (null, rest)
  | none, some rest, _ => some (bool true, rest)
  | none, none, some rest => some (bool false, rest)
  | none, none, none => number? text

/-- A container, unless it is nested too deeply. -/
def nest (depth : Nat) (value : Json) : Json := if depth = 0 then unusable else value

/-- An object, if all its names stand for something. -/
def ofFields (fields : List (Option String × Json)) : Json :=
  if fields.all (·.1.isSome) then object (fields.map fun (name, value) => (name.getD "", value))
  else unusable

mutual

/-- The value at the start of a text, which may hold containers of the given depth. -/
def value? : Nat → Nat → List Char → Option (Json × List Char)
  | 0, _, _ => none
  | fuel + 1, depth, text =>
    match skipBlanks text with
    | '"' :: rest => do
      let (units, rest) ← units? rest
      match text? units with
      | some chars => return (string (String.ofList chars), rest)
      | none => return (unusable, rest)
    | '[' :: rest =>
      match skipBlanks rest with
      | ']' :: rest => some (nest depth (array []), rest)
      | rest => do
        let (items, rest) ← items? fuel (depth - 1) rest
        return (nest depth (array items), rest)
    | '\x7b' :: rest =>
      match skipBlanks rest with
      | '\x7d' :: rest => some (nest depth (object []), rest)
      | rest => do
        let (fields, rest) ← fields? fuel (depth - 1) rest
        return (nest depth (ofFields fields), rest)
    | text => scalar? text

/-- The items of an array up to its closing bracket, at least one. -/
def items? : Nat → Nat → List Char → Option (List Json × List Char)
  | 0, _, _ => none
  | fuel + 1, depth, text => do
    let (item, rest) ← value? fuel depth text
    match skipBlanks rest with
    | ']' :: rest => return ([item], rest)
    | ',' :: rest =>
      let (items, rest) ← items? fuel depth rest
      return (item :: items, rest)
    | _ => none

/-- The fields of an object up to its closing brace, at least one. -/
def fields? : Nat → Nat → List Char → Option (List (Option String × Json) × List Char)
  | 0, _, _ => none
  | fuel + 1, depth, text =>
    match skipBlanks text with
    | '"' :: rest => do
      let (units, rest) ← units? rest
      let name := (text? units).map String.ofList
      match skipBlanks rest with
      | ':' :: rest =>
        let (value, rest) ← value? fuel depth rest
        match skipBlanks rest with
        | '\x7d' :: rest => return ([(name, value)], rest)
        | ',' :: rest =>
          let (fields, rest) ← fields? fuel depth rest
          return ((name, value) :: fields, rest)
        | _ => none
      | _ => none
    | _ => none

end

end Reader

/-- The greatest depth of containers in a document. -/
def greatestDepth : Nat := 127

/-- The value of a document. Every step of reading passes a character or enters a list of items or
fields, which bounds their number by twice the length. -/
def read? (text : List Char) : Option Json :=
  match Reader.value? (2 * text.length + 2) greatestDepth text with
  | some (value, rest) => if (Reader.skipBlanks rest).isEmpty then some value else none
  | none => none

end EntityQuery.Json
