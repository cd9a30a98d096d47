import EntityQuery.Literal.Temporal
import EntityQuery.Text.Quoting
import EntityQuery.Text.Search

/-!
# Literals in addresses

A literal of an address shows its kind by its form: keywords, quoted strings, quoted texts after the
name of a kind, and numbers with or without a suffix. The plain text of a literal is what is left
without quotes, names and suffixes.

## Main definitions

* `Literal`: a kind and a plain text
* `Literal.parse`: the kind and the plain text of a literal
* `Literal.render`: the literal of a kind and a plain text
-/

namespace EntityQuery

/-- A literal by its kind and its plain text. -/
structure Literal where
  kind : Kind
  text : String
  deriving DecidableEq, Repr

namespace Literal

/-! ## Quoted literals -/

/-- What stands between single quotes at both ends of a text. -/
def quoted? (text : List Char) : Option (List Char) :=
  Text.inside? (· == Text.quote) (· == Text.quote) text

/-- The name in front of a quoted text, and what stands between the quotes. -/
def named? (text : List Char) : Option (List Char × List Char) :=
  match Text.cut? [Text.quote] text with
  | none => none
  | some (name, rest) =>
    if name.isEmpty ∨ rest.getLast? ≠ some Text.quote then none else some (name, rest.dropLast)

/-- Keeps the failure of a reader, with the kind that was to be read. -/
def expect {α : Type} (text : List Char) (kind : Kind) (fault : α → Fault) {β : Type}
    (read : Except α β) : Except LiteralError Kind :=
  match read with
  | .ok _ => .ok kind
  | .error f => .error (.invalid (String.ofList text) kind (fault f))

/-- The kind that a name stands for, where the text in quotes is a value of it. -/
def kindOfName (literal name inner : List Char) : Except LiteralError Kind :=
  let name := String.ofList (name.map Char.toLower)
  let text := String.ofList inner
  if name = "x" ∨ name = "binary" then expect inner .binary .hex (Hex.decode inner)
  else if name = "datetime" then (Temporal.readMoment text).map fun _ => .dateTime
  else if name = "datetimeoffset" then
    (Temporal.readOffsetMoment text).map fun _ => .dateTimeOffset
  else if name = "time" then (Temporal.readClock text).map fun _ => .time
  else if name = "guid" then expect inner .guid .guid (Guid.check inner)
  else .error (.malformed (String.ofList literal))

/-! ## Numbers -/

/-- Whether a character may occur in a number. -/
def isNumeric (c : Char) : Bool :=
  c.isDigit || c == '-' || c == '+' || c == '.' || Decimal.isExponentMark c

/-- The least kind that holds an integer of 64 bits. -/
def kindOfInteger (n : Int) : Kind :=
  if 0 ≤ n ∧ n ≤ 255 then .byte
  else if -128 ≤ n ∧ n ≤ -1 then .sbyte
  else if -(bound 16 : Int) ≤ n ∧ n < (bound 16 : Int) then .int16
  else if -(bound 32 : Int) ≤ n ∧ n < (bound 32 : Int) then .int32
  else .int64

/-- The decimal kind for a text that is a decimal number. -/
def decimalKind? (body : List Char) : Option Kind :=
  match Decimal.read body with
  | .ok _ => some .decimal
  | .error _ => none

/-- The kind of a number without suffix. An integer of more than 64 bits is a decimal number. -/
def unsuffixedKind? (body : List Char) : Option Kind :=
  if body.any Decimal.isExponentMark then
    match Floating.read .double body with
    | .ok _ => some .double
    | .error _ => none
  else if body.contains '.' then decimalKind? body
  else
    match (Signed.read body : Except IntegerFault (Signed 64)) with
    | .ok n => some (kindOfInteger n.val)
    | .error _ => decimalKind? body

/-- The kind that a suffix demands of a number, in either case. -/
def suffixedKind (literal body : List Char) (suffix : Char) : Except LiteralError Kind :=
  match suffix.toUpper with
  | 'L' => expect body .int64 .integer (Signed.read body : Except IntegerFault (Signed 64))
  | 'M' => expect body .decimal .decimal (Decimal.read body)
  | 'D' => expect body .double .floating (Floating.read .double body)
  | 'F' => expect body .single .floating (Floating.read .single body)
  | _ => .error (.malformed (String.ofList literal))

/-- A number and the letter after it. -/
def cutSuffix (text : List Char) : List Char × Option Char :=
  match text.getLast? with
  | some last => if last.isAlpha then (text.dropLast, some last) else (text, none)
  | none => (text, none)

/-- Reads a number with or without suffix. -/
def parseNumber (literal : List Char) : Except LiteralError Literal :=
  let malformed := LiteralError.malformed (String.ofList literal)
  let (body, suffix?) := cutSuffix literal
  if body.isEmpty || !body.all isNumeric then .error malformed
  else
    let kind := match suffix? with
      | some suffix => suffixedKind literal body suffix
      | none =>
        match unsuffixedKind? body with
        | some kind => .ok kind
        | none => .error malformed
    kind.map fun kind => ⟨kind, String.ofList body⟩

/-! ## Literals -/

/-- The kind and the plain text of a literal of more than one form. -/
def parseChars (text : List Char) : Except LiteralError Literal :=
  match quoted? text, named? text with
  | some inner, _ => .ok ⟨.string, String.ofList (Text.undouble inner)⟩
  | none, some (name, inner) =>
    (kindOfName text name inner).map fun kind => ⟨kind, String.ofList inner⟩
  | none, none => parseNumber text

/-- The kind and the plain text of a literal. -/
def parse (text : String) : Except LiteralError Literal :=
  if text = "null" then .ok ⟨.null, text⟩
  else if text = "true" ∨ text = "false" then .ok ⟨.boolean, text⟩
  else parseChars text.toList

/-- The literal of a kind and a plain text. -/
def render (kind : Kind) (text : String) : String :=
  match kind with
  | .string => "'" ++ String.ofList (Text.double text.toList) ++ "'"
  | .guid => "guid'" ++ text ++ "'"
  | .dateTime => "datetime'" ++ text ++ "'"
  | .dateTimeOffset => "datetimeoffset'" ++ text ++ "'"
  | .time => "time'" ++ text ++ "'"
  | .binary => "X'" ++ text ++ "'"
  | .int64 => text ++ "L"
  | .decimal => text ++ "M"
  | .double => text ++ "D"
  | .single => text ++ "F"
  | .boolean | .byte | .sbyte | .int16 | .int32 | .null => text

end Literal

end EntityQuery
