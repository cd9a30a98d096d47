import EntityQuery.Model.Native

/-!
# Kinds of literals

The simple types of the entity data model, with the kind of the literal `null` among them, the
family that each belongs to, and the native type its values have where a property asks for none.

## Main definitions

* `Kind`, `Kind.label`, `Kind.name`
* `Family`, `Kind.family`: how the literals of a kind become values
* `Kind.native?`: the native type of a kind
-/

namespace EntityQuery

/-- A simple type of the entity data model. -/
inductive Kind where
  | binary
  | boolean
  | byte
  | dateTime
  | dateTimeOffset
  | decimal
  | double
  | guid
  | int16
  | int32
  | int64
  | sbyte
  | single
  | string
  | time
  | null
  deriving DecidableEq, Repr

/-- What the kinds that become values in the same way have in common. -/
inductive Family where
  | text
  | instant
  | time
  | numeric
  | other
  deriving DecidableEq, Repr

namespace Kind

/-- The name of a kind in documents. -/
def name : Kind → String
  | binary => "Binary"
  | boolean => "Boolean"
  | byte => "Byte"
  | dateTime => "DateTime"
  | dateTimeOffset => "DateTimeOffset"
  | decimal => "Decimal"
  | double => "Double"
  | guid => "Guid"
  | int16 => "Int16"
  | int32 => "Int32"
  | int64 => "Int64"
  | sbyte => "SByte"
  | single => "Single"
  | string => "String"
  | time => "Time"
  | null => "Null"

/-- The name of a kind in error messages, qualified by its model. -/
def label : Kind → String
  | null => "Null"
  | kind => "Edm." ++ kind.name

/-- All kinds. -/
def all : List Kind :=
  [binary, boolean, byte, dateTime, dateTimeOffset, decimal, double, guid, int16, int32, int64,
    sbyte, single, string, time, null]

/-- The kind of a name. -/
def ofName? (name : String) : Option Kind := all.find? (·.name == name)

/-- The family of a kind. -/
def family : Kind → Family
  | string | guid => .text
  | dateTime | dateTimeOffset => .instant
  | time => .time
  | binary | byte | decimal | double | int16 | int32 | int64 | sbyte | single => .numeric
  | boolean | null => .other

/-- The native type of a kind. An unsigned byte needs the wider type. -/
def native? : Kind → Option NativeType
  | binary => some .byteArray
  | boolean => some .boolean
  | byte => some .short
  | dateTime => some .timestamp
  | dateTimeOffset => some .timestampWithOffset
  | decimal => some .decimal
  | double => some .double
  | guid => some .string
  | int16 => some .short
  | int32 => some .int
  | int64 => some .long
  | sbyte => some .byte
  | single => some .float
  | string => some .string
  | time => some .time
  | null => none

end Kind

/-- The name of a family in documents. -/
def Family.name : Family → String
  | .text => "Text"
  | .instant => "Instant"
  | .time => "Time"
  | .numeric => "Numeric"
  | .other => "Other"

end EntityQuery
