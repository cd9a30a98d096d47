/-!
# Native types

The types of a backend in which values are bound to placeholders.

## Main definitions

* `NativeType`, `NativeType.isNumeric`, `NativeType.label`
-/

namespace EntityQuery

/-- A type of the backend. -/
inductive NativeType where
  | string
  | char
  | charArray
  | boolean
  | byte
  | byteArray
  | short
  | int
  | long
  | float
  | double
  | decimal
  | bigInteger
  | timestamp
  | timestampWithOffset
  | time
  deriving DecidableEq, Repr

namespace NativeType

/-- Whether a type belongs to the numeric family; octets count among it. -/
def isNumeric : NativeType → Bool
  | byte | byteArray | short | int | long | float | double | decimal | bigInteger => true
  | string | char | charArray | boolean | timestamp | timestampWithOffset | time => false

/-- The name of a type in error messages. -/
def label : NativeType → String
  | string => "String"
  | char => "Char"
  | charArray => "CharArray"
  | boolean => "Boolean"
  | byte => "Byte"
  | byteArray => "ByteArray"
  | short => "Short"
  | int => "Int"
  | long => "Long"
  | float => "Float"
  | double => "Double"
  | decimal => "Decimal"
  | bigInteger => "BigInteger"
  | timestamp => "Timestamp"
  | timestampWithOffset => "TimestampWithOffset"
  | time => "Time"

/-- The name of a type in documents. -/
def name : NativeType → String
  | string => "string"
  | char => "char"
  | charArray => "char_array"
  | boolean => "boolean"
  | byte => "byte"
  | byteArray => "byte_array"
  | short => "short"
  | int => "int"
  | long => "long"
  | float => "float"
  | double => "double"
  | decimal => "decimal"
  | bigInteger => "big_integer"
  | timestamp => "timestamp"
  | timestampWithOffset => "timestamp_with_offset"
  | time => "time"

/-- All types. -/
def all : List NativeType :=
  [string, char, charArray, boolean, byte, byteArray, short, int, long, float, double, decimal,
    bigInteger, timestamp, timestampWithOffset, time]

/-- The type of a name. -/
def ofName? (name : String) : Option NativeType := all.find? (·.name == name)

end NativeType

end EntityQuery
