import EntityQuery.Calendar.Moment
import EntityQuery.Model.Native
import EntityQuery.Number.Decimal
import EntityQuery.Number.Shortest
import EntityQuery.Octets.Hex

/-!
# Values

The values that are bound to placeholders, each of a native type.

## Main definitions

* `Value`, `Value.native`, `Value.text`
-/

namespace EntityQuery

/-- A value of the backend. -/
inductive Value where
  | string (text : String)
  | char (c : Char)
  | charArray (chars : List Char)
  | byte (n : Signed 8)
  | byteArray (data : List UInt8)
  | short (n : Signed 16)
  | int (n : Signed 32)
  | long (n : Signed 64)
  /-- A number of the format of 32 bits. -/
  | float (x : Floating)
  /-- A number of the format of 64 bits. -/
  | double (x : Floating)
  | decimal (d : Decimal)
  | bigInteger (n : Int)
  | timestamp (moment : Moment)
  | timestampWithOffset (moment : OffsetMoment)
  | time (clock : Clock)
  deriving DecidableEq, Repr

namespace Value

/-- The native type of a value. -/
def native : Value → NativeType
  | string _ => .string
  | char _ => .char
  | charArray _ => .charArray
  | byte _ => .byte
  | byteArray _ => .byteArray
  | short _ => .short
  | int _ => .int
  | long _ => .long
  | float _ => .float
  | double _ => .double
  | decimal _ => .decimal
  | bigInteger _ => .bigInteger
  | timestamp _ => .timestamp
  | timestampWithOffset _ => .timestampWithOffset
  | time _ => .time

/-- The notation of a value. Texts stand in single quotes as they are. -/
def text : Value → String
  | string text => "'" ++ text ++ "'"
  | char c => "'" ++ String.singleton c ++ "'"
  | charArray chars => "'" ++ String.ofList chars ++ "'"
  | byte n => n.text
  | byteArray data => "X'" ++ String.ofList (Hex.encode data) ++ "'"
  | short n => n.text
  | int n => n.text
  | long n => n.text
  | float x => x.text .single
  | double x => x.text .double
  | decimal d => d.text
  | bigInteger n => toString n
  | timestamp moment => String.ofList moment.text
  | timestampWithOffset moment => String.ofList moment.text
  | time clock => String.ofList clock.text

end Value

end EntityQuery
