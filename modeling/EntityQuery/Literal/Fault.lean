import EntityQuery.Model.Kind
import EntityQuery.Number.Decimal
import EntityQuery.Number.Floating
import EntityQuery.Octets.Guid

/-!
# What is wrong with a literal

## Main definitions

* `Fault`: why a text is no value
* `LiteralError`: what is wrong with a literal
-/

namespace EntityQuery

/-- Why a text is no value. -/
inductive Fault where
  | integer (fault : IntegerFault)
  | decimal (fault : DecimalFault)
  | floating (fault : FloatingFault)
  | hex (fault : HexFault)
  | guid (fault : GuidFault)
  /-- No date with a time of day. -/
  | momentShape
  /-- No offset from universal time. -/
  | offsetMissing
  /-- An offset that no clock has. -/
  | offsetInvalid
  /-- A moment outside the calendar by universal time. -/
  | momentRange
  /-- No time of day. -/
  | clockShape
  | booleanExpected
  | nullExpected
  /-- No character where one is needed. -/
  | emptyValue
  deriving DecidableEq, Repr

/-- The wording of a fault. -/
def Fault.message : Fault → String
  | integer fault => fault.message
  | decimal fault => fault.message
  | floating fault => fault.message
  | hex fault => fault.message
  | guid fault => fault.message
  | momentShape => "expected yyyy-MM-ddTHH:mm[:ss[.fffffff]]"
  | offsetMissing => "missing time zone offset"
  | offsetInvalid => "invalid offset"
  | momentRange => "ambiguous local time"
  | clockShape => "expected PT[nH][nM][nS] below 24 hours"
  | booleanExpected => "expected true or false"
  | nullExpected => "expected null"
  | emptyValue => "empty value"

/-- What is wrong with a literal. -/
inductive LiteralError where
  /-- The text has none of the forms of a literal. -/
  | malformed (text : String)
  /-- The text has the form of a kind but is no value of it. -/
  | invalid (text : String) (kind : Kind) (fault : Fault)
  deriving DecidableEq, Repr

/-- The wording of an error. -/
def LiteralError.message : LiteralError → String
  | malformed text => "malformed URI literal: " ++ text
  | invalid text kind fault =>
    "invalid " ++ kind.label ++ " value '" ++ text ++ "': " ++ fault.message

end EntityQuery
