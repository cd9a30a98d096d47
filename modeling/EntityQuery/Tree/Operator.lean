/-!
# Operators and methods

The operators and methods of query trees, with the tokens and date parts that some of them have in
queries and the numbers of arguments that methods take.

## Main definitions

* `UnaryOperator`, `BinaryOperator`, `Method`, `SortOrder`
* `BinaryOperator.token?`: the token of an operator in conditions
* `Method.arity`, `Method.datePart?`
-/

namespace EntityQuery

/-! ## Operators -/

/-- An operator of one operand. -/
inductive UnaryOperator where
  | not
  | minus
  deriving DecidableEq, Repr

namespace UnaryOperator

/-- The name of an operator in documents. -/
def name : UnaryOperator → String
  | not => "not"
  | minus => "minus"

/-- All operators. -/
def all : List UnaryOperator := [not, minus]

/-- The operator of a name. -/
def ofName? (name : String) : Option UnaryOperator := all.find? (·.name == name)

end UnaryOperator

/-- An operator of two operands. -/
inductive BinaryOperator where
  | and
  | or
  | eq
  | ne
  | lt
  | le
  | gt
  | ge
  | add
  | sub
  | mul
  | div
  | modulo
  | propertyAccess
  deriving DecidableEq, Repr

namespace BinaryOperator

/-- The token of an operator in conditions, where it has one. -/
def token? : BinaryOperator → Option String
  | and => some "AND"
  | or => some "OR"
  | eq => some "="
  | ne => some "<>"
  | lt => some "<"
  | le => some "<="
  | gt => some ">"
  | ge => some ">="
  | add | sub | mul | div | modulo | propertyAccess => none

/-- The spelling of an operator in filters. -/
def label : BinaryOperator → String
  | and => "and"
  | or => "or"
  | eq => "eq"
  | ne => "ne"
  | lt => "lt"
  | le => "le"
  | gt => "gt"
  | ge => "ge"
  | add => "add"
  | sub => "sub"
  | mul => "mul"
  | div => "div"
  | modulo => "mod"
  | propertyAccess => "/"

/-- The name of an operator in documents. -/
def name : BinaryOperator → String
  | modulo => "modulo"
  | propertyAccess => "property_access"
  | operator => operator.label

/-- All operators. -/
def all : List BinaryOperator :=
  [and, or, eq, ne, lt, le, gt, ge, add, sub, mul, div, modulo, propertyAccess]

/-- The operator of a name. -/
def ofName? (name : String) : Option BinaryOperator := all.find? (·.name == name)

/-- Whether an operator compares for equality or inequality. -/
def isEquality : BinaryOperator → Bool
  | eq | ne => true
  | _ => false

end BinaryOperator

/-! ## Methods -/

/-- A method of the filter language. -/
inductive Method where
  | endsWith
  | indexOf
  | startsWith
  | toLower
  | toUpper
  | trim
  | substring
  | substringOf
  | concat
  | length
  | year
  | month
  | day
  | hour
  | minute
  | second
  | round
  | floor
  | ceiling
  deriving DecidableEq, Repr

/-- The numbers of arguments that a method takes. -/
structure Arity where
  least : Nat
  /-- The greatest number, where there is one. -/
  most : Option Nat
  deriving DecidableEq, Repr

namespace Arity

/-- Whether a number of arguments is taken. -/
def admits (arity : Arity) (count : Nat) : Bool :=
  arity.least ≤ count && arity.most.all (count ≤ ·)

/-- The wording of the numbers. -/
def label (arity : Arity) : String :=
  match arity.most with
  | some most =>
    if most = arity.least then toString most
    else toString arity.least ++ " to " ++ toString most
  | none => toString arity.least ++ " or more"

end Arity

namespace Method

/-- The numbers of arguments that a method takes. -/
def arity : Method → Arity
  | substring => ⟨2, some 3⟩
  | endsWith | indexOf | startsWith | substringOf => ⟨2, some 2⟩
  | concat => ⟨2, none⟩
  | toLower | toUpper | trim | length | year | month | day | hour | minute | second | round | floor
  | ceiling => ⟨1, some 1⟩

/-- The part of a date that a method takes out. -/
def datePart? : Method → Option String
  | year => some "YEAR"
  | month => some "MONTH"
  | day => some "DAY"
  | hour => some "HOUR"
  | minute => some "MINUTE"
  | second => some "SECOND"
  | _ => none

/-- The spelling of a method in filters. -/
def label : Method → String
  | endsWith => "endswith"
  | indexOf => "indexof"
  | startsWith => "startswith"
  | toLower => "tolower"
  | toUpper => "toupper"
  | trim => "trim"
  | substring => "substring"
  | substringOf => "substringof"
  | concat => "concat"
  | length => "length"
  | year => "year"
  | month => "month"
  | day => "day"
  | hour => "hour"
  | minute => "minute"
  | second => "second"
  | round => "round"
  | floor => "floor"
  | ceiling => "ceiling"

/-- The name of a method in documents. -/
def name : Method → String
  | endsWith => "ends_with"
  | indexOf => "index_of"
  | startsWith => "starts_with"
  | toLower => "to_lower"
  | toUpper => "to_upper"
  | substringOf => "substring_of"
  | method => method.label

/-- All methods. -/
def all : List Method :=
  [endsWith, indexOf, startsWith, toLower, toUpper, trim, substring, substringOf, concat, length,
    year, month, day, hour, minute, second, round, floor, ceiling]

/-- The method of a name. -/
def ofName? (name : String) : Option Method := all.find? (·.name == name)

end Method

/-! ## Order -/

/-- The direction of an ordering. -/
inductive SortOrder where
  | asc
  | desc
  deriving DecidableEq, Repr

namespace SortOrder

/-- The name of a direction in documents. -/
def name : SortOrder → String
  | asc => "asc"
  | desc => "desc"

/-- All directions. -/
def all : List SortOrder := [asc, desc]

/-- The direction of a name. -/
def ofName? (name : String) : Option SortOrder := all.find? (·.name == name)

end SortOrder

end EntityQuery
