import EntityQuery.Model.Property
import EntityQuery.Tree.Operator

/-!
# Query trees

The trees of filters and orderings, and the predicates of entity keys.

## Main definitions

* `Expression`: a node of a filter tree
* `Expression.navigation`: the path from a property over further properties
* `OrderItem`, `KeyPredicate`
-/

namespace EntityQuery

/-- A node of a filter tree. -/
inductive Expression where
  /-- A whole filter. -/
  | filter (expression : Expression)
  | unary (operator : UnaryOperator) (operand : Expression)
  | binary (operator : BinaryOperator) (left right : Expression)
  | property (property : Property)
  /-- A property reached over a path. -/
  | member (path property : Expression)
  /-- A literal as it stands in the address, with the kind declared for it. -/
  | literal (text : String) (kind : Kind)
  | method (method : Method) (arguments : List Expression)
  deriving Repr

namespace Expression

/-- The literal `null`. -/
def nullLiteral : Expression := literal "null" .null

/-- The path from a property over further properties, in order. -/
def navigation (root : Property) (steps : List Property) : Expression :=
  steps.foldl (fun path step => member path (property step)) (property root)

/-- Whether a node is a literal of the kind of `null`. -/
def isNullLiteral : Expression → Bool
  | literal _ kind => kind == .null
  | _ => false

/-- Whether a node is a boolean literal. -/
def isBooleanLiteral : Expression → Bool
  | literal _ kind => kind == .boolean
  | _ => false

/-- The method of a method call. -/
def method? : Expression → Option Method
  | method m _ => some m
  | _ => none

/-- The name of a kind of node. -/
def nodeName : Expression → String
  | filter _ => "filter"
  | unary _ _ => "unary"
  | binary _ _ _ => "binary"
  | property _ => "property"
  | member _ _ => "member"
  | literal _ _ => "literal"
  | method _ _ => "method"

end Expression

/-- An entry of an ordering. -/
structure OrderItem where
  expression : Expression
  order : SortOrder := .asc
  deriving Repr

/-- A property of an entity key and the value that the address gives for it. -/
structure KeyPredicate where
  property : Property
  literal : String
  deriving Repr

end EntityQuery
