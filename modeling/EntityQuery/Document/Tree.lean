import EntityQuery.Document.Property
import EntityQuery.Tree.Expression

/-!
# Trees in JSON

The JSON form of filter trees, of the entries of orderings and of the predicates of keys. The kind
of a node stands in a field of its own, which may follow the others, so that a tree is gathered
whole before any of it is read.

## Main definitions

* `Expression.ofJson?`, `Expression.toJson`
* `OrderItem.ofJson?`, `KeyPredicate.ofJson?`, and their writers
-/

namespace EntityQuery

open Json

/-! ## Names -/

/-- Reads the name of an operator. -/
def UnaryOperator.ofJson? (access : Access) (j : Json) : Option UnaryOperator :=
  (j.name? access).bind UnaryOperator.ofName?

/-- Reads the name of an operator. -/
def BinaryOperator.ofJson? (access : Access) (j : Json) : Option BinaryOperator :=
  (j.name? access).bind BinaryOperator.ofName?

/-- Reads the name of a method. -/
def Method.ofJson? (access : Access) (j : Json) : Option Method :=
  (j.name? access).bind Method.ofName?

/-- Reads the name of a direction. -/
def SortOrder.ofJson? (access : Access) (j : Json) : Option SortOrder :=
  (j.name? access).bind SortOrder.ofName?

/-! ## Trees -/

/-- The names of the kinds of nodes. -/
def Expression.nodeNames : List String :=
  ["filter", "unary", "binary", "property", "member", "literal", "method"]

/-- Reads the kind of a node. Among gathered values the place of a name in the list of all names may
stand for it. -/
def Expression.nodeName? : Access → Json → Option String
  | _, string name => some name
  | .gathered, j => j.word?.bind fun place => nodeNames[place]?
  | .direct, _ => none

/-- Reads a node, by the kind it gives. All values inside a node are gathered. -/
def Expression.decode? (access : Access) (j : Json) : Option Expression := do
  let kind ← nodeName? access (← j.required? "kind" 0).1
  match kind with
  | "filter" =>
    if !j.isRecord 2 then none
    let ⟨e, _⟩ ← j.required? "expression" 1
    return filter (← decode? .gathered e)
  | "unary" =>
    if !j.isRecord 3 then none
    let operator ← UnaryOperator.ofJson? .gathered (← j.required? "operator" 1).1
    let ⟨operand, _⟩ ← j.required? "operand" 2
    return unary operator (← decode? .gathered operand)
  | "binary" =>
    if !j.isRecord 4 then none
    let operator ← BinaryOperator.ofJson? .gathered (← j.required? "operator" 1).1
    let ⟨left, _⟩ ← j.required? "left" 2
    let ⟨right, _⟩ ← j.required? "right" 3
    return binary operator (← decode? .gathered left) (← decode? .gathered right)
  | "property" =>
    if !j.isRecord 2 then none
    return property (← Property.ofJson? .gathered (← j.required? "property" 1).1)
  | "member" =>
    if !j.isRecord 3 then none
    let ⟨path, _⟩ ← j.required? "path" 1
    let ⟨step, _⟩ ← j.required? "property" 2
    return member (← decode? .gathered path) (← decode? .gathered step)
  | "literal" =>
    if !j.isRecord 3 then none
    let text ← (← j.required? "uri_literal" 1).1.text?
    let kind ← Kind.ofJson? .gathered (← j.required? "edm_type" 2).1
    return literal text kind
  | "method" =>
    if !j.isRecord 3 then none
    let m ← Method.ofJson? .gathered (← j.required? "method" 1).1
    let list ← j.required? "parameters" 2
    let items ← list.1.items?
    let arguments ← items.mapM fun (item : list.1.Below) =>
      have : sizeOf item.1 < sizeOf j := Nat.lt_trans item.2 list.2
      decode? .gathered item.1
    return method m arguments
  | _ => none
termination_by sizeOf j

/-- Reads a tree. Nothing in it may be unusable, not even under names that are passed over. -/
def Expression.ofJson? (j : Json) : Option Expression :=
  if j.isUsable then decode? .direct j else none

namespace Expression

mutual

/-- The JSON form of a tree. -/
def toJson : Expression → Json
  | filter e => object [("kind", string "filter"), ("expression", e.toJson)]
  | unary operator operand =>
    object
      [("kind", string "unary"), ("operator", string operator.name), ("operand", operand.toJson)]
  | binary operator left right =>
    object
      [("kind", string "binary"), ("operator", string operator.name), ("left", left.toJson),
        ("right", right.toJson)]
  | property p => object [("kind", string "property"), ("property", p.toJson)]
  | member path step =>
    object [("kind", string "member"), ("path", path.toJson), ("property", step.toJson)]
  | literal text kind =>
    object
      [("kind", string "literal"), ("uri_literal", string text), ("edm_type", string kind.name)]
  | method m arguments =>
    object
      [("kind", string "method"), ("method", string m.name),
        ("parameters", array (listToJson arguments))]

/-- The JSON forms of trees. -/
def listToJson : List Expression → List Json
  | [] => []
  | e :: es => e.toJson :: listToJson es

end

end Expression

/-! ## Orderings and keys -/

/-- Reads an entry of an ordering. -/
def OrderItem.ofJson? (j : Json) : Option OrderItem := do
  if !j.isRecord 2 then none
  let expression ← Expression.ofJson? (← j.required? "expression" 0).1
  let order ← j.default? "sort_order" 1 (SortOrder.ofJson? .direct) .asc
  return { expression, order }

/-- The JSON form of an entry of an ordering. -/
def OrderItem.toJson (item : OrderItem) : Json :=
  object [("expression", item.expression.toJson), ("sort_order", string item.order.name)]

/-- Reads a predicate of a key. -/
def KeyPredicate.ofJson? (j : Json) : Option KeyPredicate := do
  if !j.isRecord 2 then none
  let property ← Property.ofJson? .direct (← j.required? "property" 0).1
  let literal ← (← j.required? "literal" 1).1.text?
  return { property, literal }

/-- The JSON form of a predicate of a key. -/
def KeyPredicate.toJson (k : KeyPredicate) : Json :=
  object [("property", k.property.toJson), ("literal", string k.literal)]

end EntityQuery
