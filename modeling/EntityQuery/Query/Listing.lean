import EntityQuery.Query.Scope

/-!
# Orderings and projections

The lists of a query that bind no value: what its result is ordered by, and what is selected.

## Main definitions

* `orderText`: the ordering by properties and paths
* `keyOrderText`: the ordering by the properties of a key
* `selectText`: the attributes selected
-/

namespace EntityQuery

/-- The text between the entries of an ordering. -/
def orderSeparator : String := " , "

/-- The text between the entries of a projection. -/
def selectSeparator : String := ", "

/-- The text of what an ordering goes by. -/
def orderTarget (scope : Scope) : Expression → Except QueryError String
  | .property p => scope.columnText p
  | .member path property => scope.pathText (.member path property)
  | node => .error (.unsupported (.ordering node.nodeName))

/-- The text of an entry of an ordering. -/
def orderItemText (scope : Scope) (item : OrderItem) : Except QueryError String :=
  (orderTarget scope item.expression).map fun target =>
    match item.order with
    | .asc => target
    | .desc => target ++ " DESC"

/-- The text of an ordering. -/
def orderText (scope : Scope) (items : List OrderItem) : Except QueryError String :=
  (items.mapM (orderItemText scope)).map (String.intercalate orderSeparator)

/-- The ordering by the properties of a key. -/
def keyOrderText (alias? : Option String) (keys : List Property) : String :=
  String.intercalate orderSeparator (keys.map fun p => qualify alias? p.storedName)

/-- The attributes selected; the whole entity where there are none. -/
def selectText (table : String) (fields : List String) : String :=
  if fields.isEmpty then table
  else String.intercalate selectSeparator (fields.map (qualify (some table)))

end EntityQuery
