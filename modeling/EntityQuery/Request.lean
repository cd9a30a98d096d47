import EntityQuery.Document.Loading
import EntityQuery.Document.Tree
import EntityQuery.Query.Session

/-!
# Requests

A request bundles the parts of one query: the alias of its table, the key of an entity, a filter, an
ordering and a projection. Key and filter share one sequence of placeholders.

## Main definitions

* `Request`, `Request.ofJson?`, `Request.load`
* `Request.compile`: the parts of a query, or the first failure among them
* `Response.condition?`: the condition of key and filter together
-/

namespace EntityQuery

/-- The parts of one query. -/
structure Request where
  alias? : Option String := none
  filter? : Option Expression := none
  keys : List KeyPredicate := []
  orderBy : List OrderItem := []
  /-- The attributes selected; the whole entity where there are none. -/
  select : List String := []
  deriving Repr

/-- The texts of one query and the values of its placeholders. -/
structure Response where
  select? : Option String
  keys? : Option String
  filter? : Option String
  orderBy? : Option String
  parameters : Registry
  deriving DecidableEq, Repr

namespace Request

/-- Reads the items of an array. -/
def listOf? {α : Type} (ofJson? : Json → Option α) : Json → Option (List α)
  | .array items => items.mapM ofJson?
  | _ => none

/-- Reads a request, all fields of which have defaults. -/
def ofJson? (j : Json) : Option Request := do
  if !j.isRecord 5 then none
  let alias? ← j.default? "alias" 0 (Json.optional? Json.text?) none
  let filter? ← j.default? "filter" 1 (Json.optional? Expression.ofJson?) none
  let keys ← j.default? "keys" 2 (listOf? KeyPredicate.ofJson?) []
  let orderBy ← j.default? "order_by" 3 (listOf? OrderItem.ofJson?) []
  let select ← j.default? "select" 4 (listOf? Json.text?) []
  return { alias?, filter?, keys, orderBy, select }

/-- Loads a request from a document. -/
def load (text? : Option String) : Except DocumentError Request := Document.read ofJson? text?

/-- The ordering of a request; an empty one has no text. -/
def orderText? (scope : Scope) (items : List OrderItem) :
    Except QueryError (Option String) :=
  if items.isEmpty then .ok none else (orderText scope items).map some

/-- Compiles the parts of a request. An alias given from outside takes the place of its own. -/
def compile (request : Request) (settings : Settings) (alias? : Option String) :
    Except QueryError Response := do
  let scope : Scope := ⟨alias?.or request.alias?, settings⟩
  let (keys, ledger) := ({} : Ledger).addKey scope request.keys
  let keys? ← keys
  let (filter?, ledger) ← match request.filter? with
    | none => .ok (none, ledger)
    | some expression =>
      let (text, ledger) := ledger.addFilter scope expression
      text.map fun text => (some text, ledger)
  let orderBy? ← orderText? scope request.orderBy
  let select? := scope.alias?.map fun table => selectText table request.select
  return { select?, keys?, filter?, orderBy?, parameters := ledger.registry }

end Request

/-- The condition of key and filter together. -/
def Response.condition? (r : Response) : Option String :=
  match r.keys?, r.filter? with
  | some keys, some filter => some (keys ++ " AND " ++ filter)
  | some keys, none => some keys
  | none, filter => filter

end EntityQuery
