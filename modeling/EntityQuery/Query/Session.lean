import EntityQuery.Query.Filter
import EntityQuery.Query.Key
import EntityQuery.Query.Listing

/-!
# Compilation over a ledger

Filters and keys may share one ledger, and their placeholders then form one sequence. A filter or a
key that fails to compile may have bound values already, so the ledger is reset.

## Main definitions

* `Ledger.addFilter`, `Ledger.addKey`, `Ledger.addText`: compilation over a ledger
* `compileFilter`, `compileKey`: compilation over a ledger of their own
-/

namespace EntityQuery

namespace Ledger

/-- Runs a computation over a ledger and resets the ledger where it fails. -/
def run {α : Type} (ledger : Ledger) (computation : Compile α) :
    Except QueryError α × Ledger :=
  match computation.over ledger with
  | (.ok a, ledger) => (.ok a, ledger)
  | (.error e, ledger) => (.error e, ledger.reset)

/-- Compiles a filter over a ledger. -/
def addFilter (ledger : Ledger) (scope : Scope) (expression : Expression) :
    Except QueryError String × Ledger :=
  ledger.run (filterText scope expression)

/-- Compiles a key over a ledger. -/
def addKey (ledger : Ledger) (scope : Scope) (predicates : List KeyPredicate) :
    Except QueryError (Option String) × Ledger :=
  ledger.run (keyCondition? scope predicates)

/-- Encodes a plain text over a ledger. -/
def addText (ledger : Ledger) (marker text : String) (kind : Kind) (native : Option NativeType) :
    Except QueryError String × Ledger :=
  (encodeText marker text kind native).over ledger

end Ledger

/-- A text of a query and the values of its placeholders. -/
structure Fragment where
  text : String
  parameters : Registry
  deriving DecidableEq, Repr

/-- Compiles a filter by itself. -/
def compileFilter (scope : Scope) (expression : Expression) :
    Except QueryError Fragment :=
  match ({} : Ledger).addFilter scope expression with
  | (.ok text, ledger) => .ok ⟨text, ledger.registry⟩
  | (.error e, _) => .error e

/-- Compiles a key by itself. -/
def compileKey (scope : Scope) (predicates : List KeyPredicate) :
    Except QueryError (Option Fragment) :=
  match ({} : Ledger).addKey scope predicates with
  | (.ok text, ledger) => .ok (text.map (⟨·, ledger.registry⟩))
  | (.error e, _) => .error e

end EntityQuery
