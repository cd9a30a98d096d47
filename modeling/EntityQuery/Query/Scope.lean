import EntityQuery.Query.Failure
import EntityQuery.Query.Settings
import EntityQuery.Tree.Expression

/-!
# Names in a query

Properties are named after the alias of their table, where there is one, and paths over
several properties always are.

## Main definitions

* `Scope`: the alias and the settings of a query
* `Scope.qualify`, `Scope.columnText`: the name of a property
* `Scope.pathText`: the name of a path

## Main results

* `Scope.columnText_eq_ok`, `Scope.pathText_eq_ok`: which properties and paths have a name
* `stepNames_induct`: induction over the steps of a path
-/

namespace EntityQuery

/-- The alias and the settings of a query. -/
structure Scope where
  alias? : Option String := none
  settings : Settings := {}
  deriving DecidableEq, Repr

/-- A name after an alias, where there is one. -/
def qualify (alias? : Option String) (name : String) : String :=
  match alias? with
  | some table => table ++ "." ++ name
  | none => name

/-- The query name of a property that is stored. -/
def columnName (p : Property) : Except QueryError String :=
  if p.isVirtual then .error (.mapping (.noColumn p.name)) else .ok p.queryName

/-- The name of one step of a path. -/
def stepName : Expression → Except QueryError String
  | .property p => columnName p
  | _ => .error (.mapping .noStep)

/-- The names of the steps of a path, in order. The last step is looked at first. -/
def stepNames : Expression → Except QueryError (List String)
  | .member path step => do
    let last ← stepName step
    let names ← stepNames path
    return names ++ [last]
  | step => do
    let name ← stepName step
    return [name]

theorem columnName_eq_ok {p : Property} {name : String} :
    columnName p = .ok name ↔ p.isVirtual = false ∧ p.queryName = name := by
  cases h : p.isVirtual <;> simp [columnName, h]

theorem stepName_eq_ok {step : Expression} {name : String} :
    stepName step = .ok name ↔ ∃ p, step = .property p ∧ columnName p = .ok name := by
  cases step <;> simp [stepName]

/-- Induction over the steps of a path: each is a stored property, and all but the first come after
a path. -/
theorem stepNames_induct {motive : Expression → List String → Prop}
    (first : ∀ {p name}, columnName p = .ok name → motive (.property p) [name])
    (further : ∀ {path names p name}, stepNames path = .ok names → columnName p = .ok name →
      motive path names → motive (.member path (.property p)) (names ++ [name]))
    {path : Expression} {names : List String} (h : stepNames path = .ok names) :
    motive path names := by
  fun_induction stepNames path generalizing names with
  | case1 path step ih =>
    simp only [bind_eq_ok, pure, Except.pure, Except.ok.injEq] at h
    obtain ⟨last, hl, front, hf, rfl⟩ := h
    obtain ⟨p, rfl, hp⟩ := stepName_eq_ok.1 hl
    exact further hf hp (ih hf)
  | case2 step _ =>
    simp only [bind_eq_ok, pure, Except.pure, Except.ok.injEq] at h
    obtain ⟨name, hn, rfl⟩ := h
    obtain ⟨p, rfl, hp⟩ := stepName_eq_ok.1 hn
    exact first hp

namespace Scope

/-- The text of a stored property. -/
def columnText (scope : Scope) (p : Property) : Except QueryError String :=
  (columnName p).map (qualify scope.alias?)

/-- The text of a path. -/
def pathText (scope : Scope) (path : Expression) : Except QueryError String :=
  match scope.alias? with
  | none => .error (.mapping .noAlias)
  | some table => (stepNames path).map fun names => table ++ "." ++ String.intercalate "." names

theorem columnText_eq_ok {scope : Scope} {p : Property} {text : String} :
    scope.columnText p = .ok text ↔
      p.isVirtual = false ∧ qualify scope.alias? p.queryName = text := by
  simp [columnText, map_eq_ok, columnName_eq_ok, and_assoc]

theorem pathText_eq_ok {scope : Scope} {path : Expression} {text : String} :
    scope.pathText path = .ok text ↔
      ∃ table names, scope.alias? = some table ∧ stepNames path = .ok names ∧
        table ++ "." ++ String.intercalate "." names = text := by
  cases h : scope.alias? <;> simp [pathText, h, map_eq_ok]

end Scope

end EntityQuery
