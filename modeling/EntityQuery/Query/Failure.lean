import EntityQuery.Literal.Fault
import EntityQuery.Tree.Operator

/-!
# Failures of compilation

## Main definitions

* `Feature`: what a filter may contain but a condition cannot express
* `MappingFault`: what is wrong with the mapping of a property
* `QueryError`: why a tree does not compile, with its category and its wording

## Main results

* `bind_eq_ok`, `map_eq_ok`, `mapError_eq_ok`: where a computation that may fail succeeds
* `bind_eq_error`: where one in two steps fails
-/

namespace EntityQuery

/-- What a tree may contain but a query cannot express. -/
inductive Feature where
  | operator (operator : BinaryOperator)
  | method (method : Method)
  /-- An ordering by a node of another kind than a property or a path. -/
  | ordering (node : String)
  deriving DecidableEq, Repr

/-- The wording of a feature. -/
def Feature.label : Feature → String
  | operator op => "binary operator " ++ op.label
  | method m => "method " ++ m.label
  | ordering node => "ordering by " ++ node ++ " expression"

/-- What is wrong with the mapping of a property, or with the place it is used in. -/
inductive MappingFault where
  /-- Nothing is stored for the property. -/
  | noColumn (property : String)
  /-- The embedded property has no owner in its path. -/
  | noOwner (property : String)
  /-- A path over several properties has no alias to start from. -/
  | noAlias
  /-- A step of a path is no property. -/
  | noStep
  /-- The composite property is compared with something other than a literal. -/
  | noLiteral (property : String)
  /-- The part of the composite property has no simple type. -/
  | partType (part property : String)
  /-- The property of a key has no simple type. -/
  | keyType (property : String)
  deriving DecidableEq, Repr

/-- The wording of a fault. -/
def MappingFault.message : MappingFault → String
  | noColumn property => "virtual property " ++ property ++ " has no column"
  | noOwner property => "embedded property " ++ property ++ " has no member path"
  | noAlias => "navigation path requires a table alias"
  | noStep => "navigation step is not a property"
  | noLiteral property => "composite property " ++ property ++ " must be compared with a literal"
  | partType part property =>
    "composite member " ++ part ++ " of " ++ property ++ " is not a simple type"
  | keyType property => "key property " ++ property ++ " is not a simple type"

/-- Why a tree does not compile. -/
inductive QueryError where
  | unsupported (feature : Feature)
  /-- A literal is malformed or no value of its kind. -/
  | literal (text : String) (kind : Kind) (cause : LiteralError)
  /-- A text is no value of a native type. -/
  | value (text : String) (native : NativeType) (fault : Fault)
  /-- A number has no numeric native type. -/
  | unmapped (kind : Kind) (native : Option NativeType)
  | mapping (fault : MappingFault)
  /-- A method has too few or too many arguments. -/
  | arguments (method : Method) (actual : Nat)
  /-- A pattern test is combined with a boolean literal other than by `eq`. -/
  | misuse (operator : BinaryOperator) (method : Method)
  deriving DecidableEq, Repr

/-- What callers distinguish among failures. -/
inductive ErrorCategory where
  /-- Queries cannot express it. -/
  | unsupported
  /-- A literal or a mapping is wrong. -/
  | input
  /-- It means nothing. -/
  | misuse
  deriving DecidableEq, Repr

namespace QueryError

/-- The category of an error. -/
def category : QueryError → ErrorCategory
  | unsupported _ => .unsupported
  | misuse _ _ => .misuse
  | literal _ _ _ | value _ _ _ | unmapped _ _ | mapping _ | arguments _ _ => .input

/-- Whether an error is about something that queries cannot express. -/
def isUnsupported (e : QueryError) : Bool := e.category == .unsupported

/-- The name of an optional native type in error messages. -/
def nativeLabel : Option NativeType → String
  | some type => "Some(" ++ type.label ++ ")"
  | none => "None"

/-- The wording of an error. -/
def message : QueryError → String
  | unsupported feature => "Not implemented: " ++ feature.label
  | literal text kind cause =>
    "Invalid literal '" ++ text ++ "' for " ++ kind.label ++ ": " ++ cause.message
  | value text type fault =>
    "Cannot convert '" ++ text ++ "' to " ++ type.label ++ ": " ++ fault.message
  | unmapped kind type =>
    "Unmapped native numeric type " ++ nativeLabel type ++ " for " ++ kind.label
  | mapping fault => "Invalid mapping: " ++ fault.message
  | arguments method actual =>
    "Method " ++ method.label ++ " expects " ++ method.arity.label ++ " parameters, got "
      ++ toString actual
  | misuse operator method =>
    "Operator " ++ operator.label ++ " is not allowed on " ++ method.label ++ ", only eq true/false"

end QueryError

/-! ## Success and failure -/

theorem bind_eq_ok {ε α β : Type} {x : Except ε α} {f : α → Except ε β} {b : β} :
    (x >>= f) = .ok b ↔ ∃ a, x = .ok a ∧ f a = .ok b := by
  cases x <;> simp [bind, Except.bind]

theorem bind_eq_error {ε α β : Type} {x : Except ε α} {f : α → Except ε β} {e : ε} :
    (x >>= f) = .error e ↔ x = .error e ∨ ∃ a, x = .ok a ∧ f a = .error e := by
  cases x <;> simp [bind, Except.bind]

theorem map_eq_ok {ε α β : Type} {x : Except ε α} {f : α → β} {b : β} :
    x.map f = .ok b ↔ ∃ a, x = .ok a ∧ f a = b := by
  cases x <;> simp [Except.map]

theorem mapError_eq_ok {ε ε' α : Type} {x : Except ε α} {f : ε → ε'} {a : α} :
    x.mapError f = .ok a ↔ x = .ok a := by
  cases x with
  | error e => exact ⟨nofun, nofun⟩
  | ok b =>
    constructor
    · intro h
      exact congrArg Except.ok (Except.ok.inj h)
    · intro h
      exact congrArg Except.ok (Except.ok.inj h)

end EntityQuery
