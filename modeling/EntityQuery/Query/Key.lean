import EntityQuery.Binding.Encoding
import EntityQuery.Text.Quoting
import EntityQuery.Query.Filter

/-!
# Conditions of entity keys

An entity key gives values for properties, as texts of an address. A composite property splits its
text among its parts, which may be composite themselves.

## Main definitions

* `keyText`: the condition of one property
* `keyTexts`, `keyCondition?`: the condition of a whole key

## Main results

* `Scope.keyName_eq_ok`: the name of a stored property
* `keyText_of_simple`, `keyText_of_composite`: the two forms of the condition of a property
* `keyCondition?_singleton`: a key of one property is the condition of that property
-/

namespace EntityQuery

/-- The name of a key property: the stored name after an alias, and the query name without one. -/
def Scope.keyName (scope : Scope) (p : Property) : Except QueryError String :=
  (columnName p).map fun column =>
    qualify scope.alias? (if scope.alias?.isSome then p.storedName else column)

theorem Scope.keyName_eq_ok {scope : Scope} {p : Property} {target : String} :
    scope.keyName p = .ok target ↔ p.isVirtual = false ∧
      qualify scope.alias? (if scope.alias?.isSome then p.storedName else p.queryName) = target := by
  simp [keyName, map_eq_ok, columnName_eq_ok, and_assoc]

/-- The condition of a property without parts. -/
def simpleKeyText (scope : Scope) (p : Property) (text : String) : Compile String := do
  let target ← scope.keyName p
  if text = "null" then return target ++ " IS null"
  else
    match p.kind? with
    | none => throw (.mapping (.keyType p.name))
    | some kind =>
      let value ← encodeText scope.settings.marker text kind p.native?
      return target ++ " = " ++ value

mutual

/-- The condition of a property and the text given for it. -/
def keyText (scope : Scope) : Property → String → Compile String
  | ⟨name, type, mapping, parts⟩, literal => do
    let text := Text.unquote literal
    if parts.isEmpty then simpleKeyText scope ⟨name, type, mapping, parts⟩ text
    else
      let conditions ← keyPartTexts scope parts (slots scope.settings.separator text parts.length)
      return "(" ++ conjunction conditions ++ ")"

/-- The conditions of parts and their slots; an empty slot reads as `null`. -/
def keyPartTexts (scope : Scope) : List Property → List (Option String) → Compile (List String)
  | part :: parts, slot :: slots => do
    let condition ← keyText scope part (slot.getD "null")
    let conditions ← keyPartTexts scope parts slots
    return condition :: conditions
  | _, _ => return []

end

theorem keyText_of_simple {scope : Scope} {p : Property} (simple : p.isComposite = false)
    (literal : String) :
    keyText scope p literal = simpleKeyText scope p (Text.unquote literal) := by
  obtain ⟨name, type, mapping, parts⟩ := p
  have empty : parts.isEmpty = true := by simpa [Property.isComposite] using simple
  rw [keyText, if_pos empty]

theorem keyText_of_composite {scope : Scope} {p : Property} (composite : p.isComposite = true)
    (literal : String) :
    keyText scope p literal = (do
      let slots := slots scope.settings.separator (Text.unquote literal) p.parts.length
      let conditions ← keyPartTexts scope p.parts slots
      return "(" ++ conjunction conditions ++ ")") := by
  obtain ⟨name, type, mapping, parts⟩ := p
  have given : ¬parts.isEmpty = true := by simpa [Property.isComposite] using composite
  rw [keyText, if_neg given]

/-- The conditions of the properties of a key. -/
def keyTexts (scope : Scope) : List KeyPredicate → Compile (List String)
  | [] => return []
  | predicate :: predicates => do
    let condition ← keyText scope predicate.property predicate.literal
    let conditions ← keyTexts scope predicates
    return condition :: conditions

/-- The condition of a key; an empty key has none. -/
def keyCondition? (scope : Scope) (predicates : List KeyPredicate) :
    Compile (Option String) := do
  if predicates.isEmpty then return none
  else
    let conditions ← keyTexts scope predicates
    return some (conjunction conditions)

/-- A key of one property is the condition of that property. -/
theorem keyCondition?_singleton {scope : Scope} (p : Property) (literal : String) :
    keyCondition? scope [⟨p, literal⟩] = some <$> keyText scope p literal := by
  simp [keyCondition?, keyTexts, conjunction]

end EntityQuery
