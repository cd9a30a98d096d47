import EntityQuery.Document.Name
import EntityQuery.Document.Record
import EntityQuery.Model.Property

/-!
# Properties in JSON

The JSON form of properties and of what they consist of. Readers take every form of a record;
writers write all fields, absent options as `null`.

## Main definitions

* `Kind.ofJson?`, `NativeType.ofJson?`: names
* `Property.ofJson?`, `Property.toJson`
-/

namespace EntityQuery

open Json

/-! ## Names -/

/-- Reads the name of a kind. -/
def Kind.ofJson? (access : Access) (j : Json) : Option Kind := (j.name? access).bind Kind.ofName?

/-- Reads the name of a native type. -/
def NativeType.ofJson? (access : Access) (j : Json) : Option NativeType :=
  (j.name? access).bind NativeType.ofName?

/-! ## Properties -/

/-- Reads the type of a property, an object with one field. -/
def PropertyType.ofJson? (access : Access) : Json → Option PropertyType
  | object [("simple", j)] => (Kind.ofJson? access j).map simple
  | object [("complex", j)] => j.text?.map complex
  | object [("entity", j)] => j.text?.map entity
  | _ => none

/-- The JSON form of the type of a property. -/
def PropertyType.toJson : PropertyType → Json
  | simple kind => object [("simple", string kind.name)]
  | complex name => object [("complex", string name)]
  | entity name => object [("entity", string name)]

/-- Reads a mapping, all fields of which have defaults. -/
def Mapping.ofJson? (access : Access) (j : Json) : Option Mapping := do
  if !j.isRecord 5 then none
  let storedName ← j.default? "internal_name" 0 (optional? text?) none
  let expression ← j.default? "internal_expression" 1 (optional? text?) none
  let native ← j.default? "native_type" 2 (optional? (NativeType.ofJson? access)) none
  let embedded ← j.default? "embedded" 3 bool? false
  let virtual ← j.default? "virtual" 4 bool? false
  return { storedName, expression, native, embedded, virtual }

/-- The JSON form of an optional text. -/
def optionalText : Option String → Json
  | some text => string text
  | none => null

/-- The JSON form of a mapping. -/
def Mapping.toJson (m : Mapping) : Json :=
  object
    [("internal_name", optionalText m.storedName),
      ("internal_expression", optionalText m.expression),
      ("native_type", optionalText (m.native.map NativeType.name)),
      ("embedded", bool m.embedded),
      ("virtual", bool m.virtual)]

/-- Reads a property and its parts. -/
def Property.ofJson? (access : Access) (j : Json) : Option Property := do
  if !j.isRecord 4 then none
  let name ← (← j.required? "name" 0).1.text?
  let type ← PropertyType.ofJson? access (← j.required? "edm_type" 1).1
  let mapping ← j.default? "mapping" 2 (optional? (Mapping.ofJson? access)) none
  match ← j.field? "composite" 3 with
  | none => return { name, type, mapping, parts := [] }
  | some list =>
    let items ← list.1.items?
    let parts ← items.mapM fun (item : list.1.Below) =>
      have : sizeOf item.1 < sizeOf j := Nat.lt_trans item.2 list.2
      Property.ofJson? access item.1
    return { name, type, mapping, parts }
termination_by sizeOf j

/-- The JSON form of an optional mapping. -/
def optionalMapping : Option Mapping → Json
  | some m => m.toJson
  | none => null

mutual

/-- The JSON form of a property. -/
def Property.toJson : Property → Json
  | ⟨name, type, mapping, parts⟩ =>
    object
      [("name", string name), ("edm_type", type.toJson), ("mapping", optionalMapping mapping),
        ("composite", array (propertiesToJson parts))]

/-- The JSON forms of properties. -/
def propertiesToJson : List Property → List Json
  | [] => []
  | p :: ps => p.toJson :: propertiesToJson ps

end

end EntityQuery
