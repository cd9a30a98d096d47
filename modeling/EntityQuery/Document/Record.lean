import EntityQuery.Document.Json

/-!
# Records in JSON

A record is written as an object of named fields, in any order and with further fields among them,
or as an array of its fields in their declared order, which may end early. A field of an object that
is given twice is refused.

## Main definitions

* `Json.Below`: the values inside a value
* `Json.isRecord`: whether a value can be a record of so many fields
* `Json.field?`, `Json.required?`: the value of a field
* `Json.items?`: the items of an array
-/

namespace EntityQuery.Json

/-- The values inside a value. -/
abbrev Below (j : Json) := { v : Json // sizeOf v < sizeOf j }

/-- The values that some fields have under a name. -/
def values (name : String) (fields : List (String × Json)) : List Json :=
  fields.filterMap fun field => if field.1 = name then some field.2 else none

theorem sizeOf_of_mem_values {name : String} {fields : List (String × Json)} {v : Json}
    (h : v ∈ values name fields) : sizeOf v < sizeOf (object fields) := by
  obtain ⟨⟨key, w⟩, hf, hv⟩ := List.mem_filterMap.1 h
  have hm := List.sizeOf_lt_of_mem hf
  split at hv
  · simp only [Option.some.injEq] at hv
    subst hv
    simp only [Prod.mk.sizeOf_spec, object.sizeOf_spec] at hm ⊢
    omega
  · simp at hv

theorem sizeOf_of_mem_array {items : List Json} {v : Json} (h : v ∈ items) :
    sizeOf v < sizeOf (array items) := by
  have := List.sizeOf_lt_of_mem h
  simp only [array.sizeOf_spec]
  omega

/-- Whether a value can be a record of `count` fields. -/
def isRecord (count : Nat) : Json → Bool
  | object _ => true
  | array items => items.length ≤ count
  | _ => false

/-- The value of a field, inside none where the field is missing; none at all where the field is
given twice or the value is no record. -/
def field? (name : String) (position : Nat) : (j : Json) → Option (Option j.Below)
  | object fields =>
    match h : values name fields with
    | [] => some none
    | [v] => some (some ⟨v, sizeOf_of_mem_values (by rw [h]; exact List.mem_singleton_self v)⟩)
    | _ => none
  | array items =>
    match h : items[position]? with
    | none => some none
    | some v => some (some ⟨v, sizeOf_of_mem_array (List.mem_of_getElem? h)⟩)
  | _ => none

/-- The value of a field that may not be missing. -/
def required? (name : String) (position : Nat) (j : Json) : Option j.Below :=
  (j.field? name position).join

/-- The items of an array. -/
def items? : (j : Json) → Option (List j.Below)
  | array items => some (items.attach.map fun v => ⟨v.1, sizeOf_of_mem_array v.2⟩)
  | _ => none

/-- The text of a string. -/
def text? : Json → Option String
  | string text => some text
  | _ => none

/-- A truth value. -/
def bool? : Json → Option Bool
  | bool b => some b
  | _ => none

/-- A value that may be `null`. -/
def optional? {α : Type} (read? : Json → Option α) : Json → Option (Option α)
  | null => some none
  | j => (read? j).map some

/-- The value of a field that has a default. -/
def default? {α : Type} (name : String) (position : Nat) (read? : Json → Option α) (default : α)
    (j : Json) : Option α :=
  match j.field? name position with
  | none => none
  | some none => some default
  | some (some v) => read? v.1

end EntityQuery.Json
