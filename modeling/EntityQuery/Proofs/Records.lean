import EntityQuery.Document.Settings
import EntityQuery.Request

/-!
# Values of fields

The readers of records keep with each value the reason why it is smaller than the record, so that
they may read on inside it. What they read depends on the values alone. Here the readers are stated
in terms of these, which is the form in which records are compared.

## Main definitions

* `Json.value?`, `Json.needed?`: the value of a field
* `Expression.node?`: a node whose kind is known

## Main results

* `Json.default?_eq`: fields with a default
* `Property.ofJson?_eq`, `Expression.decode?_eq`: properties and trees
-/

namespace EntityQuery

namespace Json

/-- The value of a field, inside none where the field is missing; none at all where the field is
given twice or the value is no record. -/
def value? (name : String) (position : Nat) : Json → Option (Option Json)
  | object fields =>
    match values name fields with
    | [] => some none
    | [v] => some (some v)
    | _ => none
  | array items => some items[position]?
  | _ => none

/-- The value of a field that may not be missing. -/
def needed? (name : String) (position : Nat) (j : Json) : Option Json :=
  (j.value? name position).join

variable {α : Type} {name : String} {position : Nat} {j : Json}

theorem value?_eq : j.value? name position = (j.field? name position).map (·.map (·.1)) := by
  cases j with
  | object fields =>
    rw [value?, field?]
    split <;> split <;> simp_all
  | array items =>
    rw [value?, field?]
    split <;> simp_all
  | null | bool | number | string | unusable => rfl

theorem needed?_eq : j.needed? name position = (j.required? name position).map (·.1) := by
  rw [needed?, value?_eq, required?]
  rcases j.field? name position with _ | _ | v <;> rfl

theorem default?_eq {read? : Json → Option α} {default : α} :
    j.default? name position read? default =
      (j.value? name position).bind fun entry => entry.elim (some default) read? := by
  rw [value?_eq, default?]
  rcases j.field? name position with _ | _ | v <;> rfl

theorem optional?_of_ne {read? : Json → Option α} (given : j ≠ null) :
    optional? read? j = (read? j).map some := by
  cases j with
  | null => exact absurd rfl given
  | bool | number | string | array | object | unusable => rfl

/-- The items of an array are read one by one. -/
theorem bind_items? (read? : Json → Option α) :
    (j.items?.bind fun items => items.mapM fun item => read? item.1) =
      Request.listOf? read? j := by
  cases j with
  | array items =>
    show List.mapM _ (items.attach.map _) = items.mapM read?
    have whole : items.mapM read? = (items.attach.map Subtype.val).mapM read? := by
      rw [items.attach_map_subtype_val]
    rw [whole, List.mapM_map, List.mapM_map]
    rfl
  | null | bool | number | string | object | unusable => rfl

/-! ## Values of literal documents -/

section Written

variable {key : String} {v : Json} {entries : List (String × Json)}

@[simp] theorem isRecord_object (count : Nat) : (object entries).isRecord count = true := rfl

@[simp] theorem values_nil : values name [] = [] := rfl

@[simp] theorem values_cons : values name ((key, v) :: entries) =
    if key = name then v :: values name entries else values name entries := by
  by_cases same : key = name <;> simp [values, same]

@[simp] theorem value?_object : (object entries).value? name position =
    match values name entries with
    | [] => some none
    | [v] => some (some v)
    | _ => none := rfl

end Written

/-! ## Usable values -/

@[simp] theorem isUsable_string (text : String) : (string text).isUsable = true := rfl

theorem areUsable_eq_all (items : List Json) : areUsable items = items.all (·.isUsable) := by
  induction items with
  | nil => rfl
  | cons item items ih => rw [areUsable, ih, List.all_cons]

theorem haveUsable_eq_all (entries : List (String × Json)) :
    haveUsable entries = entries.all (·.2.isUsable) := by
  induction entries with
  | nil => rfl
  | cons entry entries ih => rw [haveUsable, ih, List.all_cons]

@[simp] theorem isUsable_array (items : List Json) :
    (array items).isUsable = items.all (·.isUsable) := by
  rw [isUsable, areUsable_eq_all]

@[simp] theorem isUsable_object (entries : List (String × Json)) :
    (object entries).isUsable = entries.all (·.2.isUsable) := by
  rw [isUsable, haveUsable_eq_all]

/-! ## Changed records -/

section Changed

variable {key : String} {v : Json} {entries entries' : List (String × Json)}

theorem values_eq_nil (absent : ∀ entry ∈ entries, entry.1 ≠ name) : values name entries = [] := by
  rw [values, List.filterMap_eq_nil_iff]
  intro entry hm
  rw [if_neg (absent entry hm)]

/-- The value of a field does not depend on the order of the fields. -/
theorem value?_perm (perm : entries.Perm entries') :
    (object entries).value? name position = (object entries').value? name position := by
  have perm_values : (values name entries).Perm (values name entries') := perm.filterMap _
  rw [value?_object, value?_object]
  rcases found : values name entries with _ | ⟨v, _ | ⟨w, rest⟩⟩
  · rw [found, List.nil_perm] at perm_values
    rw [perm_values]
  · rw [found, List.singleton_perm] at perm_values
    rw [← perm_values]
  · have length := perm_values.length_eq
    rw [found] at length
    rcases found' : values name entries' with _ | ⟨v', _ | ⟨w', rest'⟩⟩
    · simp [found'] at length
    · simp [found'] at length
    · rfl

theorem value?_cons_of_ne (other : key ≠ name) :
    (object ((key, v) :: entries)).value? name position =
      (object entries).value? name position := by
  rw [value?_object, value?_object, values_cons, if_neg other]

/-- A field that is given first is the only one of its name, or else refused. -/
theorem value?_cons_self :
    (object ((name, v) :: entries)).value? name position =
      if values name entries = [] then some (some v) else none := by
  rw [value?_object, values_cons, if_pos rfl]
  cases values name entries <;> rfl

end Changed

end Json

open Json

/-! ## Readers -/

/-- The items of a list that is a value of a field are read one by one. -/
theorem bind_listOf? {α β : Type} {list : Json} (read? : Json → Option α) (f : List α → Option β) :
    (Request.listOf? read? list).bind f =
      list.items?.bind fun items => (items.mapM fun item => read? item.1).bind f := by
  rw [← bind_items?, Option.bind_assoc]

/-- Properties are read field by field. -/
theorem Property.ofJson?_eq (access : Access) (j : Json) :
    Property.ofJson? access j =
      if j.isRecord 4 then do
        let name ← (← j.needed? "name" 0).text?
        let type ← PropertyType.ofJson? access (← j.needed? "edm_type" 1)
        let mapping ← j.default? "mapping" 2 (optional? (Mapping.ofJson? access)) none
        let parts ← j.default? "composite" 3 (Request.listOf? (Property.ofJson? access)) []
        return { name, type, mapping, parts }
      else none := by
  rw [Property.ofJson?]
  simp only [needed?_eq, Option.bind_eq_bind, Option.bind_map, Function.comp_def, default?_eq,
    value?_eq]
  rcases j.field? "composite" 3 with _ | _ | list
  · cases j.isRecord 4 <;> rfl
  · cases j.isRecord 4 <;> rfl
  · simp only [Option.map_some, Option.bind_some, Option.elim_some, bind_listOf?]
    cases j.isRecord 4 <;> rfl

/-- Reads the fields of a node whose kind is known. -/
def Expression.node? (kind : String) (j : Json) : Option Expression :=
  match kind with
  | "filter" =>
    if j.isRecord 2 then do
      let e ← j.needed? "expression" 1
      return filter (← decode? .gathered e)
    else none
  | "unary" =>
    if j.isRecord 3 then do
      let operator ← UnaryOperator.ofJson? .gathered (← j.needed? "operator" 1)
      let operand ← j.needed? "operand" 2
      return unary operator (← decode? .gathered operand)
    else none
  | "binary" =>
    if j.isRecord 4 then do
      let operator ← BinaryOperator.ofJson? .gathered (← j.needed? "operator" 1)
      let left ← j.needed? "left" 2
      let right ← j.needed? "right" 3
      return binary operator (← decode? .gathered left) (← decode? .gathered right)
    else none
  | "property" =>
    if j.isRecord 2 then do
      let p ← j.needed? "property" 1
      return property (← Property.ofJson? .gathered p)
    else none
  | "member" =>
    if j.isRecord 3 then do
      let path ← j.needed? "path" 1
      let step ← j.needed? "property" 2
      return member (← decode? .gathered path) (← decode? .gathered step)
    else none
  | "literal" =>
    if j.isRecord 3 then do
      let text ← (← j.needed? "uri_literal" 1).text?
      let kind ← Kind.ofJson? .gathered (← j.needed? "edm_type" 2)
      return literal text kind
    else none
  | "method" =>
    if j.isRecord 3 then do
      let m ← Method.ofJson? .gathered (← j.needed? "method" 1)
      let list ← j.needed? "parameters" 2
      return method m (← Request.listOf? (decode? .gathered) list)
    else none
  | _ => none

/-- Trees are read by the kind of their root, field by field. -/
theorem Expression.decode?_eq (access : Access) (j : Json) :
    decode? access j = (do
      let kind ← nodeName? access (← j.needed? "kind" 0)
      node? kind j) := by
  have if_not (c : Bool) (x : Option Expression) :
      (if c then x else none) = if !c then none else x := by cases c <;> rfl
  rw [decode?]
  simp only [node?, needed?_eq, Option.bind_eq_bind, Option.bind_map, Function.comp_def,
    bind_listOf?, if_not]
  rfl

/-- Entries of orderings are read field by field. -/
theorem OrderItem.ofJson?_eq (j : Json) :
    OrderItem.ofJson? j =
      if j.isRecord 2 then do
        let expression ← Expression.ofJson? (← j.needed? "expression" 0)
        let order ← j.default? "sort_order" 1 (SortOrder.ofJson? .direct) .asc
        return { expression, order }
      else none := by
  rw [OrderItem.ofJson?]
  simp only [needed?_eq, Option.bind_eq_bind, Option.bind_map, Function.comp_def]
  cases j.isRecord 2 <;> rfl

/-- Predicates of keys are read field by field. -/
theorem KeyPredicate.ofJson?_eq (j : Json) :
    KeyPredicate.ofJson? j =
      if j.isRecord 2 then do
        let property ← Property.ofJson? .direct (← j.needed? "property" 0)
        let literal ← (← j.needed? "literal" 1).text?
        return { property, literal }
      else none := by
  rw [KeyPredicate.ofJson?]
  simp only [needed?_eq, Option.bind_eq_bind, Option.bind_map, Function.comp_def]
  cases j.isRecord 2 <;> rfl

/-- Mappings are read field by field. -/
theorem Mapping.ofJson?_eq (access : Access) (j : Json) :
    Mapping.ofJson? access j =
      if j.isRecord 5 then do
        let storedName ← j.default? "internal_name" 0 (optional? text?) none
        let expression ← j.default? "internal_expression" 1 (optional? text?) none
        let native ← j.default? "native_type" 2 (optional? (NativeType.ofJson? access)) none
        let embedded ← j.default? "embedded" 3 bool? false
        let virtual ← j.default? "virtual" 4 bool? false
        return { storedName, expression, native, embedded, virtual }
      else none := by
  rw [Mapping.ofJson?]
  cases j.isRecord 5 <;> rfl

/-- Settings are read field by field. -/
theorem Settings.ofJson?_eq (j : Json) :
    Settings.ofJson? j =
      if j.isRecord 2 then do
        let marker ← j.default? "placeholder_prefix" 0 text? ({} : Settings).marker
        let separator ← j.default? "composite_separator" 1 text? ({} : Settings).separator
        return { marker, separator }
      else none := by
  rw [Settings.ofJson?]
  cases j.isRecord 2 <;> rfl

end EntityQuery
