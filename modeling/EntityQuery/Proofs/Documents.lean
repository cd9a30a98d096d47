import EntityQuery.Proofs.Restating

/-!
# Reading what was written

What the writers of trees, properties, orderings, keys and settings write is read back to the value
that was written, and so is every document that says the same.

## Main definitions

* `Faithful`: a reader and a writer of documents that go together

## Main results

* `Property.ofJson?_toJson`, `Expression.decode?_toJson`: what is written is read back
* `documents_faithful`: all readers and writers go together
-/

namespace EntityQuery

open Json

variable {access : Access}

/-! ## Names -/

@[simp] theorem Kind.ofJson?_name (kind : Kind) :
    ofJson? access (Json.string kind.name) = some kind := by
  cases kind <;> rfl

@[simp] theorem NativeType.ofJson?_name (native : NativeType) :
    ofJson? access (Json.string native.name) = some native := by
  cases native <;> rfl

@[simp] theorem UnaryOperator.ofJson?_name (op : UnaryOperator) :
    ofJson? access (string op.name) = some op := by
  cases op <;> rfl

@[simp] theorem BinaryOperator.ofJson?_name (op : BinaryOperator) :
    ofJson? access (string op.name) = some op := by
  cases op <;> rfl

@[simp] theorem Method.ofJson?_name (m : Method) : ofJson? access (string m.name) = some m := by
  cases m <;> rfl

@[simp] theorem SortOrder.ofJson?_name (order : SortOrder) :
    ofJson? access (string order.name) = some order := by
  cases order <;> rfl

/-! ## Properties -/

@[simp] theorem PropertyType.ofJson?_toJson (type : PropertyType) :
    ofJson? access type.toJson = some type := by
  cases type with
  | simple kind => exact congrArg (Option.map simple) (Kind.ofJson?_name kind)
  | complex name => rfl
  | entity name => rfl

@[simp] theorem optional?_optionalText (text? : Option String) :
    optional? Json.text? (optionalText text?) = some text? := by
  cases text? <;> rfl

@[simp] theorem optional?_optionalNative (native? : Option NativeType) :
    optional? (NativeType.ofJson? access) (optionalText (native?.map NativeType.name)) =
      some native? := by
  cases native? with
  | none => rfl
  | some native => exact congrArg (Option.map some) (NativeType.ofJson?_name native)

theorem Mapping.ofJson?_toJson (m : Mapping) : ofJson? access m.toJson = some m := by
  simp [ofJson?_eq, toJson, default?_eq, bool?]

@[simp] theorem optional?_optionalMapping (mapping? : Option Mapping) :
    optional? (Mapping.ofJson? access) (optionalMapping mapping?) = some mapping? := by
  cases mapping? with
  | none => rfl
  | some m => exact congrArg (Option.map some) (Mapping.ofJson?_toJson m)

mutual

/-- A property that is written is read back, however deep its parts are. -/
theorem Property.ofJson?_toJson :
    ∀ p : Property, Property.ofJson? access p.toJson = some p
  | ⟨name, type, mapping, parts⟩ => by
    have read := listOf?_propertiesToJson parts
    simp [Property.ofJson?_eq, Property.toJson, default?_eq, needed?, text?, read]

/-- Properties that are written are read back. -/
theorem listOf?_propertiesToJson :
    ∀ ps : List Property,
      Request.listOf? (Property.ofJson? access) (array (propertiesToJson ps)) = some ps
  | [] => rfl
  | p :: ps => by
    have others := listOf?_propertiesToJson ps
    simp only [Request.listOf?, propertiesToJson, List.mapM_cons] at others ⊢
    rw [others, Property.ofJson?_toJson p]
    rfl

end

mutual

/-- Nothing that is written for a property is unusable. -/
theorem Property.isUsable_toJson : ∀ p : Property, p.toJson.isUsable
  | ⟨name, type, mapping, parts⟩ => by
    have type_usable : type.toJson.isUsable := by cases type <;> rfl
    have mapping_usable : (optionalMapping mapping).isUsable := by
      rcases mapping with _ | ⟨_ | _, _ | _, _ | _, _, _⟩ <;> rfl
    have parts_usable := isUsable_propertiesToJson parts
    simp [Property.toJson, type_usable, mapping_usable, parts_usable]

/-- Nothing that is written for properties is unusable. -/
theorem isUsable_propertiesToJson : ∀ ps : List Property,
    (array (propertiesToJson ps)).isUsable
  | [] => rfl
  | p :: ps => by
    have others := isUsable_propertiesToJson ps
    simp only [isUsable_array] at others
    simp [propertiesToJson, Property.isUsable_toJson p, others]

end

/-! ## Trees -/

namespace Expression

theorem nodeName?_string (name : String) : nodeName? access (string name) = some name := by
  cases access <;> rfl

/-- A node that names its kind once is read as a node of that kind. -/
theorem decode?_object {kind : String} {entries : List (String × Json)}
    (once : values "kind" entries = []) :
    decode? access (object (("kind", string kind) :: entries)) =
      node? kind (object (("kind", string kind) :: entries)) := by
  simp [decode?_eq, needed?, once, nodeName?_string]

mutual

/-- A tree that is written is read back. -/
theorem decode?_toJson :
    ∀ (access : Access) (e : Expression), decode? access e.toJson = some e
  | access, filter e => by
    have read := decode?_toJson .gathered e
    rw [toJson, decode?_object rfl]
    simp [node?, needed?, read]
  | access, unary op e => by
    have read := decode?_toJson .gathered e
    rw [toJson, decode?_object rfl]
    simp [node?, needed?, read]
  | access, binary op left right => by
    have read_left := decode?_toJson .gathered left
    have read_right := decode?_toJson .gathered right
    rw [toJson, decode?_object rfl]
    simp [node?, needed?, read_left, read_right]
  | access, property p => by
    rw [toJson, decode?_object rfl]
    simp [node?, needed?, Property.ofJson?_toJson]
  | access, member path step => by
    have read_path := decode?_toJson .gathered path
    have read_step := decode?_toJson .gathered step
    rw [toJson, decode?_object rfl]
    simp [node?, needed?, read_path, read_step]
  | access, literal text kind => by
    rw [toJson, decode?_object rfl]
    simp [node?, needed?, text?]
  | access, method m arguments => by
    have read := listOf?_listToJson arguments
    rw [toJson, decode?_object rfl]
    simp [node?, needed?, read]

/-- Trees that are written are read back. -/
theorem listOf?_listToJson :
    ∀ es : List Expression, Request.listOf? (decode? .gathered) (array (listToJson es)) = some es
  | [] => rfl
  | e :: es => by
    have others := listOf?_listToJson es
    simp only [Request.listOf?, listToJson, List.mapM_cons] at others ⊢
    rw [others, decode?_toJson .gathered e]
    rfl

end

mutual

/-- Nothing that is written for a tree is unusable. -/
theorem isUsable_toJson : ∀ e : Expression, e.toJson.isUsable
  | filter e => by simp [toJson, isUsable_toJson e]
  | unary op e => by simp [toJson, isUsable_toJson e]
  | binary op left right => by simp [toJson, isUsable_toJson left, isUsable_toJson right]
  | property p => by simp [toJson, p.isUsable_toJson]
  | member path step => by simp [toJson, isUsable_toJson path, isUsable_toJson step]
  | literal text kind => by simp [toJson]
  | method m arguments => by
    have usable := isUsable_listToJson arguments
    simp [toJson, usable]

/-- Nothing that is written for trees is unusable. -/
theorem isUsable_listToJson : ∀ es : List Expression, (listToJson es).all (·.isUsable)
  | [] => rfl
  | e :: es => by
    have others := isUsable_listToJson es
    simp only [listToJson, List.all_cons, isUsable_toJson e, others, Bool.and_self]

end

theorem ofJson?_toJson (e : Expression) : ofJson? e.toJson = some e := by
  rw [ofJson?, if_pos e.isUsable_toJson, decode?_toJson]

end Expression

/-! ## Orderings, keys and settings -/

theorem OrderItem.ofJson?_toJson (item : OrderItem) : ofJson? item.toJson = some item := by
  simp [ofJson?_eq, toJson, needed?, default?_eq, Expression.ofJson?_toJson]

theorem KeyPredicate.ofJson?_toJson (k : KeyPredicate) : ofJson? k.toJson = some k := by
  simp [ofJson?_eq, toJson, needed?, Property.ofJson?_toJson, text?]

theorem Settings.ofJson?_toJson (s : Settings) : ofJson? s.toJson = some s := by
  simp [ofJson?_eq, toJson, default?_eq, text?]

/-! ## All documents -/

/-- A reader and a writer of documents that go together. -/
structure Faithful {α : Type} (form : Form) (ofJson? : Json → Option α) (toJson : α → Json) :
    Prop where
  /-- What is written is read back. -/
  read_written : ∀ a, ofJson? (toJson a) = some a
  /-- A document that is written again is read as before. -/
  read_restated : ∀ {j j' : Json} {a : α}, ofJson? j = some a → Restates form j j' →
    ofJson? j' = some a
  /-- What is read from a document and written is read as before, however it is written. -/
  read_rewritten : ∀ {j j' : Json} {a : α}, ofJson? j = some a → Restates form (toJson a) j' →
    ofJson? j' = some a

/-- A reader that does not tell apart what says the same goes with a writer that it reads. -/
theorem Faithful.of_read {α : Type} {form : Form} {ofJson? : Json → Option α} {toJson : α → Json}
    (written : ∀ a, ofJson? (toJson a) = some a)
    (alike : ∀ {j j' : Json}, form.Alike j j' → ofJson? j = ofJson? j') :
    Faithful form ofJson? toJson where
  read_written := written
  read_restated := by
    intro j j' a read restates
    rw [← alike restates.alike, read]
  read_rewritten := by
    intro j j' a _ restates
    rw [← alike restates.alike, written]

/-- **Documents are faithful.** A tree, a property with parts of any depth, an entry of an ordering,
a predicate of a key and settings are read back from what is written for them. They are read from
any document that says the same: with the fields of its records in another order, with further
fields in its records, and without the fields that have their default as value, anywhere inside.
So is what is written for whatever was read from a document. -/
theorem documents_faithful :
    Faithful .tree Expression.ofJson? Expression.toJson ∧
      Faithful .property (Property.ofJson? .direct) Property.toJson ∧
      Faithful .orderItem OrderItem.ofJson? OrderItem.toJson ∧
      Faithful .keyPredicate KeyPredicate.ofJson? KeyPredicate.toJson ∧
      Faithful .settings Settings.ofJson? Settings.toJson := by
  refine ⟨?tree, ?property, ?orderItem, ?keyPredicate, ?settings⟩
  case tree => exact .of_read Expression.ofJson?_toJson Expression.ofJson?_congr
  case property => exact .of_read Property.ofJson?_toJson fun alike => alike.read_eq .direct
  case orderItem => exact .of_read OrderItem.ofJson?_toJson fun alike => alike.read_eq .direct
  case keyPredicate => exact .of_read KeyPredicate.ofJson?_toJson fun alike => alike.read_eq .direct
  case settings => exact .of_read Settings.ofJson?_toJson fun alike => alike.read_eq .direct

/-- The document of a key whose property has no mapping and no parts. -/
def sparseKey : Json :=
  object
    [("note", bool true), ("literal", string "7"),
      ("property",
        object [("edm_type", object [("simple", string "Int32")]), ("name", string "Id")])]

/-- A key is read from a document that leaves out what has a default, has another order and gives
more than was asked for. -/
theorem documents_faithful_of_sparseKey :
    KeyPredicate.ofJson? sparseKey = some ⟨⟨"Id", .simple .int32, none, []⟩, "7"⟩ := by
  have written := documents_faithful.2.2.2.1.read_written ⟨⟨"Id", .simple .int32, none, []⟩, "7"⟩
  refine documents_faithful.2.2.2.1.read_restated written ?_
  have property : Restates .property (Property.toJson ⟨"Id", .simple .int32, none, []⟩)
      (object [("edm_type", object [("simple", string "Int32")]), ("name", string "Id")]) := by
    have mapping : Property.layout.fields[2]? =
      some { name := "mapping", form := .mapping, defaults := [null] } := rfl
    have parts : Property.layout.fields[3]? =
      some { name := "composite", form := .list .property, defaults := [array []] } := rfl
    refine .trans (.reordered rfl (List.reverse_perm _).symm) ?_
    refine .trans (.omitted rfl (List.mem_of_getElem? parts) (.head _) (by decide)) ?_
    exact .omitted rfl (List.mem_of_getElem? mapping) (.head _) (by decide)
  have known : KeyPredicate.layout.fields[0]? =
    some { name := "property", form := .property } := rfl
  refine .trans (.inField rfl (List.mem_of_getElem? known) property) ?_
  refine .trans (.reordered rfl (List.Perm.swap _ _ _)) ?_
  exact .extended rfl (by decide) rfl

end EntityQuery
