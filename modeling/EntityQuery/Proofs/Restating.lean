import EntityQuery.Proofs.Records
import Mathlib.Data.List.Nodup

/-!
# Documents that say the same

One value can be written in many ways. Objects may have their fields in another order and further
fields among them, a field may be left out where its value is the default, and all of this may be
done anywhere inside. None of it changes what is read, and so a document may be rewritten by
programs that know nothing about its records but their fields.

## Main definitions

* `Form`: what a value is read as
* `Layout`: the fields of a record, in their declared order
* `Form.layout?`: the fields of a value that is read as a record
* `Restates`: the ways to write a value again

## Main results

* `Restates.alike`: a value that is written again is read as before
-/

namespace EntityQuery

open Json

/-! ## Forms -/

/-- What a value is read as. -/
inductive Form where
  /-- A name, a text, a truth value or the type of a property. -/
  | plain
  /-- A mapping, or `null`. -/
  | mapping
  | property
  | tree
  | orderItem
  | keyPredicate
  | settings
  | list (item : Form)

/-- A field of a record. -/
structure Field where
  name : String
  form : Form := .plain
  /-- The values that stand for its default; none where the field may not be missing. -/
  defaults : List Json := []
  usable : ∀ d ∈ defaults, d.isUsable := by decide

/-- The fields of a record, in their declared order. -/
structure Layout where
  fields : List Field
  distinct : (fields.map (·.name)).Nodup := by decide

/-! ## Layouts -/

/-- The fields of a mapping, all of which have defaults. -/
def Mapping.layout : Layout where
  fields :=
    [{ name := "internal_name", defaults := [null] },
      { name := "internal_expression", defaults := [null] },
      { name := "native_type", defaults := [null] },
      { name := "embedded", defaults := [bool false] },
      { name := "virtual", defaults := [bool false] }]

/-- The fields of a property. -/
def Property.layout : Layout where
  fields :=
    [{ name := "name" }, { name := "edm_type" },
      { name := "mapping", form := .mapping, defaults := [null] },
      { name := "composite", form := .list .property, defaults := [array []] }]

/-- The fields of a node, by its kind. None of them may be missing. -/
def Expression.layout? : String → Option Layout
  | "filter" => some { fields := [{ name := "kind" }, { name := "expression", form := .tree }] }
  | "unary" => some { fields :=
      [{ name := "kind" }, { name := "operator" }, { name := "operand", form := .tree }] }
  | "binary" => some { fields :=
      [{ name := "kind" }, { name := "operator" }, { name := "left", form := .tree },
        { name := "right", form := .tree }] }
  | "property" => some { fields :=
      [{ name := "kind" }, { name := "property", form := .property }] }
  | "member" => some { fields :=
      [{ name := "kind" }, { name := "path", form := .tree },
        { name := "property", form := .tree }] }
  | "literal" => some { fields :=
      [{ name := "kind" }, { name := "uri_literal" }, { name := "edm_type" }] }
  | "method" => some { fields :=
      [{ name := "kind" }, { name := "method" },
        { name := "parameters", form := .list .tree }] }
  | _ => none

/-- The fields of an entry of an ordering. -/
def OrderItem.layout : Layout where
  fields :=
    [{ name := "expression", form := .tree },
      { name := "sort_order",
        defaults := [string SortOrder.asc.name, object [(SortOrder.asc.name, null)]] }]

/-- The fields of a predicate of a key. -/
def KeyPredicate.layout : Layout where
  fields := [{ name := "property", form := .property }, { name := "literal" }]

/-- The fields of settings, all of which have defaults. -/
def Settings.layout : Layout where
  fields :=
    [{ name := "placeholder_prefix", defaults := [string ({} : Settings).marker] },
      { name := "composite_separator", defaults := [string ({} : Settings).separator] }]

namespace Form

/-- The fields of a value that is read as a record. Those of a node depend on the kind it gives. -/
def layout? : Form → Json → Option Layout
  | plain, _ | list _, _ => none
  | mapping, _ => some Mapping.layout
  | property, _ => some Property.layout
  | tree, j => (j.needed? "kind" 0).bind fun kind =>
      (Expression.nodeName? .gathered kind).bind Expression.layout?
  | orderItem, _ => some OrderItem.layout
  | keyPredicate, _ => some KeyPredicate.layout
  | settings, _ => some Settings.layout

/-- What values of a form are read to; a plain value stays as it is. -/
def Value : Form → Type
  | plain => Json
  | mapping => Option Mapping
  | property => Property
  | tree => Expression
  | orderItem => OrderItem
  | keyPredicate => KeyPredicate
  | settings => Settings
  | list item => List item.Value

/-- The reader of a form. -/
def read? : (form : Form) → Access → Json → Option form.Value
  | plain, _, j => some j
  | mapping, access, j => optional? (Mapping.ofJson? access) j
  | property, access, j => Property.ofJson? access j
  | tree, access, j => Expression.decode? access j
  | orderItem, _, j => OrderItem.ofJson? j
  | keyPredicate, _, j => KeyPredicate.ofJson? j
  | settings, _, j => Settings.ofJson? j
  | list item, access, j => Request.listOf? (item.read? access) j

end Form

/-! ## Writing again -/

/-- The ways to write a value that is read as a form again. Each step changes one record or list; a
step inside another one is a step of the whole. -/
inductive Restates : Form → Json → Json → Prop
  | refl {form : Form} {j : Json} : Restates form j j
  | symm {form : Form} {j j' : Json} (h : Restates form j j') : Restates form j' j
  | trans {form : Form} {j j' j'' : Json} (h : Restates form j j') (h' : Restates form j' j'') :
      Restates form j j''
  /-- Fields in another order. -/
  | reordered {form : Form} {layout : Layout} {entries entries' : List (String × Json)}
      (record : form.layout? (object entries) = some layout) (perm : entries.Perm entries') :
      Restates form (object entries) (object entries')
  /-- A field with a name that the record does not know. -/
  | extended {form : Form} {layout : Layout} {entries : List (String × Json)} {name : String}
      {value : Json} (record : form.layout? (object entries) = some layout)
      (unknown : ∀ field ∈ layout.fields, field.name ≠ name) (usable : value.isUsable) :
      Restates form (object entries) (object ((name, value) :: entries))
  /-- A field left out that has its default as value. -/
  | omitted {form : Form} {layout : Layout} {entries : List (String × Json)} {field : Field}
      {value : Json} (record : form.layout? (object ((field.name, value) :: entries)) = some layout)
      (known : field ∈ layout.fields) (default : value ∈ field.defaults)
      (once : ∀ entry ∈ entries, entry.1 ≠ field.name) :
      Restates form (object ((field.name, value) :: entries)) (object entries)
  /-- The value of a field written again. -/
  | inField {form : Form} {layout : Layout} {entries : List (String × Json)} {field : Field}
      {value value' : Json}
      (record : form.layout? (object ((field.name, value) :: entries)) = some layout)
      (known : field ∈ layout.fields) (h : Restates field.form value value') :
      Restates form (object ((field.name, value) :: entries))
        (object ((field.name, value') :: entries))
  /-- The last place of a record written as an array left out, where it has its default as value. -/
  | shortened {form : Form} {layout : Layout} {items : List Json} {field : Field} {value : Json}
      (record : form.layout? (array (items ++ [value])) = some layout)
      (known : layout.fields[items.length]? = some field) (default : value ∈ field.defaults) :
      Restates form (array (items ++ [value])) (array items)
  /-- The value in a place of a record written as an array written again. -/
  | inPlace {form : Form} {layout : Layout} {front back : List Json} {field : Field}
      {value value' : Json} (record : form.layout? (array (front ++ value :: back)) = some layout)
      (known : layout.fields[front.length]? = some field) (h : Restates field.form value value') :
      Restates form (array (front ++ value :: back)) (array (front ++ value' :: back))
  /-- An item of a list written again. -/
  | inList {item : Form} {front back : List Json} {value value' : Json}
      (h : Restates item value value') :
      Restates (.list item) (array (front ++ value :: back)) (array (front ++ value' :: back))

/-! ## Values that are read alike -/

/-- Two values that can be used in the same places and are read to the same. -/
structure Form.Alike (form : Form) (j j' : Json) : Prop where
  isUsable_eq : j.isUsable = j'.isUsable
  read_eq : ∀ access, form.read? access j = form.read? access j'

/-- Two values of a field that are read alike, where a default may be missing on the right. -/
inductive Field.Alike (field : Field) : Option (Option Json) → Option (Option Json) → Prop
  | same {entry : Option (Option Json)} : field.Alike entry entry
  | given {v v' : Json} (alike : field.form.Alike v v') :
      field.Alike (some (some v)) (some (some v'))
  | missing {v : Json} (default : v ∈ field.defaults) : field.Alike (some (some v)) (some none)

/-- Two records whose fields are read alike. -/
structure Layout.Alike (layout : Layout) (j j' : Json) : Prop where
  isUsable_eq : j.isUsable = j'.isUsable
  isRecord_eq : j.isRecord layout.fields.length = j'.isRecord layout.fields.length
  null_iff : j = null ↔ j' = null
  entries : ∀ {i : Nat} {field : Field}, layout.fields[i]? = some field →
    field.Alike (j.value? field.name i) (j'.value? field.name i)

theorem Form.Alike.refl {form : Form} (j : Json) : form.Alike j j := ⟨rfl, fun _ => rfl⟩

theorem Form.Alike.eq {j j' : Json} (h : Form.plain.Alike j j') : j = j' :=
  Option.some.inj (h.read_eq .direct)

namespace Layout.Alike

variable {layout : Layout} {j j' : Json} {field : Field} {α : Type}

/-- Records are read alike if their fields are. -/
theorem record (h : layout.Alike j j') {x y : Option α} (same : x = y) :
    (if j.isRecord layout.fields.length then x else none) =
      if j'.isRecord layout.fields.length then y else none := by
  rw [h.isRecord_eq, same]

/-- What is read of a field that may not be missing. -/
theorem needed_bind (h : layout.Alike j j') (i : Nat) (known : layout.fields[i]? = some field)
    (no_default : field.defaults = []) {f g : Json → Option α}
    (same : ∀ v v', field.form.Alike v v' → f v = g v') :
    (j.needed? field.name i).bind f = (j'.needed? field.name i).bind g := by
  have alike := h.entries known
  rw [needed?, needed?]
  generalize j.value? field.name i = entry, j'.value? field.name i = entry' at alike ⊢
  cases alike with
  | same =>
    rcases entry with _ | _ | v
    · rfl
    · rfl
    · exact same v v (.refl v)
  | given alike => exact same _ _ alike
  | missing default =>
    rw [no_default] at default
    cases default

/-- The value of a plain field that may not be missing. -/
theorem needed (h : layout.Alike j j') (i : Nat) (known : layout.fields[i]? = some field)
    (no_default : field.defaults = []) (plain : field.form = .plain) :
    j.needed? field.name i = j'.needed? field.name i := by
  have same := h.needed_bind i known no_default (f := some) (g := some) fun v v' alike => by
    rw [plain] at alike
    rw [alike.eq]
  simpa using same

/-- What is read of a field that has a default. -/
theorem default (h : layout.Alike j j') (i : Nat) (read? : Json → Option α) (default : α)
    (known : layout.fields[i]? = some field)
    (defaults : ∀ d ∈ field.defaults, read? d = some default)
    (same : ∀ v v', field.form.Alike v v' → read? v = read? v') :
    j.default? field.name i read? default = j'.default? field.name i read? default := by
  have alike := h.entries known
  rw [default?_eq, default?_eq]
  generalize j.value? field.name i = entry, j'.value? field.name i = entry' at alike ⊢
  cases alike with
  | same => rfl
  | given alike => exact same _ _ alike
  | missing default => exact defaults _ default

/-- What is read of a plain field that has a default. -/
theorem default_plain (h : layout.Alike j j') (i : Nat) (read? : Json → Option α) (default : α)
    (known : layout.fields[i]? = some field) (plain : field.form = .plain)
    (defaults : ∀ d ∈ field.defaults, read? d = some default) :
    j.default? field.name i read? default = j'.default? field.name i read? default := by
  refine h.default i read? default known defaults fun v v' alike => ?_
  rw [plain] at alike
  rw [alike.eq]

end Layout.Alike

/-! ## Records -/

section Records

variable {j j' : Json} {access : Access}

theorem Mapping.ofJson?_congr (h : Mapping.layout.Alike j j') :
    Mapping.ofJson? access j = Mapping.ofJson? access j' := by
  rw [Mapping.ofJson?_eq, Mapping.ofJson?_eq]
  refine h.record ?_
  rw [h.default_plain 0 (optional? text?) none rfl rfl (List.forall_mem_singleton.2 rfl),
    h.default_plain 1 (optional? text?) none rfl rfl (List.forall_mem_singleton.2 rfl),
    h.default_plain 2 (optional? (NativeType.ofJson? access)) none rfl rfl
      (List.forall_mem_singleton.2 rfl),
    h.default_plain 3 bool? false rfl rfl (List.forall_mem_singleton.2 rfl),
    h.default_plain 4 bool? false rfl rfl (List.forall_mem_singleton.2 rfl)]

theorem Property.ofJson?_congr (h : Property.layout.Alike j j') :
    Property.ofJson? access j = Property.ofJson? access j' := by
  rw [Property.ofJson?_eq, Property.ofJson?_eq]
  refine h.record ?_
  rw [h.needed 0 rfl rfl rfl, h.needed 1 rfl rfl rfl,
    h.default 2 (optional? (Mapping.ofJson? access)) none rfl (List.forall_mem_singleton.2 rfl)
      fun v v' alike => alike.read_eq access,
    h.default 3 (Request.listOf? (Property.ofJson? access)) [] rfl
      (List.forall_mem_singleton.2 rfl) fun v v' alike => alike.read_eq access]

/-- A kind that is read in the document itself is also read among gathered values. -/
theorem Expression.nodeName?_gathered {kind : Json} {name : String}
    (h : nodeName? access kind = some name) : nodeName? .gathered kind = some name := by
  cases access with
  | gathered => exact h
  | direct =>
    cases kind with
    | string text => exact h
    | _ => cases h

/-- The kind of a node is always its first field. -/
theorem Expression.layout?_kind {name : String} {layout : Layout} (h : layout? name = some layout) :
    layout.fields[0]? = some { name := "kind" } := by
  unfold layout? at h
  split at h
  case h_8 => cases h
  all_goals
    obtain rfl := Option.some.inj h
    rfl

theorem Expression.decode?_congr (alike : Form.tree.Alike j j') :
    decode? .gathered j = decode? .gathered j' :=
  alike.read_eq .gathered

/-- Nodes of one kind are read to the same if their fields are. -/
theorem Expression.node?_congr {name : String} {layout : Layout}
    (known : layout? name = some layout) (h : layout.Alike j j') : node? name j = node? name j' := by
  unfold layout? at known
  split at known
  case h_8 => cases known
  all_goals
    obtain rfl := Option.some.inj known
    refine h.record ?_
  case h_1 =>
    exact h.needed_bind 1 rfl rfl fun e e' alike => by rw [decode?_congr alike]
  case h_2 =>
    rw [h.needed 1 rfl rfl rfl]
    refine bind_congr fun operator => bind_congr fun op => ?_
    exact h.needed_bind 2 rfl rfl fun e e' alike => by rw [decode?_congr alike]
  case h_3 =>
    rw [h.needed 1 rfl rfl rfl]
    refine bind_congr fun operator => bind_congr fun op => ?_
    refine h.needed_bind 2 rfl rfl fun l l' left => ?_
    refine h.needed_bind 3 rfl rfl fun r r' right => ?_
    rw [decode?_congr left, decode?_congr right]
  case h_4 =>
    refine h.needed_bind 1 rfl rfl fun p p' alike => ?_
    have same : Property.ofJson? .gathered p = Property.ofJson? .gathered p' :=
      alike.read_eq .gathered
    rw [same]
  case h_5 =>
    refine h.needed_bind 1 rfl rfl fun path path' first => ?_
    refine h.needed_bind 2 rfl rfl fun step step' last => ?_
    rw [decode?_congr first, decode?_congr last]
  case h_6 =>
    rw [h.needed 1 rfl rfl rfl, h.needed 2 rfl rfl rfl]
  case h_7 =>
    rw [h.needed 1 rfl rfl rfl]
    refine bind_congr fun method => bind_congr fun m => ?_
    refine h.needed_bind 2 rfl rfl fun list list' alike => ?_
    have same : Request.listOf? (decode? .gathered) list =
        Request.listOf? (decode? .gathered) list' :=
      alike.read_eq .gathered
    rw [same]

/-- Trees are read to the same if the fields of the kind that the first one gives are. -/
theorem Expression.decode?_congr_of_layout {layout : Layout}
    (known : Form.tree.layout? j = some layout) (h : layout.Alike j j') :
    decode? access j = decode? access j' := by
  obtain ⟨kind, kind_eq, known⟩ := Option.bind_eq_some_iff.1 known
  obtain ⟨name, name_eq, known⟩ := Option.bind_eq_some_iff.1 known
  have kind_eq' := h.needed 0 (layout?_kind known) rfl rfl
  rw [decode?_eq, decode?_eq, ← kind_eq', kind_eq]
  show (nodeName? access kind).bind _ = (nodeName? access kind).bind _
  rcases found : nodeName? access kind with _ | name'
  · rfl
  · obtain rfl : name' = name := by
      rw [nodeName?_gathered found] at name_eq
      exact Option.some.inj name_eq
    exact node?_congr known h

/-- A document is read as a tree only if nothing in it is unusable. -/
theorem Expression.ofJson?_congr (alike : Form.tree.Alike j j') :
    Expression.ofJson? j = Expression.ofJson? j' := by
  have same : decode? .direct j = decode? .direct j' := alike.read_eq .direct
  rw [Expression.ofJson?, Expression.ofJson?, alike.isUsable_eq, same]

theorem OrderItem.ofJson?_congr (h : OrderItem.layout.Alike j j') :
    OrderItem.ofJson? j = OrderItem.ofJson? j' := by
  rw [OrderItem.ofJson?_eq, OrderItem.ofJson?_eq]
  refine h.record ?_
  rw [h.default_plain 1 (SortOrder.ofJson? .direct) .asc rfl rfl
    (List.forall_mem_cons.2 ⟨rfl, List.forall_mem_singleton.2 rfl⟩)]
  refine h.needed_bind 0 rfl rfl fun e e' alike => ?_
  rw [Expression.ofJson?_congr alike]

theorem KeyPredicate.ofJson?_congr (h : KeyPredicate.layout.Alike j j') :
    KeyPredicate.ofJson? j = KeyPredicate.ofJson? j' := by
  rw [KeyPredicate.ofJson?_eq, KeyPredicate.ofJson?_eq]
  refine h.record ?_
  rw [h.needed 1 rfl rfl rfl]
  refine h.needed_bind 0 rfl rfl fun p p' alike => ?_
  have same : Property.ofJson? .direct p = Property.ofJson? .direct p' := alike.read_eq .direct
  rw [same]

theorem Settings.ofJson?_congr (h : Settings.layout.Alike j j') :
    Settings.ofJson? j = Settings.ofJson? j' := by
  rw [Settings.ofJson?_eq, Settings.ofJson?_eq]
  refine h.record ?_
  rw [h.default_plain 0 text? _ rfl rfl (List.forall_mem_singleton.2 rfl),
    h.default_plain 1 text? _ rfl rfl (List.forall_mem_singleton.2 rfl)]

end Records

/-- Records whose fields are read alike are read alike. -/
theorem Form.Alike.of_layout {form : Form} {j j' : Json} {layout : Layout}
    (record : form.layout? j = some layout) (h : layout.Alike j j') : form.Alike j j' := by
  refine ⟨h.isUsable_eq, fun access => ?_⟩
  cases form with
  | plain | list => cases record
  | mapping =>
    obtain rfl := Option.some.inj record
    show optional? (Mapping.ofJson? access) j = optional? (Mapping.ofJson? access) j'
    by_cases absent : j = null
    · rw [absent, h.null_iff.1 absent]
    · rw [optional?_of_ne absent, optional?_of_ne (mt h.null_iff.2 absent),
        Mapping.ofJson?_congr h]
  | property =>
    obtain rfl := Option.some.inj record
    exact Property.ofJson?_congr h
  | tree => exact Expression.decode?_congr_of_layout record h
  | orderItem =>
    obtain rfl := Option.some.inj record
    exact OrderItem.ofJson?_congr h
  | keyPredicate =>
    obtain rfl := Option.some.inj record
    exact KeyPredicate.ofJson?_congr h
  | settings =>
    obtain rfl := Option.some.inj record
    exact Settings.ofJson?_congr h

/-! ## Steps -/

namespace Layout

variable {layout : Layout} {field : Field} {v v' : Json} {entries entries' : List (String × Json)}
  {front back : List Json}

/-- Fields are told apart by their names. -/
theorem eq_of_name {field' : Field} (known : field ∈ layout.fields)
    (known' : field' ∈ layout.fields) (same : field.name = field'.name) : field = field' :=
  List.inj_on_of_nodup_map layout.distinct known known' same

theorem alike_reordered (perm : entries.Perm entries') :
    layout.Alike (object entries) (object entries') where
  isUsable_eq := by rw [isUsable_object, isUsable_object, perm.all_eq]
  isRecord_eq := rfl
  null_iff := ⟨nofun, nofun⟩
  entries := fun _ => by
    rw [value?_perm perm]
    exact .same

theorem alike_extended {name : String} (unknown : ∀ field ∈ layout.fields, field.name ≠ name)
    (usable : v.isUsable) : layout.Alike (object entries) (object ((name, v) :: entries)) where
  isUsable_eq := by simp [usable]
  isRecord_eq := rfl
  null_iff := ⟨nofun, nofun⟩
  entries := fun known => by
    rw [value?_cons_of_ne (unknown _ (List.mem_of_getElem? known)).symm]
    exact .same

theorem alike_omitted (known : field ∈ layout.fields) (default : v ∈ field.defaults)
    (once : ∀ entry ∈ entries, entry.1 ≠ field.name) :
    layout.Alike (object ((field.name, v) :: entries)) (object entries) where
  isUsable_eq := by simp [field.usable v default]
  isRecord_eq := rfl
  null_iff := ⟨nofun, nofun⟩
  entries := by
    intro i other known'
    by_cases same : field.name = other.name
    · obtain rfl := eq_of_name known (List.mem_of_getElem? known') same
      rw [value?_cons_self, if_pos (values_eq_nil once), value?_object,
        values_eq_nil once]
      exact .missing default
    · rw [value?_cons_of_ne same]
      exact .same

theorem alike_inField (known : field ∈ layout.fields) (alike : field.form.Alike v v') :
    layout.Alike (object ((field.name, v) :: entries)) (object ((field.name, v') :: entries)) where
  isUsable_eq := by simp [alike.isUsable_eq]
  isRecord_eq := rfl
  null_iff := ⟨nofun, nofun⟩
  entries := by
    intro i other known'
    by_cases same : field.name = other.name
    · obtain rfl := eq_of_name known (List.mem_of_getElem? known') same
      rw [value?_cons_self, value?_cons_self]
      split
      · exact .given alike
      · exact .same
    · rw [value?_cons_of_ne same, value?_cons_of_ne same]
      exact .same

theorem alike_shortened (known : layout.fields[front.length]? = some field)
    (default : v ∈ field.defaults) : layout.Alike (array (front ++ [v])) (array front) where
  isUsable_eq := by simp [field.usable v default]
  isRecord_eq := by
    have inside := (List.getElem?_eq_some_iff.1 known).1
    simp [isRecord, Nat.le_of_lt inside, Nat.succ_le_of_lt inside]
  null_iff := ⟨nofun, nofun⟩
  entries := by
    intro i other known'
    rw [value?, value?]
    rcases Nat.lt_trichotomy i front.length with before | rfl | behind
    · rw [List.getElem?_append_left before]
      exact .same
    · obtain rfl : field = other := Option.some.inj (known.symm.trans known')
      simpa using .missing default
    · rw [List.getElem?_eq_none (by simp; omega), List.getElem?_eq_none (by omega)]
      exact .same

theorem alike_inPlace (known : layout.fields[front.length]? = some field)
    (alike : field.form.Alike v v') :
    layout.Alike (array (front ++ v :: back)) (array (front ++ v' :: back)) where
  isUsable_eq := by simp [alike.isUsable_eq]
  isRecord_eq := by simp [isRecord]
  null_iff := ⟨nofun, nofun⟩
  entries := by
    intro i other known'
    rw [value?, value?]
    rcases Nat.lt_trichotomy i front.length with before | rfl | behind
    · rw [List.getElem?_append_left before, List.getElem?_append_left before]
      exact .same
    · obtain rfl : field = other := Option.some.inj (known.symm.trans known')
      simpa using .given alike
    · obtain ⟨k, rfl⟩ := Nat.exists_eq_add_of_lt behind
      rw [List.getElem?_append_right (by omega), List.getElem?_append_right (by omega)]
      have later : front.length + k + 1 - front.length = k + 1 := by omega
      rw [later, List.getElem?_cons_succ, List.getElem?_cons_succ]
      exact .same

end Layout

theorem Form.alike_inList {item : Form} {front back : List Json} {v v' : Json}
    (alike : item.Alike v v') :
    (Form.list item).Alike (array (front ++ v :: back)) (array (front ++ v' :: back)) where
  isUsable_eq := by simp [alike.isUsable_eq]
  read_eq := by
    intro access
    show List.mapM _ _ = List.mapM _ _
    rw [List.mapM_append, List.mapM_append, List.mapM_cons, List.mapM_cons, alike.read_eq]

/-- **A value that is written again is read as before**, and can be used where it could. -/
theorem Restates.alike {form : Form} {j j' : Json} (h : Restates form j j') : form.Alike j j' := by
  induction h with
  | refl => exact .refl _
  | symm _ ih => exact ⟨ih.isUsable_eq.symm, fun access => (ih.read_eq access).symm⟩
  | trans _ _ ih ih' =>
    exact ⟨ih.isUsable_eq.trans ih'.isUsable_eq, fun access =>
      (ih.read_eq access).trans (ih'.read_eq access)⟩
  | reordered record perm => exact .of_layout record (Layout.alike_reordered perm)
  | extended record unknown usable => exact .of_layout record (Layout.alike_extended unknown usable)
  | omitted record known default once =>
    exact .of_layout record (Layout.alike_omitted known default once)
  | inField record known _ ih => exact .of_layout record (Layout.alike_inField known ih)
  | shortened record known default =>
    exact .of_layout record (Layout.alike_shortened known default)
  | inPlace record known _ ih => exact .of_layout record (Layout.alike_inPlace known ih)
  | inList _ ih => exact Form.alike_inList ih

end EntityQuery
