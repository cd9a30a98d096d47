import EntityQuery.Proofs.Derivation
import EntityQuery.Query.Key

/-!
# Derivations of key conditions

What a key that compiles comes to, by one rule for each form of a property: a column that is
compared with `null` or has no component, a column that is compared with a value, and a composite
property, whose text is split among its parts. The rules know no ledger; they say what text a
property has and which values it binds from an index on.

## Main definitions

* `keyParts`: the parts of a composite property with the texts they are given
* `KeyYields`: the rules of keys
* `Property.columns`: the properties that are stored for a property

## Main results

* `KeyYields.induct`: induction over derivations
* `keyYields_of_keyText`, `keyYields_of_keyCondition?`: a key that compiles has a derivation, and
  its ledger binds the derived values
-/

namespace EntityQuery

/-! ## Rules -/

/-- The parts of a composite property with the texts they are given. -/
def keyParts (scope : Scope) (p : Property) (literal : String) : List (Property × String) :=
  p.parts.zip ((slots scope.settings.separator (Text.unquote literal) p.parts.length).map
    (·.getD "null"))

/-- The condition of a property that is given a text, and the values it binds. -/
inductive KeyYields (scope : Scope) : Nat → Property × String → String → List Value → Prop
  | absent {start : Nat} {p : Property} {literal target : String} (simple : p.isComposite = false)
      (named : scope.keyName p = .ok target) (absent : Text.unquote literal = "null") :
      KeyYields scope start (p, literal) (target ++ " IS null") []
  | given {start : Nat} {p : Property} {literal target : String} {kind : Kind} {encoded : Encoded}
      (simple : p.isComposite = false) (named : scope.keyName p = .ok target)
      (given : Text.unquote literal ≠ "null") (kind_eq : p.kind? = some kind)
      (encodes : encode (Text.unquote literal) kind p.native? = .ok encoded) :
      KeyYields scope start (p, literal)
        (target ++ " = " ++ encoded.written scope.settings.marker start) encoded.values
  | composite {start : Nat} {p : Property} {literal : String} {texts : List String}
      {values : List Value} (composite : p.isComposite = true)
      (conditions : InTurn (KeyYields scope) start (keyParts scope p literal) texts values) :
      KeyYields scope start (p, literal) ("(" ++ conjunction texts ++ ")") values

/-- Induction over derivations: the parts of a composite property satisfy the motive in turn. -/
theorem KeyYields.induct {scope : Scope}
    {motive : Nat → Property × String → String → List Value → Prop}
    (absent : ∀ {start p literal target}, p.isComposite = false → scope.keyName p = .ok target →
      Text.unquote literal = "null" → motive start (p, literal) (target ++ " IS null") [])
    (given : ∀ {start p literal target kind encoded}, p.isComposite = false →
      scope.keyName p = .ok target → Text.unquote literal ≠ "null" → p.kind? = some kind →
      encode (Text.unquote literal) kind p.native? = .ok encoded →
      motive start (p, literal)
        (target ++ " = " ++ encoded.written scope.settings.marker start) encoded.values)
    (composite : ∀ {start p literal texts values}, p.isComposite = true →
      InTurn motive start (keyParts scope p literal) texts values →
      motive start (p, literal) ("(" ++ conjunction texts ++ ")") values)
    {start : Nat} {entry : Property × String} {text : String} {values : List Value}
    (h : KeyYields scope start entry text values) : motive start entry text values := by
  refine @KeyYields.rec scope (fun start entry text values _ => motive start entry text values)
    (fun start entries texts values _ => InTurn motive start entries texts values)
    ?absent ?given ?composite ?nil ?cons _ _ _ _ h
  case absent => exact absent
  case given => exact given
  case composite => exact fun is_composite _ ih => composite is_composite ih
  case nil => exact .nil
  case cons => exact fun _ _ head tail => .cons head tail

variable {scope : Scope}

/-! ## Keys that compile -/

theorem keyYields_of_simpleKeyText {p : Property} {literal text : String} {ledger after : Ledger}
    (simple : p.isComposite = false)
    (h : (simpleKeyText scope p (Text.unquote literal)).over ledger = (.ok text, after)) :
    ∃ values, KeyYields scope ledger.nextIndex (p, literal) text values ∧
      after = ledger.bindAll values := by
  rw [simpleKeyText, Compile.over_bind_eq_ok] at h
  obtain ⟨target, next, target_eq, h⟩ := h
  rw [Compile.over_liftM, Prod.mk.injEq] at target_eq
  obtain ⟨named, rfl⟩ := target_eq
  split at h
  · rename_i null
    obtain ⟨rfl, rfl⟩ := Compile.over_pure_eq_ok.1 h
    exact ⟨[], .absent simple named null, rfl⟩
  · rename_i not_null
    split at h
    · cases (Prod.mk.inj h).1
    · rename_i kind kind_eq
      rw [Compile.over_bind_eq_ok] at h
      obtain ⟨placed, last, encoding, h⟩ := h
      obtain ⟨rfl, rfl⟩ := Compile.over_pure_eq_ok.1 h
      obtain ⟨encoded, encodes, rfl, rfl⟩ := over_encodeText_eq_ok.1 encoding
      exact ⟨encoded.values, .given simple named not_null kind_eq encodes, rfl⟩

mutual

/-- The condition of a property that compiles has a derivation, whatever its parts are. -/
theorem keyYields_of_keyText :
    ∀ (p : Property) {literal text : String} {ledger after : Ledger},
      (keyText scope p literal).over ledger = (.ok text, after) →
      ∃ values, KeyYields scope ledger.nextIndex (p, literal) text values ∧
        after = ledger.bindAll values
  | ⟨name, type, mapping, parts⟩, literal, text, ledger, after, h => by
    rw [keyText] at h
    by_cases simple : parts.isEmpty = true
    · rw [if_pos simple] at h
      exact keyYields_of_simpleKeyText (by simp [Property.isComposite, simple]) h
    · rw [if_neg simple, Compile.over_bind_eq_ok] at h
      obtain ⟨texts, next, conditions, h⟩ := h
      obtain ⟨rfl, rfl⟩ := Compile.over_pure_eq_ok.1 h
      obtain ⟨values, yields, rfl⟩ := keyYields_of_keyPartTexts parts conditions
      exact ⟨values, .composite (by simpa [Property.isComposite] using simple) yields, rfl⟩

/-- The conditions of parts that compile have derivations in turn. -/
theorem keyYields_of_keyPartTexts :
    ∀ (parts : List Property) {slots : List (Option String)} {texts : List String}
      {ledger after : Ledger},
      (keyPartTexts scope parts slots).over ledger = (.ok texts, after) →
      ∃ values, InTurn (KeyYields scope) ledger.nextIndex
          (parts.zip (slots.map (·.getD "null"))) texts values ∧
        after = ledger.bindAll values
  | [], slots, texts, ledger, after, h => by
    rw [keyPartTexts] at h
    · obtain ⟨rfl, rfl⟩ := Compile.over_pure_eq_ok.1 h
      exact ⟨[], .nil, rfl⟩
    · simp
  | part :: parts, [], texts, ledger, after, h => by
    rw [keyPartTexts] at h
    · obtain ⟨rfl, rfl⟩ := Compile.over_pure_eq_ok.1 h
      exact ⟨[], .nil, rfl⟩
    · simp
  | part :: parts, slot :: slots, texts, ledger, after, h => by
    rw [keyPartTexts] at h
    simp only [Compile.over_bind_eq_ok, Compile.over_pure, Prod.mk.injEq, Except.ok.injEq] at h
    obtain ⟨text, next, first, texts, last, others, rfl, rfl⟩ := h
    obtain ⟨values, head, rfl⟩ := keyYields_of_keyText part first
    obtain ⟨more, tail, rfl⟩ := keyYields_of_keyPartTexts parts others
    rw [Ledger.nextIndex_bindAll] at tail
    exact ⟨values ++ more, .cons head tail, (ledger.bindAll_append values more).symm⟩

end

/-- The property of a predicate and the text given for it. -/
def KeyPredicate.entry (predicate : KeyPredicate) : Property × String :=
  (predicate.property, predicate.literal)

theorem keyYields_of_keyTexts {predicates : List KeyPredicate} {texts : List String}
    {ledger after : Ledger} (h : (keyTexts scope predicates).over ledger = (.ok texts, after)) :
    ∃ values, InTurn (KeyYields scope) ledger.nextIndex (predicates.map (·.entry)) texts values ∧
      after = ledger.bindAll values := by
  induction predicates generalizing texts ledger after with
  | nil =>
    obtain ⟨rfl, rfl⟩ := Compile.over_pure_eq_ok.1 h
    exact ⟨[], .nil, rfl⟩
  | cons predicate predicates ih =>
    simp only [keyTexts, Compile.over_bind_eq_ok, Compile.over_pure, Prod.mk.injEq,
      Except.ok.injEq] at h
    obtain ⟨text, next, first, texts, last, others, rfl, rfl⟩ := h
    obtain ⟨values, head, rfl⟩ := keyYields_of_keyText predicate.property first
    obtain ⟨more, tail, rfl⟩ := ih others
    rw [Ledger.nextIndex_bindAll] at tail
    exact ⟨values ++ more, .cons head tail, (ledger.bindAll_append values more).symm⟩

/-- A key that compiles has derivations of its conditions in turn, and no text if it is empty. -/
theorem keyYields_of_keyCondition? {predicates : List KeyPredicate} {condition? : Option String}
    {ledger after : Ledger}
    (h : (keyCondition? scope predicates).over ledger = (.ok condition?, after)) :
    ∃ texts values, InTurn (KeyYields scope) ledger.nextIndex (predicates.map (·.entry)) texts
        values ∧ after = ledger.bindAll values ∧
      condition? = if predicates.isEmpty then none else some (conjunction texts) := by
  rw [keyCondition?] at h
  split at h
  · rename_i empty
    obtain ⟨rfl, rfl⟩ := Compile.over_pure_eq_ok.1 h
    obtain rfl := List.isEmpty_iff.1 empty
    exact ⟨[], [], .nil, rfl, rfl⟩
  · rename_i given
    rw [Compile.over_bind_eq_ok] at h
    obtain ⟨texts, next, conditions, h⟩ := h
    obtain ⟨rfl, rfl⟩ := Compile.over_pure_eq_ok.1 h
    obtain ⟨values, yields, rfl⟩ := keyYields_of_keyTexts conditions
    exact ⟨texts, values, yields, rfl, by rw [if_neg given]⟩

/-! ## Columns -/

mutual

/-- The properties that are stored for a property: itself, or those of its parts. -/
def Property.columns : Property → List Property
  | ⟨name, type, mapping, parts⟩ =>
    if parts.isEmpty then [⟨name, type, mapping, parts⟩] else partColumns parts

/-- The properties that are stored for the parts of a property. -/
def partColumns : List Property → List Property
  | [] => []
  | part :: parts => part.columns ++ partColumns parts

end

theorem mem_columns_self {p : Property} (simple : p.isComposite = false) : p ∈ p.columns := by
  obtain ⟨name, type, mapping, parts⟩ := p
  have empty : parts.isEmpty = true := by simpa [Property.isComposite] using simple
  rw [Property.columns, if_pos empty]
  exact List.mem_singleton_self _

theorem mem_partColumns {part column : Property} {parts : List Property} (hp : part ∈ parts)
    (hc : column ∈ part.columns) : column ∈ partColumns parts := by
  induction parts with
  | nil => cases hp
  | cons first parts ih =>
    rw [partColumns, List.mem_append]
    rcases List.mem_cons.1 hp with rfl | hp
    · exact .inl hc
    · exact .inr (ih hp)

/-- A column of a part is a column of the whole. -/
theorem mem_columns_of_part {p part column : Property} (hp : part ∈ p.parts)
    (hc : column ∈ part.columns) : column ∈ p.columns := by
  obtain ⟨name, type, mapping, parts⟩ := p
  have nonempty : parts ≠ [] := List.ne_nil_of_mem hp
  rw [Property.columns, if_neg (by simpa using nonempty)]
  exact mem_partColumns hp hc

theorem mem_parts_of_keyParts {p : Property} {literal : String} {entry : Property × String}
    (h : entry ∈ keyParts scope p literal) : entry.1 ∈ p.parts :=
  (List.of_mem_zip h).1

end EntityQuery
