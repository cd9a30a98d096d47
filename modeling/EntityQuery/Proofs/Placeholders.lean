import EntityQuery.Proofs.Derivation
import EntityQuery.Proofs.Marks
import Mathlib.Data.List.Forall2

/-!
# Placeholders of a filter

Each value that a filter binds has one placeholder in its text. Texts of operands are cut, replaced,
swapped and left out where operators and methods put them together, but never a placeholder with
them, and the digits of none run into a text that follows.

## Main definitions

* `Expression.properties`: the properties that a tree names
* `Scope.MarksPlaceholders`: a scope in which `?` stands for placeholders only

## Main results

* `Marks.comparison`, `Marks.template`: the marks of comparisons and of method calls
* `marks_of_yields`: the marks of a derived text are those of the values it binds
* `filterText_marks_values`: and so are those of a filter that compiles
-/

namespace EntityQuery

/-! ## Operators -/

namespace Marks

variable {xs ys : List Nat}

theorem unaryText {operand : String} (operator : UnaryOperator) (h : Marks operand xs) :
    Marks (unaryText operator operand) xs := by
  cases operator with
  | not => exact (h.opened (by decide)).closed (by decide)
  | minus =>
    rw [EntityQuery.unaryText]
    split
    · rename_i rest text_eq
      rw [Marks, text_eq, markNumbers?_cons_of_ne (by decide)] at h
      rwa [Marks, String.toList_ofList]
    · rw [Marks, String.toList_ofList, markNumbers?_cons_of_ne (by decide)]
      exact h

/-- The text of the other operand is left out, so it must have no marks. -/
theorem patternTest {test : String} (h : Marks test xs) (right : String) :
    Marks (patternTest test right) xs := by
  rw [EntityQuery.patternTest]
  split
  · exact (h.opened (by decide)).closed (by decide)
  · exact ((h.substituteFirst (by decide) (by decide)).opened (by decide)).closed (by decide)

end Marks

theorem separates_tokenBefore {operator : BinaryOperator} {token : String}
    (h : operator.token? = some token) (right : String) :
    Separates (tokenBefore operator token right) := by
  unfold tokenBefore
  split <;> cases operator <;> cases h <;> decide

theorem Marks.plainComparison {operator : BinaryOperator} {lhs rhs text : String}
    {xs ys : List Nat} (hl : Marks lhs xs) (hr : Marks rhs ys)
    (h : plainComparison operator lhs rhs = .ok text) : Marks text (xs ++ ys) := by
  obtain ⟨token, token_eq, rfl⟩ := plainComparison_eq_ok.1 h
  have token_separates := separates_tokenBefore token_eq rhs
  have opened : Marks ("(" ++ lhs) xs := hl.opened (by decide)
  have compared := (opened.closed (by decide : Separates " ")).closed token_separates
  exact (compared.between (by decide) hr).closed (by decide)

/-- A text without marks has none after it is cut. -/
theorem MarkFree.leftText {left right : Expression} {lhs text : String} (free : MarkFree lhs)
    (h : leftText left right lhs = .ok text) : MarkFree text := by
  cases left with
  | property p =>
    simp only [EntityQuery.leftText] at h
    split at h
    · split at h
      · rename_i owner cut
        obtain rfl := Except.ok.inj h
        exact free.upToLast? cut
      · cases h
    · obtain rfl := Except.ok.inj h
      exact free
  | _ =>
    obtain rfl := Except.ok.inj h
    exact free

/-- Only the text of a property is cut, which has no marks. -/
theorem Marks.leftText {left right : Expression} {lhs text : String} {xs : List Nat}
    (property_free : ∀ p, left = .property p → MarkFree lhs) (hl : Marks lhs xs)
    (h : leftText left right lhs = .ok text) : Marks text xs := by
  cases left with
  | property p =>
    have lhs_free := property_free p rfl
    obtain rfl := hl.unique (.of_free lhs_free)
    exact .of_free (lhs_free.leftText h)
  | _ =>
    obtain rfl := Except.ok.inj h
    exact hl

/-- The marks of both operands come in order. A boolean literal, which a pattern test leaves out,
has none. -/
theorem Marks.comparison {operator : BinaryOperator} {left right : Expression}
    {lhs rhs text : String} {xs ys : List Nat}
    (property_free : ∀ p, left = .property p → MarkFree lhs)
    (boolean_nil : right.isBooleanLiteral → ys = []) (hl : Marks lhs xs) (hr : Marks rhs ys)
    (h : comparison operator left right lhs rhs = .ok text) : Marks text (xs ++ ys) := by
  simp only [EntityQuery.comparison, bind_eq_ok] at h
  obtain ⟨cut, hc, h⟩ := h
  have marks_left := hl.leftText property_free hc
  split at h
  · rename_i boolean
    split at h
    · obtain rfl := Except.ok.inj h
      rw [boolean_nil boolean, List.append_nil]
      exact marks_left.patternTest rhs
    · cases h
  · exact marks_left.plainComparison hr h

/-! ## Methods -/

theorem Marks.containsCase {part whole : String} {xs ys : List Nat} (hp : Marks part xs)
    (hw : Marks whole ys) : Marks (Method.containsCase part whole) (ys ++ xs) :=
  ((hw.opened (by decide)).between (by decide) hp).closed (by decide)

theorem markFree_datePart {m : Method} {part : String} (h : m.datePart? = some part) :
    MarkFree part := by
  cases m <;> cases h <;> decide

/-- A method call shows the marks of its arguments, not always in their order. -/
theorem Marks.template {m : Method} {compared : Bool} {texts : List String}
    {numbers : List (List Nat)} {text : String} (h : List.Forall₂ Marks texts numbers)
    (filled : m.template compared texts = .ok text) :
    ∃ shown, Marks text shown ∧ shown.Perm numbers.flatten := by
  unfold Method.template at filled
  split at filled
  case h_1 =>
    simp only [List.forall₂_cons_left_iff, List.forall₂_nil_left_iff] at h
    obtain ⟨xs, _, ht, ⟨ys, _, hs, rfl, rfl⟩, rfl⟩ := h
    obtain rfl := Except.ok.inj filled
    refine ⟨xs ++ ys, ?_, by simp⟩
    exact ((ht.opened (by decide)).between (by decide) hs).closed (by decide)
  case h_2 =>
    simp only [List.forall₂_cons_left_iff, List.forall₂_nil_left_iff] at h
    obtain ⟨xs, _, ht, ⟨ys, _, hs, ⟨zs, _, hc, rfl, rfl⟩, rfl⟩, rfl⟩ := h
    obtain rfl := Except.ok.inj filled
    refine ⟨xs ++ ys ++ zs, ?_, by simp⟩
    exact (((ht.opened (by decide)).between (by decide) hs).between (by decide) hc).closed
      (by decide)
  case h_3 =>
    simp only [List.forall₂_cons_left_iff, List.forall₂_nil_left_iff] at h
    obtain ⟨xs, _, hp, ⟨ys, _, hw, rfl, rfl⟩, rfl⟩ := h
    obtain rfl := Except.ok.inj filled
    refine ⟨ys ++ xs, ?_, by simpa using List.perm_append_comm⟩
    split
    · exact hp.containsCase hw
    · exact (hp.containsCase hw).closed (by decide)
  case h_4 =>
    simp only [List.forall₂_cons_left_iff, List.forall₂_nil_left_iff] at h
    obtain ⟨xs, _, ht, rfl, rfl⟩ := h
    obtain rfl := Except.ok.inj filled
    exact ⟨xs, (ht.opened (by decide)).closed (by decide), by simp⟩
  case h_5 | h_6 =>
    simp only [List.forall₂_cons_left_iff, List.forall₂_nil_left_iff] at h
    obtain ⟨xs, _, ht, ⟨ys, _, hp, rfl, rfl⟩, rfl⟩ := h
    obtain rfl := Except.ok.inj filled
    exact ⟨xs ++ ys, (ht.between (by decide) hp).closed (by decide), by simp⟩
  case h_7 =>
    simp only [List.forall₂_cons_left_iff, List.forall₂_nil_left_iff] at h
    obtain ⟨xs, _, hd, rfl, rfl⟩ := h
    split at filled
    · rename_i part part_eq
      obtain rfl := Except.ok.inj filled
      have opening_free : MarkFree ("EXTRACT(" ++ part ++ " ") :=
        (MarkFree.append (by decide) (markFree_datePart part_eq)).append (by decide)
      exact ⟨xs, (hd.opened opening_free).closed (by decide), by simp⟩
    · cases filled
  case h_8 => cases filled

/-- Conditions that are joined show their marks in order. -/
theorem Marks.conjunction {conditions : List String} {numbers : List (List Nat)}
    (h : List.Forall₂ Marks conditions numbers) :
    Marks (conjunction conditions) numbers.flatten := by
  unfold EntityQuery.conjunction
  induction h with
  | nil =>
    rw [String.intercalate_nil]
    rfl
  | cons head tail ih =>
    cases tail with
    | nil =>
      rw [String.intercalate_singleton, List.flatten_cons, List.flatten_nil, List.append_nil]
      exact head
    | cons next rest =>
      rw [String.intercalate_cons_cons, List.flatten_cons]
      exact head.between (by decide) ih

/-! ## Names -/

mutual

/-- The properties that a tree names, each with its parts. -/
def Expression.properties : Expression → List Property
  | .filter e => e.properties
  | .unary _ operand => operand.properties
  | .binary _ left right => left.properties ++ right.properties
  | .property p => p :: p.parts
  | .member path step => path.properties ++ step.properties
  | .literal _ _ => []
  | .method _ args => argumentProperties args

/-- The properties that the arguments of a call name. -/
def argumentProperties : List Expression → List Property
  | [] => []
  | e :: es => e.properties ++ argumentProperties es

end

theorem mem_argumentProperties {e : Expression} {es : List Expression} {p : Property}
    (he : e ∈ es) (hp : p ∈ e.properties) : p ∈ argumentProperties es := by
  induction es with
  | nil => cases he
  | cons first es ih =>
    rw [argumentProperties, List.mem_append]
    rcases List.mem_cons.1 he with rfl | he
    · exact .inl hp
    · exact .inr (ih he)

/-- A scope in which `?` stands for placeholders only. -/
structure Scope.MarksPlaceholders (scope : Scope) : Prop where
  marker_eq : scope.settings.marker = "?"
  alias_free : ∀ table ∈ scope.alias?, MarkFree table

variable {scope : Scope}

theorem Scope.MarksPlaceholders.qualify_free (fits : scope.MarksPlaceholders) {name : String}
    (free : MarkFree name) : MarkFree (qualify scope.alias? name) := by
  unfold qualify
  split
  · rename_i table alias_eq
    exact ((fits.alias_free table alias_eq).append (by decide)).append free
  · exact free

theorem Scope.MarksPlaceholders.columnText_free (fits : scope.MarksPlaceholders) {p : Property}
    {text : String} (free : MarkFree p.queryName) (h : scope.columnText p = .ok text) :
    MarkFree text := by
  obtain ⟨-, rfl⟩ := Scope.columnText_eq_ok.1 h
  exact fits.qualify_free free

/-- What holds of the query names of all properties on a path holds of the names of its steps. -/
theorem forall_mem_stepNames {R : String → Prop} {path : Expression} {names : List String}
    (all : ∀ p ∈ path.properties, R p.queryName) (h : stepNames path = .ok names) :
    ∀ name ∈ names, R name := by
  refine stepNames_induct (motive := fun path names =>
    (∀ p ∈ path.properties, R p.queryName) → ∀ name ∈ names, R name) ?first ?further h all
  case first =>
    intro p name column all name' hm
    obtain ⟨-, rfl⟩ := columnName_eq_ok.1 column
    obtain rfl := List.mem_singleton.1 hm
    exact all p (by simp [Expression.properties])
  case further =>
    intro path names p name _ column ih all
    obtain ⟨-, rfl⟩ := columnName_eq_ok.1 column
    intro name' hm
    rcases List.mem_append.1 hm with hm | hm
    · apply ih ?_ name' hm
      intro q hq
      exact all q (List.mem_append_left _ hq)
    · obtain rfl := List.mem_singleton.1 hm
      exact all p (by simp [Expression.properties])

theorem Scope.MarksPlaceholders.pathText_free (fits : scope.MarksPlaceholders)
    {path : Expression} {text : String} (free : ∀ p ∈ path.properties, MarkFree p.queryName)
    (h : scope.pathText path = .ok text) : MarkFree text := by
  obtain ⟨table, names, alias_eq, steps, rfl⟩ := Scope.pathText_eq_ok.1 h
  have table_free := fits.alias_free table alias_eq
  have names_free := forall_mem_stepNames free steps
  exact (table_free.append (by decide)).append (.intercalate (by decide) names_free)

/-! ## Derivations -/

/-- A plain text shows the placeholder of its value, or no mark if it becomes a keyword. -/
theorem marks_written {text : String} {kind : Kind} {native : Option NativeType}
    {encoded : Encoded} (fits : scope.MarksPlaceholders)
    (h : encode text kind native = .ok encoded) (start : Nat) :
    Marks (encoded.written scope.settings.marker start)
      (List.range' start encoded.values.length) := by
  have free : ∀ word ∈ ["true", "false", "null"], MarkFree word := by decide
  rcases encode_cases h with ⟨v, rfl⟩ | ⟨word, hm, rfl⟩
  · rw [Encoded.written, fits.marker_eq]
    exact .placeholder start
  · exact .of_free (free word hm)

theorem LiteralYields.marks {start : Nat} {text rhs : String} {kind : Kind} {values : List Value}
    (fits : scope.MarksPlaceholders) (h : LiteralYields scope start text kind rhs values) :
    Marks rhs (List.range' start values.length) := by
  obtain ⟨-, encodes⟩ := h
  exact marks_written fits encodes start

theorem LiteralYields.values_eq_nil {start : Nat} {text rhs : String} {kind : Kind}
    {values : List Value} (boolean : (Expression.literal text kind).isBooleanLiteral)
    (h : LiteralYields scope start text kind rhs values) : values = [] := by
  obtain rfl : kind = .boolean := beq_iff_eq.1 boolean
  rcases h.shown with ⟨-, -, nil⟩ | ⟨-, -, nil⟩ | ⟨not_other, -, -⟩
  · exact nil
  · exact nil
  · exact absurd rfl not_other

theorem PartYields.marks {operator : BinaryOperator} {owner part : Property}
    {slot : Option String} {start : Nat} {text : String} {values : List Value}
    (fits : scope.MarksPlaceholders) (free : MarkFree part.queryName)
    (h : PartYields scope operator owner start (part, slot) text values) :
    Marks text (List.range' start values.length) := by
  obtain ⟨-, column, right, compared⟩ := h
  have lhs_free := fits.columnText_free free column
  refine Marks.comparison (fun _ _ => lhs_free) ?_ (.of_free lhs_free) (right.marks fits) compared
  intro boolean
  rw [right.values_eq_nil boolean]
  rfl

theorem mem_properties_of_composite {left : Expression} {owner part : Property}
    (left_eq : compositeProperty? left = some owner) (hm : part ∈ owner.parts) :
    part ∈ left.properties := by
  obtain ⟨rfl, -⟩ := compositeProperty?_eq_some.1 left_eq
  exact List.mem_cons_of_mem _ hm

/-- Texts in turn show together the marks of the values that are bound in turn. -/
theorem marks_of_inTurn {α : Type} {R : Nat → α → String → List Value → Prop} {start : Nat}
    {as : List α} {texts : List String} {values : List Value} (h : InTurn R start as texts values)
    (each : ∀ {start a text values}, a ∈ as → R start a text values →
      ∃ shown, Marks text shown ∧ shown.Perm (List.range' start values.length)) :
    ∃ numbers, List.Forall₂ Marks texts numbers ∧
      numbers.flatten.Perm (List.range' start values.length) := by
  induction h with
  | nil => exact ⟨[], .nil, .nil⟩
  | cons head _ ih =>
    obtain ⟨shown, marks, perm⟩ := each (by simp) head
    obtain ⟨numbers, all_marks, all_perm⟩ := ih fun hm => each (List.mem_cons_of_mem _ hm)
    refine ⟨shown :: numbers, .cons marks all_marks, ?_⟩
    rw [List.flatten_cons, List.length_append, ← List.range'_append_1]
    exact perm.append all_perm

/-- The marks of a derived text are those of the values it binds, each once. -/
theorem marks_of_yields (fits : scope.MarksPlaceholders) {compared : Bool} {start : Nat}
    {e : Expression} {text : String} {values : List Value}
    (h : Yields scope compared start e text values)
    (free : ∀ p ∈ e.properties, MarkFree p.queryName) :
    ∃ shown, Marks text shown ∧ shown.Perm (List.range' start values.length) := by
  induction h using Yields.induct with
  | filter _ ih => exact ih free
  | unary _ ih =>
    obtain ⟨shown, marks, perm⟩ := ih free
    exact ⟨shown, marks.unaryText _, perm⟩
  | composite left_eq conjuncts =>
    obtain ⟨numbers, all_marks, perm⟩ := marks_of_inTurn conjuncts fun {_ part _ _} hm h => by
      have part_named := mem_properties_of_composite left_eq (List.of_mem_zip hm).1
      exact ⟨_, h.marks fits (free _ (List.mem_append_left _ part_named)), .refl _⟩
    have conjunction := Marks.conjunction all_marks
    exact ⟨_, (conjunction.opened (by decide)).closed (by decide), perm⟩
  | binary _ lefts rights joined ihl ihr =>
    obtain ⟨xs, marks_left, perm_left⟩ := ihl fun p hp => free p (List.mem_append_left _ hp)
    obtain ⟨ys, marks_right, perm_right⟩ := ihr fun p hp => free p (List.mem_append_right _ hp)
    refine ⟨xs ++ ys, Marks.comparison ?property_free ?boolean_nil marks_left marks_right joined,
      ?perm⟩
    case property_free =>
      rintro p rfl
      cases lefts with | property column =>
      exact fits.columnText_free (free p (by simp [Expression.properties])) column
    case boolean_nil =>
      intro boolean
      cases rights with
      | literal placed =>
        rw [placed.values_eq_nil boolean] at perm_right
        exact perm_right.eq_nil
      | _ => cases boolean
    case perm =>
      rw [List.length_append, ← List.range'_append_1]
      exact perm_left.append perm_right
  | property column =>
    have text_free := fits.columnText_free (free _ (by simp [Expression.properties])) column
    exact ⟨[], .of_free text_free, .nil⟩
  | member named => exact ⟨[], .of_free (fits.pathText_free free named), .nil⟩
  | literal placed => exact ⟨_, placed.marks fits, .refl _⟩
  | method _ _ filled ihs =>
    obtain ⟨numbers, all_marks, all_perm⟩ := marks_of_inTurn ihs fun hm ⟨_, ih⟩ =>
      ih fun p hp => free p (mem_argumentProperties hm hp)
    obtain ⟨shown, marks, perm⟩ := Marks.template all_marks filled
    exact ⟨shown, marks, perm.trans all_perm⟩

/-! ## Filters -/

/-- **Placeholders and values correspond one to one.** Where `?` marks placeholders and stands in no
name, every mark in the text of a filter that compiles has a number, and these numbers are the
indices of the values that the filter binds, each once. -/
theorem filterText_marks_values (fits : scope.MarksPlaceholders) {e : Expression}
    (free : ∀ p ∈ e.properties, MarkFree p.queryName) {ledger after : Ledger} {text : String}
    (unmarked : ledger.substringCompared = false)
    (h : (filterText scope e).over ledger = (.ok text, after)) :
    ∃ (values : List Value) (shown : List Nat), after = ledger.bindAll values ∧
      markNumbers? text.toList = some shown ∧
      shown.Perm (List.range' ledger.nextIndex values.length) := by
  obtain ⟨values, yields, rfl⟩ := yields_of_filterText unmarked h
  obtain ⟨shown, marks, perm⟩ := marks_of_yields fits yields free
  exact ⟨values, shown, rfl, marks, perm⟩

/-- Names that contain `ob` from their second character on. -/
def tailFilter : Expression :=
  .binary .eq
    (.method .substringOf
      [.literal "'ob'" .string,
        .method .substring [.property ⟨"Name", .simple .string, none, []⟩, .literal "1" .int32]])
    (.literal "true" .boolean)

/-- The condition of `tailFilter`. -/
def tailCondition : String :=
  "((CASE WHEN (SUBSTRING(t.Name, ?2 + 1) LIKE CONCAT('%',CONCAT(?1,'%')) ESCAPE '\\') THEN TRUE "
    ++ "ELSE FALSE END) = true)"

set_option maxRecDepth 8000 in
/-- The text that is searched comes first in the condition and second among the values. -/
theorem filterText_marks_values_of_tailFilter :
    ∃ after : Ledger,
      (filterText { alias? := some "t" } tailFilter).over {} = (.ok tailCondition, after) ∧
      ∃ (values : List Value) (shown : List Nat), after = ({} : Ledger).bindAll values ∧
        markNumbers? tailCondition.toList = some shown ∧
        shown.Perm (List.range' 1 values.length) := by
  have fits : Scope.MarksPlaceholders { alias? := some "t" } :=
    ⟨rfl, fun table hm => by obtain rfl := Option.some.inj hm; decide⟩
  have free : ∀ p ∈ tailFilter.properties, MarkFree p.queryName := by
    simp only [tailFilter, Expression.properties, argumentProperties]
    decide
  refine ⟨({} : Ledger).bindAll [.string "ob", .int ⟨1, by decide, by decide⟩], ?run,
    filterText_marks_values fits free rfl ?run⟩
  rfl

end EntityQuery
