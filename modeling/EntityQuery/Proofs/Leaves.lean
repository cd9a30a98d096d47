import EntityQuery.Proofs.Derivation
import Mathlib.Data.List.Forall2

/-!
# Leaves of a tree

The literals of a tree from left to right, and the values that a filter binds for them. The text of
a filter may show its placeholders in another order, and a composite property takes one literal for
several, but the values are bound in the order of the leaves.

## Main definitions

* `Expression.leaves`: the leaves of a tree, each a plain text with the kind declared for it
* `Encodes`: a leaf and the value it is bound as

## Main results

* `encodes_leaves`: a derivation binds the leaves of its tree, in order
* `filterText_binds_leaves`: a filter that compiles leaves its leaves in the ledger
-/

namespace EntityQuery

/-! ## Leaves -/

/-- The leaf of a literal, with its plain text. Booleans and `null` are none, and neither is a
malformed literal, which does not compile. -/
def literalLeaves (text : String) (kind : Kind) : List Literal :=
  if kind = .boolean ∨ kind = .null then []
  else
    match Literal.parse text with
    | .ok literal => [⟨kind, literal.text⟩]
    | .error _ => []

/-- The leaf of the slot of a part; an empty slot has none. -/
def slotLeaves (part : Property) (slot : Option String) : List Literal :=
  match slot, part.kind? with
  | some token, some kind => literalLeaves (Literal.render kind token) kind
  | _, _ => []

/-- The leaves of the parts of a composite property, which come in place of the literal that it is
compared with. -/
def compositeLeaves (separator : String) (p : Property) : Expression → List Literal
  | .literal text _ =>
    (p.parts.zip (slots separator (compositeValue text) p.parts.length)).flatMap
      fun (part, slot) => slotLeaves part slot
  | _ => []

mutual

/-- The leaves of a tree, from left to right and in depth. -/
def Expression.leaves (separator : String) : Expression → List Literal
  | .filter e => e.leaves separator
  | .unary _ operand => operand.leaves separator
  | .binary _ left right =>
    match compositeProperty? left with
    | some p => compositeLeaves separator p right
    | none => left.leaves separator ++ right.leaves separator
  | .property _ => []
  | .member path step => path.leaves separator ++ step.leaves separator
  | .literal text kind => literalLeaves text kind
  | .method _ args => argumentLeaves separator args

/-- The leaves of the arguments of a call, in the order of the arguments. -/
def argumentLeaves (separator : String) : List Expression → List Literal
  | [] => []
  | e :: es => e.leaves separator ++ argumentLeaves separator es

end

/-! ## Values of leaves -/

/-- A leaf and the value it is bound as, whatever the marker and the ledger. -/
def Encodes (leaf : Literal) (v : Value) : Prop :=
  ∀ (marker : String) (ledger : Ledger),
    (encodeText marker leaf.text leaf.kind none).over ledger =
      (.ok (placeholder marker ledger.nextIndex), ledger.bind v)

variable {scope : Scope}

theorem encodes_literalLeaves {start : Nat} {text rhs : String} {kind : Kind}
    {values : List Value} (h : LiteralYields scope start text kind rhs values) :
    List.Forall₂ Encodes (literalLeaves text kind) values := by
  obtain ⟨parsed, encodes⟩ := h
  by_cases hk : kind.family = .other
  · rw [literalLeaves, if_pos (Kind.family_eq_other.1 hk)]
    rcases encode_eq_keyword hk encodes with ⟨-, rfl | rfl⟩ | ⟨-, rfl⟩ <;> exact .nil
  · rw [literalLeaves, if_neg (mt Kind.family_eq_other.2 hk), parsed]
    obtain ⟨v, rfl⟩ := encode_eq_value hk encodes
    refine .cons (fun marker ledger => ?_) .nil
    rw [over_encodeText, encodes]
    rfl

theorem encodes_slotLeaves {operator : BinaryOperator} {owner part : Property}
    {slot : Option String} {start : Nat} {text : String} {values : List Value}
    (h : PartYields scope operator owner start (part, slot) text values) :
    List.Forall₂ Encodes (slotLeaves part slot) values := by
  obtain ⟨literal, -, right, -⟩ := h
  have leaves := encodes_literalLeaves right
  cases slot with
  | none =>
    simp only [slotLiteral, Except.ok.injEq, Prod.mk.injEq] at literal
    obtain ⟨rfl, rfl⟩ := literal
    exact leaves
  | some token =>
    cases hk : part.kind? with
    | none => simp [slotLiteral, hk] at literal
    | some k =>
      simp only [slotLiteral, hk, Except.ok.injEq, Prod.mk.injEq] at literal
      obtain ⟨rfl, rfl⟩ := literal
      simpa [slotLeaves, hk] using leaves

/-- Judgements in turn bind the leaves of the elements, one after the other. -/
theorem encodes_of_inTurn {α β : Type} {R : Nat → α → β → List Value → Prop}
    {leavesOf : α → List Literal} {start : Nat} {as : List α} {bs : List β} {values : List Value}
    (h : InTurn R start as bs values)
    (each : ∀ {start a b values}, R start a b values → List.Forall₂ Encodes (leavesOf a) values) :
    List.Forall₂ Encodes (as.flatMap leavesOf) values := by
  induction h with
  | nil => exact .nil
  | cons head _ ih =>
    rw [List.flatMap_cons]
    exact List.rel_append (each head) ih

/-- The steps of a path are properties, which have no leaves. -/
theorem leaves_of_stepNames {separator : String} {path : Expression} {names : List String}
    (h : stepNames path = .ok names) : path.leaves separator = [] := by
  refine stepNames_induct (motive := fun path _ => path.leaves separator = []) ?first ?further h
  case first => intros; rfl
  case further =>
    intro path names p name _ _ ih
    rw [Expression.leaves, ih]
    rfl

theorem argumentLeaves_eq_flatMap (separator : String) (es : List Expression) :
    argumentLeaves separator es = es.flatMap (Expression.leaves separator) := by
  induction es with
  | nil => rfl
  | cons e es ih => rw [argumentLeaves, ih, List.flatMap_cons]

/-- A derivation binds the leaves of its tree, in order. -/
theorem encodes_leaves {compared : Bool} {start : Nat} {e : Expression} {text : String}
    {values : List Value} (h : Yields scope compared start e text values) :
    List.Forall₂ Encodes (e.leaves scope.settings.separator) values := by
  induction h using Yields.induct with
  | filter _ ih => exact ih
  | unary _ ih => exact ih
  | composite left_eq conjuncts =>
    rw [Expression.leaves, left_eq]
    exact encodes_of_inTurn conjuncts fun h => encodes_slotLeaves h
  | binary simple _ _ _ ihl ihr =>
    rw [Expression.leaves, simple]
    exact List.rel_append ihl ihr
  | property _ => exact .nil
  | member named =>
    obtain ⟨_, _, -, steps, -⟩ := Scope.pathText_eq_ok.1 named
    rw [leaves_of_stepNames steps]
    exact .nil
  | literal placed => exact encodes_literalLeaves placed
  | method _ _ _ ihs =>
    rw [Expression.leaves, argumentLeaves_eq_flatMap]
    exact encodes_of_inTurn ihs fun ⟨_, ih⟩ => ih

/-! ## Order of parameters -/

/-- **The leaves of a filter fix its parameters.** A filter that compiles binds exactly one value
for each leaf of its tree, in the order of the leaves: the value that the leaf encodes to. -/
theorem filterText_binds_leaves {e : Expression} {ledger after : Ledger} {text : String}
    (unmarked : ledger.substringCompared = false)
    (h : (filterText scope e).over ledger = (.ok text, after)) :
    ∃ values : List Value, after = ledger.bindAll values ∧
      values.length = (e.leaves scope.settings.separator).length ∧
      ∀ (i : Nat) (leaf : Literal), (e.leaves scope.settings.separator)[i]? = some leaf →
        ∃ v, Encodes leaf v ∧ after.registry.find? (ledger.nextIndex + i) = some v := by
  obtain ⟨values, yields, rfl⟩ := yields_of_filterText unmarked h
  have encodes := encodes_leaves yields
  refine ⟨values, rfl, encodes.length_eq.symm, fun i leaf hl => ?_⟩
  obtain ⟨hi, rfl⟩ := List.getElem?_eq_some_iff.1 hl
  have hv : i < values.length := encodes.length_eq ▸ hi
  refine ⟨values[i], encodes.get hi hv, ?_⟩
  rw [Ledger.find?_bindAll, List.getElem?_eq_getElem hv]

/-- Orders whose name contains `ob`, other than line 7 without a region. -/
def orderFilter : Expression :=
  .binary .and
    (.binary .eq
      (.method .substringOf
        [.literal "'ob'" .string, .property ⟨"Name", .simple .string, none, []⟩])
      (.literal "true" .boolean))
    (.binary .ne
      (.property ⟨"Key", .complex "Key", none,
        [⟨"Line", .simple .int32, none, []⟩, ⟨"Region", .simple .string, none, []⟩]⟩)
      (.literal "'7;null'" .string))

/-- The condition of `orderFilter` after the value of a key. -/
def orderCondition : String :=
  "(((CASE WHEN (t.Name LIKE CONCAT('%',CONCAT(?2,'%')) ESCAPE '\\') THEN TRUE ELSE FALSE END) "
    ++ "= true) AND ((t.Line <> ?3) AND (t.Region IS NOT null)))"

/-- The ledger of a query with one value of a key. -/
def keyLedger : Ledger := ({} : Ledger).bind (.string "EU")

set_option maxRecDepth 8000 in
/-- After the value of a key, the leaves of `orderFilter` are bound second and third. -/
theorem filterText_binds_leaves_of_orderFilter :
    (filterText { alias? := some "t" } orderFilter).over keyLedger =
        (.ok orderCondition, keyLedger.bindAll [.string "ob", .int ⟨7, by decide, by decide⟩]) ∧
      ∃ values : List Value,
        keyLedger.bindAll [.string "ob", .int ⟨7, by decide, by decide⟩] =
          keyLedger.bindAll values ∧
        values.length = (orderFilter.leaves ";").length ∧
        ∀ (i : Nat) (leaf : Literal), (orderFilter.leaves ";")[i]? = some leaf →
          ∃ v, Encodes leaf v ∧
            (keyLedger.bindAll [.string "ob", .int ⟨7, by decide, by decide⟩]).registry.find?
              (2 + i) = some v := by
  refine ⟨?run, filterText_binds_leaves rfl ?run⟩
  rfl

end EntityQuery
