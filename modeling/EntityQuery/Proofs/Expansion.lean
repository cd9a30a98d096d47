import EntityQuery.Proofs.Binding
import EntityQuery.Proofs.NullTests
import EntityQuery.Proofs.Rendering

/-!
# Expansion of composite comparisons

The comparison of a composite property with a literal is one conjunct for each part. The text of the
literal is split into components, and each part is compared directly with the component at its
position, rendered as a literal of the kind of the part, or with `null` where its component is
missing. The conjuncts share the ledger, one after the other.

## Main definitions

* `Successive`: computations that succeed one after the other
* `partLiteral?`: the literal that a part is compared with
* `Expansion`: the conjuncts of a composite comparison and the ledgers between them

## Main results

* `compositeText_eq_ok`: a composite comparison compiles where its conjuncts do, in a row
* `over_directText_string`: a component of a string is bound as it is written
* `compositeComparison_expands`: the expansion of a composite comparison
-/

namespace EntityQuery

/-! ## Computations in a row -/

/-- Computations on the elements of a list that succeed one after the other, each over the ledger
that the one before it leaves. -/
inductive Successive {α β : Type} (run : α → Compile β) :
    Ledger → List α → List β → Ledger → Prop
  | nil {ledger : Ledger} : Successive run ledger [] [] ledger
  | cons {ledger next after : Ledger} {a : α} {b : β} {as : List α} {bs : List β}
      (head : (run a).over ledger = (.ok b, next)) (tail : Successive run next as bs after) :
      Successive run ledger (a :: as) (b :: bs) after

namespace Successive

variable {α β γ : Type} {run : α → Compile β} {ledger after : Ledger} {as : List α} {bs : List β}

/-- Computations that do the same up to a map of their results succeed in a row as well. -/
theorem map {other : α → Compile γ} {f : β → γ} (h : Successive run ledger as bs after)
    (each : ∀ a ∈ as, ∀ {b before next}, (run a).over before = (.ok b, next) →
      (other a).over before = (.ok (f b), next)) :
    Successive other ledger as (bs.map f) after := by
  induction h with
  | nil => exact .nil
  | cons head _ ih =>
    refine .cons (each _ List.mem_cons_self head) (ih ?_)
    intro a ha
    exact each a (List.mem_cons_of_mem _ ha)

/-- The ledgers between computations in a row, numbered from the first one on. -/
theorem exists_ledgers (h : Successive run ledger as bs after) :
    bs.length = as.length ∧ ∃ ledgers : Nat → Ledger, ledgers 0 = ledger ∧
      ledgers as.length = after ∧ ∀ (i : Nat) (a : α), as[i]? = some a →
        ∃ b, bs[i]? = some b ∧ (run a).over (ledgers i) = (.ok b, ledgers (i + 1)) := by
  induction h with
  | nil => exact ⟨rfl, fun _ => _, rfl, rfl, nofun⟩
  | @cons ledger next after a b as bs head _ ih =>
    obtain ⟨length_eq, ledgers, first, last, each⟩ := ih
    refine ⟨congrArg (· + 1) length_eq, fun i => i.casesOn ledger ledgers, rfl, last, ?_⟩
    intro i a' ha'
    cases i with
    | zero =>
      obtain rfl := Option.some.inj ha'
      refine ⟨b, rfl, ?_⟩
      show (run a).over ledger = (.ok b, ledgers 0)
      rw [head, first]
    | succ i => exact each i a' ha'

/-- A loop over two lists that stops where either ends runs over the pairs in a row. -/
theorem of_loop {σ : Type} {loop : List α → List σ → Compile (List β)} {run : α × σ → Compile β}
    (stop : ∀ as ss, as = [] ∨ ss = [] → loop as ss = pure [])
    (go : ∀ a as s ss, loop (a :: as) (s :: ss) = (do
      let b ← run (a, s)
      let bs ← loop as ss
      return b :: bs))
    (as : List α) (ss : List σ) {ledger after : Ledger} {bs : List β} :
    (loop as ss).over ledger = (.ok bs, after) ↔ Successive run ledger (as.zip ss) bs after := by
  induction as generalizing ss ledger bs with
  | nil =>
    rw [stop _ _ (.inl rfl), Compile.over_pure_eq_ok]
    constructor
    · rintro ⟨rfl, rfl⟩
      exact .nil
    · rintro ⟨⟩
      exact ⟨rfl, rfl⟩
  | cons a as ih =>
    cases ss with
    | nil =>
      rw [stop _ _ (.inr rfl), Compile.over_pure_eq_ok]
      constructor
      · rintro ⟨rfl, rfl⟩
        exact .nil
      · rintro ⟨⟩
        exact ⟨rfl, rfl⟩
    | cons s ss =>
      simp only [go, List.zip_cons_cons, Compile.over_bind_eq_ok, Compile.over_pure_eq_ok]
      constructor
      · rintro ⟨b, next, head, bs, last, tail, rfl, rfl⟩
        exact .cons head ((ih ss).1 tail)
      · rintro (_ | ⟨head, tail⟩)
        exact ⟨_, _, head, _, _, (ih ss).2 tail, rfl, rfl⟩

/-- The ledgers between computations on parts and their slots, each of which holds the component at
the position of its part. -/
theorem exists_ledgers_of_slots {run : Property × Option String → Compile β}
    {parts : List Property} {separator text : String}
    (h : Successive run ledger (parts.zip (slots separator text parts.length)) bs after) :
    bs.length = parts.length ∧ ∃ ledgers : Nat → Ledger, ledgers 0 = ledger ∧
      ledgers parts.length = after ∧ ∀ (i : Nat) (part : Property), parts[i]? = some part →
        ∃ b, bs[i]? = some b ∧
          (run (part, component? (Text.split separator text) i)).over (ledgers i) =
            (.ok b, ledgers (i + 1)) := by
  have zip_length : (parts.zip (slots separator text parts.length)).length = parts.length := by
    rw [List.length_zip, length_slots, Nat.min_self]
  obtain ⟨length_eq, ledgers, first, last, each⟩ := h.exists_ledgers
  rw [zip_length] at length_eq last
  refine ⟨length_eq, ledgers, first, last, fun i part part_eq => each i _ ?_⟩
  obtain ⟨inside, -⟩ := List.getElem?_eq_some_iff.1 part_eq
  rw [slots_eq_map, List.getElem?_zip_eq_some]
  exact ⟨part_eq, by simp [inside]⟩

end Successive

/-! ## Conjuncts -/

/-- The literal that a part is compared with: `null` where its component is missing, and otherwise
the component as a literal of the kind of the part. -/
def partLiteral? (part : Property) : Option String → Option Expression
  | none => some .nullLiteral
  | some token => part.kind?.map fun kind => .literal (Literal.render kind token) kind

variable {scope : Scope} {operator : BinaryOperator} {p owner part : Property}
  {slot : Option String} {text : String} {ledger after : Ledger}

/-- A part is compared directly with its literal. -/
theorem partText_eq_ok :
    (partText scope operator owner part slot).over ledger = (.ok text, after) ↔
      ∃ right, partLiteral? part slot = some right ∧
        (directText scope operator (.property part) right).over ledger = (.ok text, after) := by
  cases slot with
  | none =>
    simp only [partLiteral?, Option.some.injEq, exists_eq_left', directText_property]
    rfl
  | some token =>
    rw [partText, slotLiteral, partLiteral?]
    cases part.kind? with
    | none => simp [Compile.over_bind]
    | some kind =>
      simp only [Option.map_some, Option.some.injEq, exists_eq_left', directText_property]
      rfl

theorem partTexts_eq_ok {parts : List Property} {slots : List (Option String)}
    {texts : List String} :
    (partTexts scope operator owner parts slots).over ledger = (.ok texts, after) ↔
      Successive (fun entry => partText scope operator owner entry.1 entry.2) ledger
        (parts.zip slots) texts after := by
  refine Successive.of_loop ?stop (fun _ _ _ _ => by rw [partTexts]) parts slots
  case stop =>
    intro parts slots ended
    rw [partTexts]
    rintro part parts' slot slots' rfl rfl
    simp at ended

/-- A composite comparison compiles where its conjuncts do, in a row. -/
theorem compositeText_eq_ok {literal : String} {kind : Kind} :
    (compositeText scope operator p (.literal literal kind)).over ledger = (.ok text, after) ↔
      ∃ texts, Successive (fun entry => partText scope operator p entry.1 entry.2) ledger
          (p.parts.zip (slots scope.settings.separator (compositeValue literal) p.parts.length))
          texts after ∧
        "(" ++ conjunction texts ++ ")" = text := by
  simp only [compositeText, Compile.over_bind_eq_ok, Compile.over_pure_eq_ok, partTexts_eq_ok]
  constructor
  · rintro ⟨texts, last, row, rfl, rfl⟩
    exact ⟨texts, row, rfl⟩
  · rintro ⟨texts, row, rfl⟩
    exact ⟨texts, after, row, rfl, rfl⟩

/-- A tree with a composite property on the left is compared part by part. -/
theorem filterText_composite (composite : p.isComposite = true) (right : Expression) :
    filterText scope (.binary operator (.property p) right) =
      compositeText scope operator p right := by
  have expands : compositeProperty? (.property p) = some p :=
    compositeProperty?_eq_some.2 ⟨rfl, composite⟩
  rw [filterText, expands]

/-! ## Components -/

/-- A part without a component is tested for `null` by `eq` and `ne`, and binds nothing whatever the
operator. -/
theorem over_directText_missing
    (h : (directText scope operator (.property part) .nullLiteral).over ledger =
      (.ok text, after)) :
    after = ledger ∧ ∃ target, nullTarget scope part = .ok target ∧
      (operator.isEquality = true → text = nullTest operator target) := by
  rw [over_directText_null, Prod.mk.injEq] at h
  obtain ⟨compared, rfl⟩ := h
  obtain ⟨target, target_eq, compared⟩ := bind_eq_ok.1 compared
  refine ⟨rfl, target, target_eq, fun equality => ?_⟩
  rw [plainComparison_null equality] at compared
  exact (Except.ok.inj compared).symm

/-- A component of a string is bound as it is written, with any quotes in it. -/
theorem over_directText_string {token : String}
    (h : (directText scope operator (.property part)
      (.literal (Literal.render .string token) .string)).over ledger = (.ok text, after)) :
    after = ledger.bind (.string (Text.escape token)) := by
  obtain ⟨-, rhs, -, placed, -⟩ := over_directText_property_eq_ok.1 h
  rw [filterText, literalText, Literal.parse_render_string] at placed
  obtain ⟨encoded, encodes, -, rfl⟩ := over_encodeText_eq_ok.1 placed
  obtain rfl : .value (.string (Text.escape token)) = encoded := Except.ok.inj encodes
  rfl

/-! ## The expansion -/

/-- The conjuncts of a composite comparison with the components of a literal, and the ledgers
between them. -/
structure Expansion (scope : Scope) (operator : BinaryOperator) (p : Property)
    (components : List String) (ledgers : Nat → Ledger) (conjuncts : List String) : Prop where
  /-- There is one conjunct for each part, whatever the number of components. -/
  length_eq : conjuncts.length = p.parts.length
  /-- A conjunct is the direct comparison of its part with its literal, over the ledger that the
  conjuncts in front of it leave. -/
  compared : ∀ (i : Nat) (part : Property), p.parts[i]? = some part →
    ∃ right conjunct, partLiteral? part (component? components i) = some right ∧
      conjuncts[i]? = some conjunct ∧
      (directText scope operator (.property part) right).over (ledgers i) =
        (.ok conjunct, ledgers (i + 1))
  /-- A part without a component binds nothing, and is tested for `null` by `eq` and `ne`. -/
  missing : ∀ (i : Nat) (part : Property), p.parts[i]? = some part →
    component? components i = none →
    ledgers (i + 1) = ledgers i ∧
      ∃ target, nullTarget scope part = .ok target ∧
        (operator.isEquality = true → conjuncts[i]? = some (nullTest operator target))
  /-- A part that is a string binds its component, escaped for patterns but otherwise as it is. -/
  string : ∀ (i : Nat) (part : Property) (token : String), p.parts[i]? = some part →
    part.kind? = some .string → component? components i = some token →
    ledgers (i + 1) = (ledgers i).bind (.string (Text.escape token))

/-- Parts that are compared with their literals in a row make an expansion. -/
theorem Expansion.of_compared {components : List String} {ledgers : Nat → Ledger}
    {conjuncts : List String} (length_eq : conjuncts.length = p.parts.length)
    (compared : ∀ (i : Nat) (part : Property), p.parts[i]? = some part →
      ∃ right conjunct, partLiteral? part (component? components i) = some right ∧
        conjuncts[i]? = some conjunct ∧
        (directText scope operator (.property part) right).over (ledgers i) =
          (.ok conjunct, ledgers (i + 1))) :
    Expansion scope operator p components ledgers conjuncts where
  length_eq := length_eq
  compared := compared
  missing := by
    intro i part part_eq none_left
    obtain ⟨right, conjunct, right_eq, conjunct_eq, run⟩ := compared i part part_eq
    rw [none_left] at right_eq
    obtain rfl := Option.some.inj right_eq
    obtain ⟨same, target, target_eq, tested⟩ := over_directText_missing run
    refine ⟨same, target, target_eq, fun equality => ?_⟩
    rw [conjunct_eq, tested equality]
  string := by
    intro i part token part_eq kind_eq given
    obtain ⟨right, conjunct, right_eq, -, run⟩ := compared i part part_eq
    rw [given, partLiteral?, kind_eq] at right_eq
    obtain rfl := Option.some.inj right_eq
    exact over_directText_string run

/-- **A composite comparison is one conjunct for each part.** If it compiles, its text is the
conjunction of the direct comparisons of the parts with the components of its literal, in order and
over one ledger; parts without a component are tested for `null`. Of its literal nothing else
matters than the components at the positions of the parts: neither the kind that is declared for it,
nor what comes after the last of them. -/
theorem compositeComparison_expands (composite : p.isComposite = true) {literal : String}
    {kind : Kind}
    (h : (filterText scope (.binary operator (.property p) (.literal literal kind))).over ledger =
      (.ok text, after)) :
    (∃ ledgers conjuncts, ledgers 0 = ledger ∧ ledgers p.parts.length = after ∧
        text = "(" ++ conjunction conjuncts ++ ")" ∧
        Expansion scope operator p
          (Text.split scope.settings.separator (compositeValue literal)) ledgers conjuncts) ∧
      ∀ (literal' : String) (kind' : Kind),
        (∀ i < p.parts.length,
          component? (Text.split scope.settings.separator (compositeValue literal')) i =
            component? (Text.split scope.settings.separator (compositeValue literal)) i) →
        filterText scope (.binary operator (.property p) (.literal literal' kind')) =
          filterText scope (.binary operator (.property p) (.literal literal kind)) := by
  rw [filterText_composite composite] at h
  constructor
  · obtain ⟨conjuncts, row, rfl⟩ := compositeText_eq_ok.1 h
    obtain ⟨length_eq, ledgers, first, last, each⟩ := row.exists_ledgers_of_slots
    refine ⟨ledgers, conjuncts, first, last, rfl, .of_compared length_eq ?_⟩
    intro i part part_eq
    obtain ⟨conjunct, conjunct_eq, run⟩ := each i part part_eq
    obtain ⟨right, right_eq, run⟩ := partText_eq_ok.1 run
    exact ⟨right, conjunct, right_eq, conjunct_eq, run⟩
  · intro literal' kind' same
    have same_slots : slots scope.settings.separator (compositeValue literal') p.parts.length =
        slots scope.settings.separator (compositeValue literal) p.parts.length := by
      rw [slots_eq_map, slots_eq_map]
      refine List.map_congr_left fun i hi => ?_
      exact same i (List.mem_range.1 hi)
    rw [filterText_composite composite, filterText_composite composite, compositeText,
      compositeText, same_slots]

/-- The key of the line of an order, with its buyer and its region. -/
def lineKey : Property :=
  ⟨"Key", .simple .string, none, [⟨"Line", .simple .int32, none, []⟩,
    ⟨"Buyer", .simple .string, none, []⟩, ⟨"Region", .simple .string, none, []⟩]⟩

/-- The ledger of a line of an order and its buyer. -/
def lineLedger : Ledger :=
  ({} : Ledger).bindAll [.int ⟨7, by decide, by decide⟩, .string "O''Neil"]

/-- A line of an order without a region has three conjuncts for four components. The quote of its
buyer is bound once again as it was written, and the kind that is declared does not matter. -/
theorem compositeComparison_expands_of_lineKey :
    (filterText ⟨some "t", {}⟩
        (.binary .ne (.property lineKey) (.literal "'7;O''Neil;null;x'" .string))).over {} =
      (.ok "((t.Line <> ?1) AND (t.Buyer <> ?2) AND (t.Region IS NOT null))", lineLedger) ∧
    (∃ ledgers conjuncts, ledgers 0 = {} ∧ ledgers 3 = lineLedger ∧
      "((t.Line <> ?1) AND (t.Buyer <> ?2) AND (t.Region IS NOT null))" =
        "(" ++ conjunction conjuncts ++ ")" ∧
      Expansion ⟨some "t", {}⟩ .ne lineKey
        (Text.split ";" (compositeValue "'7;O''Neil;null;x'")) ledgers conjuncts) ∧
    (filterText ⟨some "t", {}⟩
        (.binary .ne (.property lineKey) (.literal "'7;O''Neil'" .int32))).over {} =
      (.ok "((t.Line <> ?1) AND (t.Buyer <> ?2) AND (t.Region IS NOT null))", lineLedger) := by
  have given : slots ";" (compositeValue "'7;O''Neil;null;x'") 3 =
      [some "7", some "O'Neil", none] := rfl
  have compiles : (filterText ⟨some "t", {}⟩
      (.binary .ne (.property lineKey) (.literal "'7;O''Neil;null;x'" .string))).over {} =
      (.ok "((t.Line <> ?1) AND (t.Buyer <> ?2) AND (t.Region IS NOT null))", lineLedger) := by
    rw [filterText_composite rfl]
    refine compositeText_eq_ok.2
      ⟨["(t.Line <> ?1)", "(t.Buyer <> ?2)", "(t.Region IS NOT null)"], ?_, rfl⟩
    show Successive _ _ (List.zip _ (slots ";" _ 3)) _ _
    rw [given]
    exact .cons rfl (.cons rfl (.cons rfl .nil))
  obtain ⟨expansion, depends⟩ := compositeComparison_expands rfl compiles
  refine ⟨compiles, expansion, ?_⟩
  rw [depends "'7;O''Neil'" .int32 (by decide)]
  exact compiles

end EntityQuery
