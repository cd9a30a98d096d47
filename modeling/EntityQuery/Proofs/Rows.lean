import EntityQuery.Proofs.Derivation
import EntityQuery.Proofs.Expansion
import EntityQuery.Proofs.Marks

/-!
# Composite comparisons on rows

What the conjuncts of a composite comparison say of a row of the table. A column is compared with a
value that is bound, with a boolean, or with `null`; the outcome is unknown where the column has no
value, as usual. The conjuncts of `eq` and of `ne` are about the same columns and bind the same
values, but all of them are joined by `AND`. So `ne` does not negate `eq`: it holds of the rows that
differ in every part, and not of those that differ in some and agree in others.

## Main definitions

* `Datum`, `Row`: what a row holds in a column
* `ColumnTest`, `ColumnTest.text`, `ColumnTest.truth`: the comparison of a column, its text, and its
  truth on a row
* `fragment`, `fragmentTruth`: the text and the truth of tests that are joined

## Main results

* `fragmentTruth_eq_true`, `fragmentTruth_eq_false`: when joined tests are true, and when false
* `tests_of_partTexts`: the conjuncts of `eq` and of `ne` are the same tests and their negations
* `compositeNe_complements_iff`: on which rows `ne` is the complement of `eq`
-/

namespace EntityQuery

/-! ## Rows -/

/-- What a row may hold in a column. -/
inductive Datum where
  | value (v : Value)
  | boolean (b : Bool)
  deriving DecidableEq, Repr

/-- What a row holds in its columns; nothing where a column is `null`. -/
abbrev Row := String → Option Datum

/-- What a column is compared with. -/
inductive Operand where
  /-- The value that is bound at an index. -/
  | mark (index : Nat)
  | boolean (b : Bool)
  | null
  deriving DecidableEq, Repr

namespace Operand

/-- The text of an operand. -/
def text (marker : String) : Operand → String
  | mark index => placeholder marker index
  | boolean true => "true"
  | boolean false => "false"
  | null => "null"

/-- What an operand stands for. -/
def datum? (registry : Registry) : Operand → Option Datum
  | mark index => (registry.find? index).map .value
  | boolean b => some (.boolean b)
  | null => none

/-- Whether a value is bound at the index of an operand, if it has one. -/
def Bound (ledger : Ledger) : Operand → Prop
  | mark index => ∃ v, ledger.registry.find? index = some v
  | _ => True

/-- What is bound stays bound. -/
theorem Bound.bindAll {operand : Operand} {ledger : Ledger} (h : operand.Bound ledger)
    (values : List Value) : operand.Bound (ledger.bindAll values) := by
  cases operand with
  | mark index =>
    obtain ⟨v, found⟩ := h
    have taken : index < ledger.nextIndex := by
      by_contra beyond
      rw [ledger.find?_eq_none (Nat.le_of_not_lt beyond)] at found
      cases found
    exact ⟨v, by rw [ledger.find?_bindAll_of_lt values taken, found]⟩
  | _ => trivial

end Operand

/-! ## Tests -/

/-- The comparison of a column with an operand, for being equal or for being unequal. -/
structure ColumnTest where
  column : String
  equal : Bool
  operand : Operand
  deriving DecidableEq, Repr

namespace ColumnTest

/-- The operator of a test. -/
def operator (test : ColumnTest) : BinaryOperator := if test.equal then .eq else .ne

/-- The token between the column and the operand. -/
def token (test : ColumnTest) : String :=
  match test.operand, test.equal with
  | .null, true => "IS"
  | .null, false => "IS NOT"
  | _, true => "="
  | _, false => "<>"

/-- The text of a test. -/
def text (marker : String) (test : ColumnTest) : String :=
  "(" ++ test.column ++ " " ++ test.token ++ " " ++ test.operand.text marker ++ ")"

/-- The same comparison for the opposite. -/
def negated (test : ColumnTest) : ColumnTest := { test with equal := !test.equal }

/-- The truth of a test on a row, where `same` tells what the backend takes as equal. A test for
`null` is true or false, and any other is unknown where the column is `null`. -/
def truth (same : Datum → Datum → Bool) (registry : Registry) (row : Row) (test : ColumnTest) :
    Option Bool :=
  match test.operand with
  | .null => some ((row test.column).isNone == test.equal)
  | operand => do
    let stored ← row test.column
    let asked ← operand.datum? registry
    return same stored asked == test.equal

variable {same : Datum → Datum → Bool} {registry : Registry} {row : Row} {test : ColumnTest}

/-- The opposite of a test is true where the test is false, and unknown where it is unknown. -/
theorem truth_negated :
    test.negated.truth same registry row = (test.truth same registry row).map (!·) := by
  obtain ⟨column, equal, operand⟩ := test
  have opposite (b : Bool) : (b == !equal) = !(b == equal) := by
    cases b <;> cases equal <;> rfl
  cases operand with
  | null => exact congrArg some (opposite _)
  | mark index =>
    simp only [truth, negated, opposite]
    cases row column <;> cases (Operand.mark index).datum? registry <;> rfl
  | boolean b =>
    simp only [truth, negated, opposite]
    cases row column <;> rfl

/-- A test is true or false on a row that has a value in its column. -/
theorem exists_truth {ledger : Ledger} (bound : test.operand.Bound ledger)
    (present : (row test.column).isSome) : ∃ b, test.truth same ledger.registry row = some b := by
  obtain ⟨column, equal, operand⟩ := test
  obtain ⟨stored, stored_eq⟩ := Option.isSome_iff_exists.1 present
  cases operand with
  | null => exact ⟨_, rfl⟩
  | mark index =>
    obtain ⟨v, found⟩ := bound
    have asked : (Operand.mark index).datum? ledger.registry = some (.value v) := by
      rw [Operand.datum?, found]
      rfl
    refine ⟨same stored (.value v) == equal, ?_⟩
    simp only [truth, stored_eq, asked]
    rfl
  | boolean b =>
    refine ⟨same stored (.boolean b) == equal, ?_⟩
    simp only [truth, stored_eq, Operand.datum?]
    rfl

/-- The text of a test is what its operator compares. -/
theorem plainComparison_eq (test : ColumnTest) (marker : String) :
    plainComparison test.operator test.column (test.operand.text marker) =
      .ok (test.text marker) := by
  obtain ⟨column, equal, operand⟩ := test
  have valued (shown : operand.text marker ≠ "null") (token : String) (o : BinaryOperator) :
      tokenBefore o token (operand.text marker) = token := if_neg shown
  refine plainComparison_eq_ok.2 ⟨if equal then "=" else "<>", ?_, ?_⟩
  · cases equal <;> rfl
  · cases operand with
    | mark index =>
      rw [valued (placeholder_ne_null marker index)]
      cases equal <;> rfl
    | boolean b => cases b <;> cases equal <;> rfl
    | null => cases equal <;> rfl

end ColumnTest

/-! ## Tests that are joined -/

/-- Conjunction of truth values that may be unknown. -/
def bothTrue : Option Bool → Option Bool → Option Bool
  | some false, _ => some false
  | _, some false => some false
  | some true, some true => some true
  | _, _ => none

/-- The text of tests that are joined by `AND`. -/
def fragment (marker : String) (tests : List ColumnTest) : String :=
  "(" ++ conjunction (tests.map (·.text marker)) ++ ")"

/-- The truth of tests that are joined by `AND`. -/
def fragmentTruth (same : Datum → Datum → Bool) (registry : Registry) (row : Row)
    (tests : List ColumnTest) : Option Bool :=
  (tests.map (·.truth same registry row)).foldr bothTrue (some true)

theorem foldr_bothTrue_eq_true {truths : List (Option Bool)} :
    truths.foldr bothTrue (some true) = some true ↔ ∀ truth ∈ truths, truth = some true := by
  induction truths with
  | nil => simp
  | cons truth truths ih =>
    rw [List.foldr_cons, List.forall_mem_cons, ← ih]
    rcases truth with _ | _ | _ <;> rcases truths.foldr bothTrue (some true) with _ | _ | _ <;>
      simp [bothTrue]

theorem foldr_bothTrue_eq_false {truths : List (Option Bool)} :
    truths.foldr bothTrue (some true) = some false ↔ some false ∈ truths := by
  induction truths with
  | nil => simp
  | cons truth truths ih =>
    rw [List.foldr_cons, List.mem_cons, ← ih]
    rcases truth with _ | _ | _ <;> rcases truths.foldr bothTrue (some true) with _ | _ | _ <;>
      simp [bothTrue]

section Truth

variable {same : Datum → Datum → Bool} {registry : Registry} {row : Row} {tests : List ColumnTest}

/-- Joined tests are true where all of them are. -/
theorem fragmentTruth_eq_true :
    fragmentTruth same registry row tests = some true ↔
      ∀ test ∈ tests, test.truth same registry row = some true := by
  rw [fragmentTruth, foldr_bothTrue_eq_true, List.forall_mem_map]

/-- Joined tests are false where one of them is, whatever is unknown besides. -/
theorem fragmentTruth_eq_false :
    fragmentTruth same registry row tests = some false ↔
      ∃ test ∈ tests, test.truth same registry row = some false := by
  rw [fragmentTruth, foldr_bothTrue_eq_false, List.mem_map]

/-- The negations of tests that are joined are true where all of the tests are false. -/
theorem fragmentTruth_negated_eq_true :
    fragmentTruth same registry row (tests.map (·.negated)) = some true ↔
      ∀ test ∈ tests, test.truth same registry row = some false := by
  rw [fragmentTruth_eq_true, List.forall_mem_map]
  refine forall₂_congr fun test _ => ?_
  rw [ColumnTest.truth_negated]
  rcases test.truth same registry row with _ | _ | _ <;> simp

/-- Where all of them are known, joined tests are true or false. -/
theorem exists_fragmentTruth
    (known : ∀ test ∈ tests, ∃ b, test.truth same registry row = some b) :
    ∃ b, fragmentTruth same registry row tests = some b := by
  by_cases failing : ∃ test ∈ tests, test.truth same registry row = some false
  · exact ⟨false, fragmentTruth_eq_false.2 failing⟩
  · refine ⟨true, fragmentTruth_eq_true.2 fun test mem => ?_⟩
    obtain ⟨b, truth_eq⟩ := known test mem
    cases b with
    | true => exact truth_eq
    | false => exact absurd ⟨test, mem, truth_eq⟩ failing

end Truth

/-! ## Conjuncts as tests -/

variable {scope : Scope} {owner part p : Property} {slot : Option String} {text rhs : String}
  {kind : Kind} {before next ledger after after' : Ledger}

/-- What a literal shows is an operand, and what it binds stands at the index shown. -/
theorem operand_of_literal
    (h : (filterText scope (.literal text kind)).over before = (.ok rhs, next)) :
    ∃ operand : Operand, operand.text scope.settings.marker = rhs ∧ operand.Bound next ∧
      ∃ values, next = before.bindAll values := by
  rw [filterText, literalText] at h
  cases parsed : Literal.parse text with
  | error fault =>
    rw [parsed] at h
    cases h
  | ok l =>
    rw [parsed] at h
    obtain ⟨encoded, encodes, rfl, rfl⟩ := over_encodeText_eq_ok.1 h
    have yields : LiteralYields scope before.nextIndex text kind _ _ := .intro parsed encodes
    rcases yields.shown with ⟨-, shown | shown, -⟩ | ⟨-, shown, -⟩ | ⟨-, shown, v, bound⟩
    · exact ⟨.boolean true, shown.symm, trivial, _, rfl⟩
    · exact ⟨.boolean false, shown.symm, trivial, _, rfl⟩
    · exact ⟨.null, shown.symm, trivial, _, rfl⟩
    · refine ⟨.mark before.nextIndex, shown.symm, ⟨v, ?_⟩, _, rfl⟩
      rw [bound]
      exact before.find?_bindAll [v] 0

/-- The conjunct of a part that is not embedded compares its column with what its literal shows. -/
theorem plainComparison_of_partText {operator : BinaryOperator} (whole : part.isEmbedded = false)
    (h : (partText scope operator owner part slot).over before = (.ok text, next)) :
    ∃ literal kind rhs, partLiteral? part slot = some (.literal literal kind) ∧
      (filterText scope (.literal literal kind)).over before = (.ok rhs, next) ∧
      plainComparison operator (qualify scope.alias? part.queryName) rhs = .ok text := by
  obtain ⟨right, right_eq, run⟩ := partText_eq_ok.1 h
  obtain ⟨literal, kind, rfl⟩ : ∃ literal kind, right = .literal literal kind := by
    cases slot with
    | none => exact ⟨_, _, (Option.some.inj right_eq).symm⟩
    | some token =>
      obtain ⟨kind, -, rfl⟩ := Option.map_eq_some_iff.1 right_eq
      exact ⟨_, _, rfl⟩
  obtain ⟨lhs, rhs, column, placed, compared⟩ := over_directText_property_eq_ok.1 run
  obtain ⟨-, rfl⟩ := Scope.columnText_eq_ok.1 column
  rw [comparison_property (by rw [whole, Bool.and_false])] at compared
  exact ⟨literal, kind, rhs, right_eq, placed, compared⟩

/-- The conjuncts of a part by `eq` and by `ne` are a test and its negation, and bind the same. -/
theorem test_of_partText {text' : String} {next' : Ledger} (whole : part.isEmbedded = false)
    (eq : (partText scope .eq owner part slot).over before = (.ok text, next))
    (ne : (partText scope .ne owner part slot).over before = (.ok text', next')) :
    ∃ operand : Operand, operand.Bound next ∧ next' = next ∧
      (∃ values, next = before.bindAll values) ∧
      text = ColumnTest.text scope.settings.marker
        ⟨qualify scope.alias? part.queryName, true, operand⟩ ∧
      text' = ColumnTest.text scope.settings.marker
        ⟨qualify scope.alias? part.queryName, false, operand⟩ := by
  obtain ⟨literal, kind, rhs, literal_eq, run, compared⟩ := plainComparison_of_partText whole eq
  obtain ⟨literal', kind', rhs', literal_eq', run', compared'⟩ :=
    plainComparison_of_partText whole ne
  obtain ⟨rfl, rfl⟩ := Expression.literal.inj
    (Option.some.inj (literal_eq.symm.trans literal_eq'))
  obtain ⟨shown, rfl⟩ := Prod.mk.inj (run.symm.trans run')
  obtain rfl := Except.ok.inj shown
  obtain ⟨operand, rfl, bound, grown⟩ := operand_of_literal run
  have test := ColumnTest.plainComparison_eq
    ⟨qualify scope.alias? part.queryName, true, operand⟩ scope.settings.marker
  have test' := ColumnTest.plainComparison_eq
    ⟨qualify scope.alias? part.queryName, false, operand⟩ scope.settings.marker
  exact ⟨operand, bound, rfl, grown, Except.ok.inj (compared.symm.trans test),
    Except.ok.inj (compared'.symm.trans test')⟩

/-- The conjuncts of `eq` and of `ne` are the same tests and their negations, and bind the same. -/
theorem tests_of_partTexts {entries : List (Property × Option String)} {texts texts' : List String}
    (whole : ∀ entry ∈ entries, entry.1.isEmbedded = false)
    (eqs : Successive (fun entry => partText scope .eq owner entry.1 entry.2) ledger entries texts
      after)
    (nes : Successive (fun entry => partText scope .ne owner entry.1 entry.2) ledger entries texts'
      after') :
    ∃ tests : List ColumnTest, after' = after ∧ (∃ values, after = ledger.bindAll values) ∧
      tests.map (·.column) = entries.map (fun entry => qualify scope.alias? entry.1.queryName) ∧
      (∀ test ∈ tests, test.equal = true ∧ test.operand.Bound after) ∧
      texts = tests.map (·.text scope.settings.marker) ∧
      texts' = (tests.map (·.negated)).map (·.text scope.settings.marker) := by
  -- Along the one run, each step of the other has the same ledgers.
  induction eqs generalizing texts' after' with
  | nil =>
    cases nes
    exact ⟨[], rfl, ⟨[], rfl⟩, rfl, nofun, rfl, rfl⟩
  | cons head _ ih =>
    cases nes with
    | cons head' tail' =>
      rw [List.forall_mem_cons] at whole
      obtain ⟨operand, bound, rfl, ⟨values, rfl⟩, rfl, rfl⟩ := test_of_partText whole.1 head head'
      obtain ⟨tests, rfl, ⟨more, rfl⟩, columns, each, rfl, rfl⟩ := ih whole.2 tail'
      refine ⟨⟨_, true, operand⟩ :: tests, rfl, ⟨values ++ more, ?_⟩, ?_, ?_, rfl, rfl⟩
      · rw [Ledger.bindAll_append]
      · rw [List.map_cons, List.map_cons, columns]
      · -- What the first conjunct has bound is still there when the others have bound theirs.
        exact List.forall_mem_cons.2 ⟨⟨rfl, bound.bindAll more⟩, each⟩

/-! ## Complements -/

/-- What joined tests and their joined negations say of a row. -/
structure RowOutcome (same : Datum → Datum → Bool) (registry : Registry) (row : Row)
    (tests : List ColumnTest) : Prop where
  /-- The tests are true or false together, and so are their negations. -/
  known : (∃ b, fragmentTruth same registry row tests = some b) ∧
    ∃ b, fragmentTruth same registry row (tests.map (·.negated)) = some b
  /-- The tests are true where the row agrees in every part. -/
  agrees_iff : fragmentTruth same registry row tests = some true ↔
    ∀ test ∈ tests, test.truth same registry row = some true
  /-- The negations are true where the row differs in every part. -/
  differs_iff : fragmentTruth same registry row (tests.map (·.negated)) = some true ↔
    ∀ test ∈ tests, test.truth same registry row = some false
  /-- The negations are true just where the tests are false, unless the row agrees in one part and
  differs in another. -/
  complements_iff : (fragmentTruth same registry row (tests.map (·.negated)) = some true ↔
      fragmentTruth same registry row tests = some false) ↔
    ¬((∃ test ∈ tests, test.truth same registry row = some true) ∧
      ∃ test ∈ tests, test.truth same registry row = some false)
  /-- One test and its negation are complements. -/
  complements_of_single : tests.length = 1 →
    (fragmentTruth same registry row (tests.map (·.negated)) = some true ↔
      fragmentTruth same registry row tests = some false)

/-- Tests have these outcomes on a row that has values in their columns. -/
theorem RowOutcome.of_present {same : Datum → Datum → Bool} {row : Row} {tests : List ColumnTest}
    (nonempty : tests ≠ []) (bound : ∀ test ∈ tests, test.operand.Bound ledger)
    (present : ∀ test ∈ tests, (row test.column).isSome) :
    RowOutcome same ledger.registry row tests := by
  have known : ∀ test ∈ tests, ∃ b, test.truth same ledger.registry row = some b :=
    fun test mem => ColumnTest.exists_truth (bound test mem) (present test mem)
  have known_negated : ∀ test ∈ tests.map (·.negated),
      ∃ b, test.truth same ledger.registry row = some b := by
    rw [List.forall_mem_map]
    intro test mem
    obtain ⟨b, truth_eq⟩ := known test mem
    exact ⟨!b, by rw [ColumnTest.truth_negated, truth_eq]; rfl⟩
  have complements_iff :
      (fragmentTruth same ledger.registry row (tests.map (·.negated)) = some true ↔
        fragmentTruth same ledger.registry row tests = some false) ↔
      ¬((∃ test ∈ tests, test.truth same ledger.registry row = some true) ∧
        ∃ test ∈ tests, test.truth same ledger.registry row = some false) := by
    rw [fragmentTruth_negated_eq_true, fragmentTruth_eq_false]
    constructor
    · rintro complements ⟨⟨agreeing, mem, agrees⟩, differing⟩
      cases agrees.symm.trans (complements.2 differing agreeing mem)
    · intro uniform
      constructor
      · intro all_differ
        obtain ⟨test, mem⟩ := List.exists_mem_of_ne_nil tests nonempty
        exact ⟨test, mem, all_differ test mem⟩
      · intro differing test mem
        obtain ⟨b, truth_eq⟩ := known test mem
        cases b with
        | false => exact truth_eq
        | true => exact absurd ⟨⟨test, mem, truth_eq⟩, differing⟩ uniform
  refine ⟨⟨exists_fragmentTruth known, exists_fragmentTruth known_negated⟩, fragmentTruth_eq_true,
    fragmentTruth_negated_eq_true, complements_iff, fun single => complements_iff.2 ?_⟩
  obtain ⟨test, rfl⟩ := List.length_eq_one_iff.1 single
  rintro ⟨⟨agreeing, mem, agrees⟩, differing, mem', differs⟩
  rw [List.mem_singleton.1 mem] at agrees
  rw [List.mem_singleton.1 mem'] at differs
  cases agrees.symm.trans differs

/-- **`ne` is the complement of `eq` on the rows that do not agree in some parts only.** Where both
compile, they are joined tests of the columns of the parts, the one for being equal and the other
for being unequal, over the same values. On a row that has values in these columns both are true or
false: `eq` is true where the row agrees in every part, and `ne` where it differs in every part. So
`ne` is true just where `eq` is false if and only if the row does not agree in one part and differ
in another, as it cannot if there is one part only. -/
theorem compositeNe_complements_iff (composite : p.isComposite = true)
    (whole : ∀ part ∈ p.parts, part.isEmbedded = false) {literal equal unequal : String}
    (eq : (filterText scope (.binary .eq (.property p) (.literal literal kind))).over ledger =
      (.ok equal, after))
    (ne : (filterText scope (.binary .ne (.property p) (.literal literal kind))).over ledger =
      (.ok unequal, after')) :
    ∃ tests : List ColumnTest, after' = after ∧
      tests.map (·.column) = p.parts.map (fun part => qualify scope.alias? part.queryName) ∧
      (∀ test ∈ tests, test.equal = true ∧ test.operand.Bound after) ∧
      equal = fragment scope.settings.marker tests ∧
      unequal = fragment scope.settings.marker (tests.map (·.negated)) ∧
      ∀ (same : Datum → Datum → Bool) (row : Row),
        (∀ part ∈ p.parts, (row (qualify scope.alias? part.queryName)).isSome) →
          RowOutcome same after.registry row tests := by
  rw [filterText_composite composite] at eq ne
  obtain ⟨texts, eqs, rfl⟩ := compositeText_eq_ok.1 eq
  obtain ⟨texts', nes, rfl⟩ := compositeText_eq_ok.1 ne
  obtain ⟨tests, rfl, -, columns, each, rfl, rfl⟩ := tests_of_partTexts
    (fun entry mem => whole _ (List.of_mem_zip (a := entry.1) (b := entry.2) mem).1) eqs nes
  have columns : tests.map (·.column) =
      p.parts.map (fun part => qualify scope.alias? part.queryName) := by
    have parts_eq := @List.map_fst_zip _ _ p.parts
      (slots scope.settings.separator (compositeValue literal) p.parts.length)
      (by rw [length_slots])
    rw [columns]
    conv_rhs => rw [← parts_eq, List.map_map]
    rfl
  refine ⟨tests, rfl, columns, each, rfl, rfl, fun same row present => .of_present ?_ ?_ ?_⟩
  · rintro rfl
    have no_parts : p.parts = [] := List.map_eq_nil_iff.1 columns.symm
    simp [Property.isComposite, no_parts] at composite
  · exact fun test mem => (each test mem).2
  · intro test mem
    have column_mem : test.column ∈ tests.map (·.column) := List.mem_map_of_mem mem
    rw [columns] at column_mem
    obtain ⟨part, part_mem, column_eq⟩ := List.mem_map.1 column_mem
    rw [← column_eq]
    exact present part part_mem

/-- The key of a line of an order and its region. -/
def regionKey : Property :=
  ⟨"Key", .simple .string, none,
    [⟨"Line", .simple .int32, none, []⟩, ⟨"Region", .simple .string, none, []⟩]⟩

/-- The ledger of a line and its region. -/
def regionLedger : Ledger :=
  ({} : Ledger).bindAll [.int ⟨12, by decide, by decide⟩, .string "EU"]

/-- The tests of a line and its region. -/
def regionTests : List ColumnTest := [⟨"t.Line", true, .mark 1⟩, ⟨"t.Region", true, .mark 2⟩]

/-- The row of the same line in another region. -/
def otherRegion : Row := fun column =>
  if column = "t.Line" then some (.value (.int ⟨12, by decide, by decide⟩))
  else if column = "t.Region" then some (.value (.string "US"))
  else none

/-- The key of a line and its region compiles to the tests, by `eq`, and to their negations, by
`ne`. -/
theorem over_regionKey (equal : Bool) :
    (filterText ⟨some "t", {}⟩ (.binary (if equal then .eq else .ne) (.property regionKey)
        (.literal "'12;EU'" .string))).over {} =
      (.ok (fragment "?" (if equal then regionTests else regionTests.map (·.negated))),
        regionLedger) := by
  have given : slots ";" (compositeValue "'12;EU'") 2 = [some "12", some "EU"] := rfl
  rw [filterText_composite rfl]
  refine compositeText_eq_ok.2 ⟨_, ?_, rfl⟩
  show Successive _ _ (List.zip _ (slots ";" _ 2)) _ _
  rw [given]
  cases equal with
  | true => exact .cons rfl (.cons rfl .nil)
  | false => exact .cons rfl (.cons rfl .nil)

/-- A line and its region are tested by two columns, on any row that has both. -/
theorem compositeNe_complements_iff_of_regionKey :
    ∃ tests : List ColumnTest, tests.map (·.column) = ["t.Line", "t.Region"] ∧
      "((t.Line = ?1) AND (t.Region = ?2))" = fragment "?" tests ∧
      "((t.Line <> ?1) AND (t.Region <> ?2))" = fragment "?" (tests.map (·.negated)) ∧
      RowOutcome (fun stored asked => decide (stored = asked)) regionLedger.registry otherRegion
        tests := by
  obtain ⟨tests, -, columns, -, equal, unequal, outcome⟩ :=
    compositeNe_complements_iff rfl (by decide) (over_regionKey true) (over_regionKey false)
  exact ⟨tests, columns, equal, unequal, outcome _ otherRegion (by decide)⟩

/-- **On a row that agrees in one part and differs in another, `ne` is false like `eq`.** The line
of the row is the one asked for and its region is another one, so the row is not the one with that
key, and yet `ne` does not hold of it. -/
theorem compositeNe_misses_row :
    ((filterText ⟨some "t", {}⟩
          (.binary .eq (.property regionKey) (.literal "'12;EU'" .string))).over {} =
        (.ok (fragment "?" regionTests), regionLedger) ∧
      (filterText ⟨some "t", {}⟩
          (.binary .ne (.property regionKey) (.literal "'12;EU'" .string))).over {} =
        (.ok (fragment "?" (regionTests.map (·.negated))), regionLedger)) ∧
      (∀ test ∈ regionTests, (otherRegion test.column).isSome) ∧
      fragmentTruth (fun stored asked => decide (stored = asked)) regionLedger.registry otherRegion
        regionTests = some false ∧
      fragmentTruth (fun stored asked => decide (stored = asked)) regionLedger.registry otherRegion
        (regionTests.map (·.negated)) = some false := by
  refine ⟨⟨over_regionKey true, over_regionKey false⟩, by decide, ?_, ?_⟩
  · exact fragmentTruth_eq_false.2 ⟨⟨"t.Region", true, .mark 2⟩, by decide, by decide⟩
  · exact fragmentTruth_eq_false.2 ⟨⟨"t.Line", false, .mark 1⟩, by decide, by decide⟩

end EntityQuery
