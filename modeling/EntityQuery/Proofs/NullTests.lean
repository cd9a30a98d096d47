import EntityQuery.Query.Filter

/-!
# Tests for null

A property that is compared with `null` is tested for it. For an embedded property the test is about
the object that owns it: the text of the property is cut at its last period. That is done after the
alias was put in front of the query name, so the period behind the alias counts like any other. A
query name with a period of its own leads to the owner, with an alias and without. A query name
without one has no owner. Only where there is no alias this is noticed; otherwise the alias itself
is taken for the owner, and the test is about the root of the query.

## Main definitions

* `directText`: a comparison that expands no composite property
* `nullTarget`, `nullTest`: what a property is tested by for `null`, and the test

## Main results

* `directText_property`, `over_directText_property_eq_ok`: a comparison whose left operand is a
  property
* `over_directText_null`: what the comparison of a property with `null` comes to
* `nullComparison_targets_owner`: what an embedded property is tested by
-/

namespace EntityQuery

/-! ## Direct comparisons -/

/-- The comparison of two operands as they are, which expands no composite property. -/
def directText (scope : Scope) (operator : BinaryOperator) (left right : Expression) :
    Compile String := do
  markCompared operator left
  let lhs ← filterText scope left
  let rhs ← filterText scope right
  comparison operator left right lhs rhs

/-- A tree whose left operand is no composite property is compared directly. -/
theorem filterText_binary {scope : Scope} {operator : BinaryOperator} {left right : Expression}
    (simple : compositeProperty? left = none) :
    filterText scope (.binary operator left right) = directText scope operator left right := by
  rw [filterText, simple]
  rfl

/-- A property is no substring test, so nothing is marked for it. -/
theorem directText_property (scope : Scope) (operator : BinaryOperator) (p : Property)
    (right : Expression) :
    directText scope operator (.property p) right = (do
      let lhs ← scope.columnText p
      let rhs ← filterText scope right
      comparison operator (.property p) right lhs rhs) := by
  have unmarked : comparesSubstring operator (.property p) = false := by
    rw [comparesSubstring, Bool.and_eq_false_iff]
    exact .inr rfl
  funext ledger
  simp only [directText, markCompared, unmarked, filterText]
  rfl

/-- A property is compared directly if it is stored, if its right operand compiles, and if the two
have a condition together. -/
theorem over_directText_property_eq_ok {scope : Scope} {operator : BinaryOperator} {p : Property}
    {right : Expression} {text : String} {ledger after : Ledger} :
    (directText scope operator (.property p) right).over ledger = (.ok text, after) ↔
      ∃ column rhs, scope.columnText p = .ok column ∧
        (filterText scope right).over ledger = (.ok rhs, after) ∧
        comparison operator (.property p) right column rhs = .ok text := by
  rw [directText_property]
  simp only [Compile.over_bind_eq_ok, Compile.over_liftM, Prod.mk.injEq]
  constructor
  · rintro ⟨column, _, ⟨column_eq, rfl⟩, rhs, _, compiles, compared, rfl⟩
    exact ⟨column, rhs, column_eq, compiles, compared⟩
  · rintro ⟨column, rhs, column_eq, compiles, compared⟩
    exact ⟨column, _, ⟨column_eq, rfl⟩, rhs, _, compiles, compared, rfl⟩

/-! ## Tests for null -/

/-- What stands for a property in a test for `null`: its owner if it is embedded. -/
def nullTarget (scope : Scope) (p : Property) : Except QueryError String := do
  let column ← scope.columnText p
  leftText (.property p) .nullLiteral column

/-- The test of a text for `null`, by `eq` or by `ne`. -/
def nullTest (operator : BinaryOperator) (target : String) : String :=
  match operator with
  | .eq => "(" ++ target ++ " IS null)"
  | _ => "(" ++ target ++ " IS NOT null)"

variable {scope : Scope} {operator : BinaryOperator} {ledger : Ledger} {p : Property}

/-- Compared with `null`, what stands for a property is compared with the keyword, and the ledger
stays as it is. -/
theorem over_directText_null :
    (directText scope operator (.property p) .nullLiteral).over ledger =
      ((do
        let target ← nullTarget scope p
        plainComparison operator target "null"), ledger) := by
  rw [directText_property, Compile.over_bind, Compile.over_liftM, nullTarget]
  cases scope.columnText p with
  | error e => rfl
  | ok column => rfl

theorem plainComparison_null (equality : operator.isEquality = true) (target : String) :
    plainComparison operator target "null" = .ok (nullTest operator target) := by
  have blanks (word : String) : "(" ++ target ++ " " ++ word ++ " " ++ "null" ++ ")" =
      "(" ++ target ++ (" " ++ word ++ " null)") := by
    simp [← String.toList_inj]
  cases operator with
  | eq => exact congrArg Except.ok (blanks "IS")
  | ne => exact congrArg Except.ok (blanks "IS NOT")
  | _ => cases equality

/-! ## Owners -/

/-- What stands for a stored property that is embedded is its qualified name up to the last
period. -/
theorem nullTarget_of_embedded (stored : p.isVirtual = false) (embedded : p.isEmbedded = true) :
    nullTarget scope p = match Text.upToLast? '.' (qualify scope.alias? p.queryName) with
      | some owner => .ok owner
      | none => .error (.mapping (.noOwner p.name)) := by
  have column : scope.columnText p = .ok (qualify scope.alias? p.queryName) :=
    Scope.columnText_eq_ok.2 ⟨stored, rfl⟩
  rw [nullTarget, column]
  show leftText (.property p) .nullLiteral (qualify scope.alias? p.queryName) = _
  simp only [leftText, embedded, Bool.and_true]
  rfl

/-- **A test of an embedded property for `null` is about its owner, if its query name has one.**
With an alias or without, the owner is what stands in front of the last period of the query name. A
property whose query name has no period is refused where there is no alias; after an alias it is
tested by the alias, which is the root of the query. -/
theorem nullComparison_targets_owner (simple : p.isComposite = false)
    (stored : p.isVirtual = false) (embedded : p.isEmbedded = true)
    (equality : operator.isEquality = true) :
    (∀ owner step : String, p.queryName = owner ++ "." ++ step → '.' ∉ step.toList →
        (filterText scope (.binary operator (.property p) .nullLiteral)).over ledger =
          (.ok (nullTest operator (qualify scope.alias? owner)), ledger)) ∧
      ('.' ∉ p.queryName.toList →
        (scope.alias? = none →
          (filterText scope (.binary operator (.property p) .nullLiteral)).over ledger =
            (.error (.mapping (.noOwner p.name)), ledger)) ∧
        ∀ table, scope.alias? = some table →
          (filterText scope (.binary operator (.property p) .nullLiteral)).over ledger =
            (.ok (nullTest operator table), ledger)) := by
  have not_composite : compositeProperty? (.property p) = none := by
    simp [compositeProperty?, simple]
  have run : (filterText scope (.binary operator (.property p) .nullLiteral)).over ledger =
      ((do
        let target ← nullTarget scope p
        plainComparison operator target "null"), ledger) := by
    rw [filterText_binary not_composite, over_directText_null]
  have of_cut {owner : String}
      (cut : Text.upToLast? '.' (qualify scope.alias? p.queryName) = some owner) :
      (filterText scope (.binary operator (.property p) .nullLiteral)).over ledger =
        (.ok (nullTest operator owner), ledger) := by
    rw [run, nullTarget_of_embedded stored embedded, cut]
    exact congrArg (·, ledger) (plainComparison_null equality owner)
  refine ⟨?owned, fun free => ⟨?refused, ?root⟩⟩
  case owned =>
    intro owner step name_eq free
    apply of_cut
    have cut : ∀ front, Text.upToLast? '.' (front ++ "." ++ step) = some front :=
      Text.upToLast?_append free
    rw [name_eq]
    cases scope.alias? with
    | none => exact cut owner
    | some table =>
      -- The alias stands in front of the owner, and the period behind it is not the last one.
      show Text.upToLast? '.' (table ++ "." ++ (owner ++ "." ++ step)) =
        some (table ++ "." ++ owner)
      rw [← String.append_assoc, ← String.append_assoc]
      exact cut (table ++ "." ++ owner)
  case refused =>
    intro no_alias
    have uncut : Text.upToLast? '.' (qualify scope.alias? p.queryName) = none := by
      rw [no_alias]
      exact Text.upToLast?_eq_none.2 free
    rw [run, nullTarget_of_embedded stored embedded, uncut]
    rfl
  case root =>
    intro table alias_eq
    apply of_cut
    -- The only period is the one behind the alias.
    rw [alias_eq]
    exact Text.upToLast?_append free table

/-- The street of an address, which is embedded, under a path. -/
def ownedStreet : Property :=
  ⟨"Street", .simple .string,
    some { storedName := some "home.address.street", embedded := true }, []⟩

/-- The street of an address, which is embedded, without a path. -/
def bareStreet : Property := ⟨"Street", .simple .string, some { embedded := true }, []⟩

/-- A street under a path is tested by its address; one without a path is refused without an
alias. -/
theorem nullComparison_targets_owner_of_street :
    (filterText ⟨some "t", {}⟩ (.binary .ne (.property ownedStreet) .nullLiteral)).over {} =
        (.ok "(t.home.address IS NOT null)", {}) ∧
      (filterText {} (.binary .eq (.property bareStreet) .nullLiteral)).over {} =
        (.error (.mapping (.noOwner "Street")), {}) := by
  have owned := @nullComparison_targets_owner ⟨some "t", {}⟩ .ne {} ownedStreet rfl rfl rfl rfl
  have bare := @nullComparison_targets_owner {} .eq {} bareStreet rfl rfl rfl rfl
  exact ⟨owned.1 "home.address" "street" (by decide) (by decide), (bare.2 (by decide)).1 rfl⟩

/-- **After an alias the test of a property without a path is about the root of the query.** It
compiles, though the property has no owner. -/
theorem nullComparison_reaches_root :
    '.' ∉ bareStreet.queryName.toList ∧
      (filterText ⟨some "t", {}⟩ (.binary .eq (.property bareStreet) .nullLiteral)).over {} =
        (.ok "(t IS null)", {}) ∧
      ¬∃ fault after,
        (filterText ⟨some "t", {}⟩ (.binary .eq (.property bareStreet) .nullLiteral)).over {} =
          (.error (.mapping fault), after) := by
  have compiles : (filterText ⟨some "t", {}⟩
      (.binary .eq (.property bareStreet) .nullLiteral)).over {} = (.ok "(t IS null)", {}) := rfl
  refine ⟨by decide, compiles, ?_⟩
  rintro ⟨fault, after, refused⟩
  cases compiles.symm.trans refused

end EntityQuery
