import EntityQuery.Proofs.InStep
import EntityQuery.Proofs.Renumbering

/-!
# Filters from another index on

Filters share a ledger with keys and with other filters, so a filter is compiled from whatever index
comes next. That index only shifts the numbers of placeholders: success, failure and the values
bound are the same over every ledger. They are the same also with another marker of placeholders,
and with another alias in place of one.

## Main definitions

* `Scope.Similar`: scopes that differ only in their markers and in the texts of their aliases

## Main results

* `Scope.Similar.congruence`: in similar scopes nothing depends on texts but texts
* `Scope.MarksPlaceholders.congruence`: operations on texts commute with shifting
* `filterText_shifts`: a filter over two ledgers
-/

namespace EntityQuery

/-! ## Outcomes -/

/-- Scopes that differ only in their markers and in the texts of their aliases. -/
structure Scope.Similar (scope scope' : Scope) : Prop where
  separator_eq : scope.settings.separator = scope'.settings.separator
  isSome_eq : scope.alias?.isSome = scope'.alias?.isSome

/-- Whether a template can be filled depends on the number of texts only. -/
theorem Method.template_liftRel (m : Method) (compared : Bool) {ts ts' : List String}
    (h : ts.length = ts'.length) :
    LiftRel (fun _ _ => True) (m.template compared ts) (m.template compared ts') := by
  match ts, ts', h with
  | [], [], _ => cases m <;> constructor
  | [_], [_], _ | [_, _], [_, _], _ | [_, _, _], [_, _, _], _ =>
    cases m <;> constructor <;> trivial
  | _ :: _ :: _ :: _ :: _, _ :: _ :: _ :: _ :: _, _ => cases m <;> constructor

/-- The methods for parts of dates have one form. -/
theorem Method.template_of_datePart {m : Method} {part : String} (h : m.datePart? = some part)
    (compared : Bool) (date : String) :
    m.template compared [date] = .ok ("EXTRACT(" ++ part ++ " " ++ date ++ ")") := by
  cases m <;> cases h <;> rfl

/-- Whether the left operand before `null` has an owner depends on a point in its text only. -/
theorem leftText_liftRel (left right : Expression) {t t' : String}
    (h : '.' ∈ t.toList ↔ '.' ∈ t'.toList) :
    LiftRel (fun _ _ => True) (leftText left right t) (leftText left right t') := by
  have owner_iff := (Text.upToLast?_eq_none.trans (not_congr h)).trans Text.upToLast?_eq_none.symm
  cases left with
  | property p =>
    simp only [leftText]
    split
    · cases hu : Text.upToLast? '.' t with
      | none =>
        rw [owner_iff.1 hu]
        exact .error
      | some owner =>
        obtain ⟨owner', hu'⟩ := Option.ne_none_iff_exists'.1 (mt owner_iff.2 (by simp [hu]))
        rw [hu']
        exact .ok trivial
    · exact .ok trivial
  | _ => exact .ok trivial

theorem columnText_liftRel (scope scope' : Scope) (p : Property) :
    LiftRel (fun _ _ => True) (scope.columnText p) (scope'.columnText p) := by
  unfold Scope.columnText
  cases columnName p with
  | error e => exact .error
  | ok name => exact .ok trivial

namespace Scope.Similar

variable {scope scope' : Scope}

theorem pathText (h : scope.Similar scope') (path : Expression) :
    LiftRel (fun _ _ => True) (scope.pathText path) (scope'.pathText path) := by
  have isSome_eq := h.isSome_eq
  unfold Scope.pathText
  cases halias : scope.alias? <;> cases halias' : scope'.alias?
  case none.none => exact .error
  case some.some =>
    cases stepNames path with
    | error e => exact .error
    | ok names => exact .ok trivial
  all_goals simp [halias, halias'] at isSome_eq

/-- Any alias puts a point into the name of a property. -/
theorem leftText (h : scope.Similar scope') {p : Property} {t t' : String}
    (column : scope.columnText p = .ok t) (column' : scope'.columnText p = .ok t')
    (right : Expression) :
    LiftRel (fun _ _ => True) (leftText (.property p) right t)
      (EntityQuery.leftText (.property p) right t') := by
  have isSome_eq := h.isSome_eq
  obtain ⟨-, rfl⟩ := Scope.columnText_eq_ok.1 column
  obtain ⟨-, rfl⟩ := Scope.columnText_eq_ok.1 column'
  apply leftText_liftRel
  cases halias : scope.alias? <;> cases halias' : scope'.alias?
  case none.none => rfl
  case some.some => simp [qualify]
  all_goals simp [halias, halias'] at isSome_eq

/-- In similar scopes nothing depends on texts but texts. -/
theorem congruence (h : scope.Similar scope') (start start' : Nat) :
    Congruence scope scope' start start' (fun _ => True) fun _ _ => True where
  column p _ := columnText_liftRel scope scope' p
  path path step _ := h.pathText _
  keyword _ _ := trivial
  placeholder _ := trivial
  unary _ _ _ _ := trivial
  left p right t t' _ column column' := h.leftText column column' right
  pattern _ _ _ _ _ _ := trivial
  plain operator t t' r r' _ _ := by
    unfold plainComparison
    split
    · exact .ok trivial
    · exact .error
  template m compared ts ts' related := m.template_liftRel compared related.length_eq
  conjunction _ _ _ := trivial

end Scope.Similar

/-! ## Texts -/

section Texts

variable (d : Int)

theorem shiftMarks_unaryText (operator : UnaryOperator) (t : String) :
    shiftMarks d (unaryText operator t) = unaryText operator (shiftMarks d t) := by
  cases operator with
  | not =>
    rw [unaryText, shiftMarks_append d (by decide), shiftMarks_append_of_free d (by decide)]
    rfl
  | minus =>
    -- A text starts with the same character as before, so a minus is taken away where it was.
    simp only [unaryText, shiftMarks, String.toList_ofList]
    rcases t.toList with _ | ⟨c, rest⟩
    · rfl
    · by_cases hc : c = '-'
      · subst hc
        simp [renumber_cons_of_ne]
      · have head := head?_renumber (fun n => (n + d).toNat) (c :: rest)
        obtain ⟨rest', renumbered⟩ := List.head?_eq_some_iff.1 head
        rw [renumbered]
        simp [hc, renumber_cons_of_ne, renumbered]

theorem shiftMarks_patternTest (t r : String) :
    shiftMarks d (patternTest t r) = patternTest (shiftMarks d t) (shiftMarks d r) := by
  have true_iff : shiftMarks d r = "true" ↔ r = "true" := shiftMarks_eq_iff d (by decide)
  unfold patternTest
  simp only [true_iff]
  split
  · rw [shiftMarks_append d (by decide), shiftMarks_append_of_free d (by decide)]
  · rw [shiftMarks_append d (by decide), shiftMarks_append_of_free d (by decide),
      substituteFirst_shiftMarks d (by decide) (by decide)]

theorem plainComparison_shiftMarks (operator : BinaryOperator) (t r : String) :
    plainComparison operator (shiftMarks d t) (shiftMarks d r) =
      (plainComparison operator t r).map (shiftMarks d) := by
  have null_iff : shiftMarks d r = "null" ↔ r = "null" := shiftMarks_eq_iff d (by decide)
  unfold plainComparison
  split
  · rename_i token token_eq
    have token_separates := separates_tokenBefore token_eq r
    have same_token :
        tokenBefore operator token (shiftMarks d r) = tokenBefore operator token r := by
      simp only [tokenBefore, null_iff]
    rw [same_token, Except.map, shiftMarks_append d (by decide), shiftMarks_between d (by decide),
      shiftMarks_append d token_separates, shiftMarks_append d (by decide),
      shiftMarks_append_of_free d (by decide)]
  · rfl

theorem shiftMarks_containsCase (part whole : String) :
    shiftMarks d (Method.containsCase part whole) =
      Method.containsCase (shiftMarks d part) (shiftMarks d whole) := by
  unfold Method.containsCase
  rw [shiftMarks_append d (by decide), shiftMarks_between d (by decide),
    shiftMarks_append_of_free d (by decide)]

theorem template_map_shiftMarks {m : Method} {compared : Bool} {ts : List String} {text : String}
    (filled : m.template compared ts = .ok text) :
    m.template compared (ts.map (shiftMarks d)) = .ok (shiftMarks d text) := by
  unfold Method.template at filled
  split at filled
  case h_1 =>
    obtain rfl := Except.ok.inj filled
    rw [shiftMarks_append d (by decide), shiftMarks_between d (by decide),
      shiftMarks_append_of_free d (by decide)]
    rfl
  case h_2 =>
    obtain rfl := Except.ok.inj filled
    rw [shiftMarks_append d (by decide), shiftMarks_between d (by decide),
      shiftMarks_between d (by decide), shiftMarks_append_of_free d (by decide)]
    rfl
  case h_3 =>
    obtain rfl := Except.ok.inj filled
    cases compared with
    | true => exact congrArg _ (shiftMarks_containsCase d _ _).symm
    | false =>
      rw [if_neg (by simp), shiftMarks_append d (by decide), shiftMarks_containsCase]
      rfl
  case h_4 =>
    obtain rfl := Except.ok.inj filled
    rw [shiftMarks_append d (by decide), shiftMarks_append_of_free d (by decide)]
    rfl
  case h_5 | h_6 =>
    obtain rfl := Except.ok.inj filled
    rw [shiftMarks_append d (by decide), shiftMarks_between d (by decide)]
    rfl
  case h_7 =>
    split at filled
    · rename_i part part_eq
      obtain rfl := Except.ok.inj filled
      have opening_free : MarkFree ("EXTRACT(" ++ part ++ " ") :=
        (MarkFree.append (by decide) (markFree_datePart part_eq)).append (by decide)
      rw [shiftMarks_append d (by decide), shiftMarks_append_of_free d opening_free]
      exact Method.template_of_datePart part_eq compared _
    · cases filled
  case h_8 => cases filled

/-- Conditions that are joined are shifted one by one. -/
theorem shiftMarks_conjunction (ts : List String) :
    shiftMarks d (conjunction ts) = conjunction (ts.map (shiftMarks d)) := by
  unfold conjunction
  induction ts with
  | nil => exact shiftMarks_of_free d (by decide)
  | cons t ts ih =>
    cases ts with
    | nil => rw [List.map_cons, List.map_nil, String.intercalate_singleton,
        String.intercalate_singleton]
    | cons next rest =>
      rw [List.map_cons] at ih
      rw [List.map_cons, List.map_cons, String.intercalate_cons_cons,
        String.intercalate_cons_cons, shiftMarks_between d (by decide), ih]

end Texts

theorem eq_map_of_forall₂ {α β : Type} {f : α → β} {as : List α} {bs : List β}
    (h : List.Forall₂ (fun a b => b = f a) as bs) : bs = as.map f := by
  have mapped : List.Forall₂ (· = ·) (as.map f) bs :=
    List.forall₂_map_left_iff.2 (h.imp fun _ _ same => same.symm)
  rw [List.forall₂_eq_eq_eq] at mapped
  exact mapped.symm

/-- In one scope, in which `?` stands for placeholders only, texts are shifted by as much as the
indices from which on their values are bound. -/
theorem Scope.MarksPlaceholders.congruence {scope : Scope} (fits : scope.MarksPlaceholders)
    (start start' : Nat) :
    Congruence scope scope start start' (fun p => MarkFree p.queryName) fun t t' =>
      t' = shiftMarks (start' - start) t where
  column p free := by
    cases column : scope.columnText p with
    | error e => exact .error
    | ok text => exact .ok (shiftMarks_of_free _ (fits.columnText_free free column)).symm
  path path step free := by
    cases named : scope.pathText (.member path step) with
    | error e => exact .error
    | ok text => exact .ok (shiftMarks_of_free _ (fits.pathText_free free named)).symm
  keyword word is_word := by
    have free : MarkFree word := by
      revert word
      decide
    exact (shiftMarks_of_free _ free).symm
  placeholder k := by
    have index_eq : ((start + k : Nat) + ((start' : Int) - start)).toNat = start' + k := by omega
    rw [fits.marker_eq, shiftMarks_placeholder, index_eq]
  unary operator t t' := by
    rintro rfl
    exact (shiftMarks_unaryText _ operator t).symm
  left p right t t' free column column' := by
    obtain rfl := Except.ok.inj (column.symm.trans column')
    have t_free := fits.columnText_free free column
    cases cut : leftText (.property p) right t with
    | error e => exact .error
    | ok text => exact .ok (shiftMarks_of_free _ (t_free.leftText cut)).symm
  pattern t t' r r' := by
    rintro rfl rfl
    exact (shiftMarks_patternTest _ t r).symm
  plain operator t t' r r' := by
    rintro rfl rfl
    rw [plainComparison_shiftMarks]
    cases plainComparison operator t r with
    | error e => exact .error
    | ok text => exact .ok rfl
  template m compared ts ts' related := by
    have outcome := m.template_liftRel compared related.length_eq
    obtain rfl := eq_map_of_forall₂ related
    cases filled : m.template compared ts with
    | error e =>
      rw [filled] at outcome
      rw [outcome.eq_error]
      exact .error
    | ok text =>
      rw [template_map_shiftMarks _ filled]
      exact .ok rfl
  conjunction ts ts' related := by
    obtain rfl := eq_map_of_forall₂ related
    rw [shiftMarks_append _ (by decide), shiftMarks_append_of_free _ (by decide),
      shiftMarks_conjunction]

/-! ## Filters -/

/-- **A filter over another ledger has the same outcome, shifted.** In similar scopes a filter
succeeds over both ledgers or fails over both in the same way, and binds the same values, also where
it fails. In one scope, in which `?` stands for placeholders only, the text over the one ledger is
the text over the other with every placeholder shifted by the distance of their next indices. -/
theorem filterText_shifts {scope scope' : Scope} (similar : scope.Similar scope') (e : Expression)
    {ledger ledger' : Ledger} (unmarked : ledger.substringCompared = false)
    (unmarked' : ledger'.substringCompared = false) :
    (∃ values : List Value,
      ((filterText scope e).over ledger).2.clearSubstring = ledger.bindAll values ∧
        ((filterText scope' e).over ledger').2.clearSubstring = ledger'.bindAll values) ∧
      ((filterText scope e).over ledger).1.map (fun _ => ()) =
        ((filterText scope' e).over ledger').1.map (fun _ => ()) ∧
      (scope = scope' → scope.MarksPlaceholders → (∀ p ∈ e.properties, MarkFree p.queryName) →
        ((filterText scope' e).over ledger').1 =
          ((filterText scope e).over ledger).1.map
            (shiftMarks (ledger'.nextIndex - ledger.nextIndex))) := by
  have follows := filterText_follows_of_unmarked scope e unmarked
  have follows' := filterText_follows_of_unmarked scope' e unmarked'
  rw [follows.result_eq, follows'.result_eq, follows.ledger_eq, follows'.ledger_eq,
    Ledger.clearSubstring_of_unmarked unmarked, Ledger.clearSubstring_of_unmarked unmarked']
  have outcomes := draftText_inStep (similar.congruence ledger.nextIndex ledger'.nextIndex)
    similar.separator_eq false e fun _ _ => trivial
  refine ⟨⟨_, rfl, congrArg _ (outcomes.values_eq 0).symm⟩, ?_, ?_⟩
  · exact (outcomes.results 0).map_eq fun _ _ _ => rfl
  · rintro rfl fits free
    have texts := draftText_inStep (fits.congruence ledger.nextIndex ledger'.nextIndex) rfl false e
      free
    have shifted := (texts.results 0).map_eq (f := shiftMarks _) (g := id) fun _ _ text_eq =>
      text_eq.symm
    rw [Except.map_id] at shifted
    exact shifted.symm

/-- Lines from the tenth on whose name does not start with `a`. -/
def lateFilter : Expression :=
  .binary .and
    (.binary .ge (.property ⟨"Line", .simple .int32, none, []⟩) (.literal "10" .int32))
    (.binary .eq
      (.method .startsWith [.property ⟨"Name", .simple .string, none, []⟩, .literal "'a'" .string])
      (.literal "false" .boolean))

/-- A ledger on which eight values are bound. -/
def eightLedger : Ledger := ({} : Ledger).bindAll (List.replicate 8 (.string "EU"))

/-- The condition of `lateFilter` by itself. -/
def lateCondition : String :=
  "((t.Line >= ?1) AND (t.Name NOT LIKE CONCAT(?2,'%') ESCAPE '\\' ))"

set_option maxRecDepth 8000 in
/-- After eight values the second placeholder has a digit more. -/
theorem filterText_shifts_past_digits :
    ((filterText { alias? := some "t" } lateFilter).over {}).1 = .ok lateCondition ∧
      shiftMarks 8 lateCondition =
        "((t.Line >= ?9) AND (t.Name NOT LIKE CONCAT(?10,'%') ESCAPE '\\' ))" ∧
      (∃ values : List Value,
        ((filterText { alias? := some "t" } lateFilter).over {}).2.clearSubstring =
            ({} : Ledger).bindAll values ∧
          ((filterText { alias? := some "t" } lateFilter).over eightLedger).2.clearSubstring =
            eightLedger.bindAll values) ∧
      ((filterText { alias? := some "t" } lateFilter).over eightLedger).1 =
        .ok (shiftMarks 8 lateCondition) := by
  have run : ((filterText { alias? := some "t" } lateFilter).over {}).1 = .ok lateCondition := rfl
  have fits : Scope.MarksPlaceholders { alias? := some "t" } :=
    ⟨rfl, fun table hm => by obtain rfl := Option.some.inj hm; decide⟩
  have free : ∀ p ∈ lateFilter.properties, MarkFree p.queryName := by
    simp only [lateFilter, Expression.properties, argumentProperties]
    decide
  have similar : Scope.Similar { alias? := some "t" } { alias? := some "t" } := ⟨rfl, rfl⟩
  have unmarked : ({} : Ledger).substringCompared = false := rfl
  have unmarked' : eightLedger.substringCompared = false := rfl
  have shifts := filterText_shifts similar lateFilter unmarked unmarked'
  refine ⟨run, rfl, shifts.1, ?_⟩
  rw [shifts.2.2 rfl fits free, run]
  rfl

end EntityQuery
