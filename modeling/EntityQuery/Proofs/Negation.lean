import EntityQuery.Query.Session

/-!
# Negated pattern tests

A test whether a text starts or ends with another one is a comparison by `LIKE`. Where the test is
compared with `false`, the first `LIKE` of its text becomes `NOT LIKE`. That is the operator of the
test itself, unless the text of the first argument has a `LIKE` of its own, in the name of a column
or in a pattern test further inside: then that one is replaced, and the operator stays as it was.

## Main definitions

* `Method.pattern`: the pattern of a pattern test
* `Expression.falseLiteral`: the literal `false`

## Main results

* `substituteFirst_operator`, `substituteFirst_of_cut?`: which `LIKE` is replaced
* `over_patternTest_eq_ok`, `over_patternTest_eq_false`: what a pattern test and its negation come
  to
* `filterText_negates_pattern`: the operator is negated if and only if the first argument has no
  `LIKE`
-/

namespace EntityQuery

/-- The pattern of a pattern test. -/
def Method.pattern (m : Method) (part : String) : String :=
  match m with
  | .startsWith => "CONCAT(" ++ part ++ ",'%') ESCAPE '\\'"
  | _ => "CONCAT('%'," ++ part ++ ") ESCAPE '\\'"

/-- The literal `false`. -/
def Expression.falseLiteral : Expression := .literal "false" .boolean

/-! ## The first operator of a text -/

section Operator

variable {whole : String}

/-- Where no other one stands in front, the operator of a test is replaced. -/
theorem substituteFirst_operator (free : ¬"LIKE".toList <:+: whole.toList) (pattern : String) :
    Text.substituteFirst "LIKE" "NOT LIKE" (whole ++ " LIKE " ++ pattern) =
      whole ++ " NOT LIKE " ++ pattern := by
  have blank : ' ' ∉ "LIKE".toList := by decide
  have found := Text.cut?_append_cons_of_none (Text.cut?_eq_none.2 free) blank
    ("LIKE ".toList ++ pattern.toList)
  have here : Text.cut? "LIKE".toList (' ' :: ("LIKE ".toList ++ pattern.toList)) =
      some ([' '], ' ' :: pattern.toList) := by
    simp [Text.cut?]
  have split : (whole ++ " LIKE " ++ pattern).toList =
      whole.toList ++ ' ' :: ("LIKE ".toList ++ pattern.toList) := by
    simp
  rw [here] at found
  rw [Text.substituteFirst, Text.replaceFirst, split, found]
  apply String.ext
  simp

/-- Where another one stands in front, that one is replaced, and the operator stays. -/
theorem substituteFirst_of_cut? {before after : List Char}
    (cut : Text.cut? "LIKE".toList whole.toList = some (before, after)) (pattern : String) :
    Text.substituteFirst "LIKE" "NOT LIKE" (whole ++ " LIKE " ++ pattern) =
      String.ofList before ++ "NOT LIKE" ++ String.ofList after ++ " LIKE " ++ pattern := by
  have found := Text.cut?_append_of_some cut (" LIKE " ++ pattern).toList
  have split : (whole ++ " LIKE " ++ pattern).toList =
      whole.toList ++ (" LIKE " ++ pattern).toList := by
    simp
  rw [Text.substituteFirst, Text.replaceFirst, split, found]
  apply String.ext
  simp

/-- The operator is replaced only where no other one stands in front. -/
theorem substituteFirst_operator_iff (pattern : String) :
    Text.substituteFirst "LIKE" "NOT LIKE" (whole ++ " LIKE " ++ pattern) =
        whole ++ " NOT LIKE " ++ pattern ↔
      ¬"LIKE".toList <:+: whole.toList := by
  refine ⟨fun same => ?_, fun free => substituteFirst_operator free pattern⟩
  rw [← Text.cut?_eq_none]
  rcases cut : Text.cut? "LIKE".toList whole.toList with _ | ⟨before, after⟩
  · rfl
  · rw [substituteFirst_of_cut? cut] at same
    have chars := congrArg String.toList same
    simp [Text.eq_of_cut? cut] at chars

end Operator

/-! ## Pattern tests -/

variable {scope : Scope} {m : Method} {ledger after : Ledger}

theorem Method.template_of_pattern (pattern_method : m = .startsWith ∨ m = .endsWith)
    (compared : Bool) (whole part : String) :
    m.template compared [whole, part] = .ok (whole ++ " LIKE " ++ m.pattern part) := by
  rcases pattern_method with rfl | rfl
  all_goals
    refine congrArg Except.ok (String.ext ?_)
    simp [Method.pattern]

/-- A pattern test leaves the mark for a substring test alone. -/
theorem over_takeMark_of_pattern (pattern_method : m = .startsWith ∨ m = .endsWith)
    (ledger : Ledger) :
    (takeMark m).over ledger = (.ok false, ledger) := by
  have other : m ≠ .substringOf := by
    rcases pattern_method with rfl | rfl <;> exact nofun
  rw [takeMark, if_neg other, Compile.over_pure]

/-- A pattern test compiles if its two arguments do, and binds what they bind. -/
theorem over_patternTest_eq_ok (pattern_method : m = .startsWith ∨ m = .endsWith) {a b : Expression}
    {test : String} :
    (filterText scope (.method m [a, b])).over ledger = (.ok test, after) ↔
      ∃ whole middle part, (filterText scope a).over ledger = (.ok whole, middle) ∧
        (filterText scope b).over middle = (.ok part, after) ∧
        whole ++ " LIKE " ++ m.pattern part = test := by
  have checked : m.check 2 = .ok () := by
    rcases pattern_method with rfl | rfl <;> rfl
  simp [filterText, filterTexts, checked, Compile.over_bind_eq_ok,
    over_takeMark_of_pattern pattern_method, Method.template_of_pattern pattern_method]

/-- Compared with `false` a pattern test compiles to its text with the first operator replaced. -/
theorem over_patternTest_eq_false (pattern_method : m = .startsWith ∨ m = .endsWith)
    {args : List Expression} {test : String}
    (h : (filterText scope (.method m args)).over ledger = (.ok test, after)) :
    (filterText scope (.binary .eq (.method m args) .falseLiteral)).over ledger =
      (.ok ("(" ++ Text.substituteFirst "LIKE" "NOT LIKE" test ++ " )"), after) := by
  have other : comparesSubstring .eq (.method m args) = false := by
    rcases pattern_method with rfl | rfl <;> rfl
  have compared : comparison .eq (.method m args) .falseLiteral test "false" =
      .ok ("(" ++ Text.substituteFirst "LIKE" "NOT LIKE" test ++ " )") := by
    rcases pattern_method with rfl | rfl <;> rfl
  exact (over_binary_eq_ok rfl other).2 ⟨test, after, "false", h, rfl, compared⟩

/-- **A pattern test is negated where its first argument has no `LIKE`.** If a pattern test
compiles, then so does its comparison with `false`, and binds the same values. The operator of the
test is negated, with both arguments as they are, if and only if the text of the first one has no
`LIKE`; otherwise the first `LIKE` in that text is what becomes `NOT LIKE`. -/
theorem filterText_negates_pattern (pattern_method : m = .startsWith ∨ m = .endsWith)
    {a b : Expression} {test : String}
    (h : (filterText scope (.method m [a, b])).over ledger = (.ok test, after)) :
    ∃ whole middle part negated,
      (filterText scope a).over ledger = (.ok whole, middle) ∧
      (filterText scope b).over middle = (.ok part, after) ∧
      test = whole ++ " LIKE " ++ m.pattern part ∧
      (filterText scope (.binary .eq (.method m [a, b]) .falseLiteral)).over ledger =
        (.ok negated, after) ∧
      (negated = "(" ++ (whole ++ " NOT LIKE " ++ m.pattern part) ++ " )" ↔
        ¬"LIKE".toList <:+: whole.toList) ∧
      ∀ {before rest : List Char}, Text.cut? "LIKE".toList whole.toList = some (before, rest) →
        negated = "(" ++ (String.ofList before ++ "NOT LIKE" ++ String.ofList rest ++ " LIKE " ++
          m.pattern part) ++ " )" := by
  obtain ⟨whole, middle, part, first, second, rfl⟩ := (over_patternTest_eq_ok pattern_method).1 h
  refine ⟨whole, middle, part, _, first, second, rfl, over_patternTest_eq_false pattern_method h,
    ?operator, ?other⟩
  case operator =>
    rw [← substituteFirst_operator_iff (m.pattern part), String.append_left_inj,
      String.append_right_inj]
  case other =>
    intro before rest cut
    rw [substituteFirst_of_cut? cut]

/-- A test of the end of a name in lower case, with an alias. -/
def endingTest : Expression :=
  .method .endsWith
    [.method .toLower [.property ⟨"Name", .simple .string, none, []⟩], .literal "'z'" .string]

/-- The negated test of the end of a name has its arguments as they are. -/
theorem filterText_negates_pattern_of_endingTest :
    (filterText ⟨some "t", {}⟩ endingTest).over {} =
        (.ok "LOWER(t.Name) LIKE CONCAT('%',?1) ESCAPE '\\'", ({} : Ledger).bind (.string "z")) ∧
      (filterText ⟨some "t", {}⟩ (.binary .eq endingTest .falseLiteral)).over {} =
        (.ok "(LOWER(t.Name) NOT LIKE CONCAT('%',?1) ESCAPE '\\' )",
          ({} : Ledger).bind (.string "z")) := by
  have compiles : (filterText ⟨some "t", {}⟩ endingTest).over {} =
      (.ok "LOWER(t.Name) LIKE CONCAT('%',?1) ESCAPE '\\'", ({} : Ledger).bind (.string "z")) := rfl
  refine ⟨compiles, ?_⟩
  obtain ⟨whole, middle, part, negated, first, second, -, negation, negated_iff, -⟩ :=
    filterText_negates_pattern (.inr rfl) compiles
  obtain rfl : "LOWER(t.Name)" = whole := Except.ok.inj (congrArg Prod.fst first)
  obtain rfl : ({} : Ledger) = middle := congrArg Prod.snd first
  obtain rfl : "?1" = part := Except.ok.inj (congrArg Prod.fst second)
  have free : ¬"LIKE".toList <:+: "LOWER(t.Name)".toList := Text.cut?_eq_none.1 rfl
  rw [negated_iff.2 free] at negation
  exact negation

/-- **The `LIKE` in the name of a column is taken for the operator.** The test is not negated, and
the name of the column is broken. -/
theorem filterText_breaks_name_in_negation :
    let test : Expression := .method .startsWith
      [.property ⟨"LIKES", .simple .string, none, []⟩, .literal "'A'" .string]
    (filterText ⟨some "t", {}⟩ test).over {} =
        (.ok "t.LIKES LIKE CONCAT(?1,'%') ESCAPE '\\'", ({} : Ledger).bind (.string "A")) ∧
      (filterText ⟨some "t", {}⟩ (.binary .eq test .falseLiteral)).over {} =
        (.ok "(t.NOT LIKES LIKE CONCAT(?1,'%') ESCAPE '\\' )", ({} : Ledger).bind (.string "A")) ∧
      "(t.NOT LIKES LIKE CONCAT(?1,'%') ESCAPE '\\' )" ≠
        "(t.LIKES NOT LIKE CONCAT(?1,'%') ESCAPE '\\' )" := by
  refine ⟨rfl, rfl, by decide⟩

end EntityQuery
