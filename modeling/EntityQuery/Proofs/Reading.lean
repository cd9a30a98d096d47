import EntityQuery.Proofs.Derivation
import EntityQuery.Proofs.Marks
import Mathlib.Tactic.ByContra

/-!
# Readings of conditions

The text of a condition without method calls can be read in one way only. Every operator of two
operands stands in parentheses, `NOT` stands in front of some, and the names, keywords and
placeholders between them have neither parentheses nor blanks; so it can be told from the start of a
text where an operand ends. In front of `null`, `IS` and `IS NOT` say which operator they stand for.

## Main definitions

* `Word`, `Stops`: texts without blanks and parentheses, and what may follow them
* `Reading`, `Reading.text`: a condition by its parts, and its text
* `Reads`: the reading of a tree

## Main results

* `tokenBefore_append_inj`: the token between two operands tells the operator
* `Reading.text_append_inj`: a text has no two readings, whatever follows it
* `reads_of_yields`: a plain tree that compiles has the text of its reading
* `filterText_uniquely_readable`: trees with the same text have the same reading
-/

namespace EntityQuery

/-! ## Words -/

/-- Whether a character ends a word. -/
def isDelimiter (c : Char) : Bool := c == ' ' || c == '(' || c == ')'

theorem isDelimiter_of_isDigit {c : Char} (h : c.isDigit) : isDelimiter c = false := by
  by_contra delimiter
  simp only [isDelimiter, Bool.not_eq_false, Bool.or_eq_true, beq_iff_eq] at delimiter
  rcases delimiter with (rfl | rfl) | rfl <;> exact absurd h (by decide)

/-- A text without blanks and parentheses, such as one of letters, digits, underscores and
periods. -/
def Word (text : String) : Prop := ∀ c ∈ text.toList, isDelimiter c = false

instance (text : String) : Decidable (Word text) := List.decidableBAll _ _

/-- What follows an operand: nothing, or a text that starts with a blank or a closing
parenthesis. -/
def Stops (rest : List Char) : Prop := ∀ c ∈ rest.head?, c = ' ' ∨ c = ')'

theorem Stops.blank (rest : List Char) : Stops (' ' :: rest) := by simp [Stops]

theorem Stops.closing (rest : List Char) : Stops (')' :: rest) := by simp [Stops]

namespace Word

variable {a b : String} {rest rest' : List Char}

theorem append (ha : Word a) (hb : Word b) : Word (a ++ b) := by
  intro c hc
  rw [String.toList_append, List.mem_append] at hc
  exact hc.elim (ha c) (hb c)

/-- A word ends where its text stops. -/
theorem takeWhile_append (h : Word a) (stops : Stops rest) :
    (a.toList ++ rest).takeWhile (fun c => !isDelimiter c) = a.toList := by
  have stopped : rest.takeWhile (fun c => !isDelimiter c) = [] := by
    cases rest with
    | nil => rfl
    | cons c rest => rcases stops c rfl with rfl | rfl <;> rfl
  rw [List.takeWhile_append_of_pos fun c hc => by simp [h c hc], stopped, List.append_nil]

theorem append_inj (ha : Word a) (hb : Word b) (stops : Stops rest) (stops' : Stops rest')
    (same : a.toList ++ rest = b.toList ++ rest') : a = b ∧ rest = rest' := by
  have word_eq : a.toList = b.toList := by
    rw [← ha.takeWhile_append stops, same, hb.takeWhile_append stops']
  rw [word_eq] at same
  exact ⟨String.toList_inj.1 word_eq, List.append_cancel_left same⟩

/-- A word with what follows it does not start with an opening parenthesis. -/
theorem append_ne_opened (h : Word a) (stops : Stops rest) (more : List Char) :
    a.toList ++ rest ≠ '(' :: more := by
  intro same
  rcases List.append_eq_cons_iff.1 same with ⟨-, rfl⟩ | ⟨_, opened, -⟩
  · exact absurd (stops '(' rfl) (by decide)
  · exact absurd (h '(' (by simp [opened])) (by decide)

end Word

/-! ## Tokens -/

theorem BinaryOperator.word_of_token {operator : BinaryOperator} {token : String}
    (h : operator.token? = some token) : Word token ∧ token ≠ "IS" := by
  cases operator <;> cases h <;> decide

/-- An operator is found by its token. -/
theorem BinaryOperator.find?_token {operator : BinaryOperator} {token : String}
    (h : operator.token? = some token) :
    all.find? (fun o => o.token? = some token) = some operator := by
  cases operator <;> cases h <;> rfl

theorem BinaryOperator.token_inj {operator operator' : BinaryOperator} {token : String}
    (h : operator.token? = some token) (h' : operator'.token? = some token) :
    operator = operator' := Option.some.inj ((find?_token h).symm.trans (find?_token h'))

/-- What stands between two operands is the token of the operator, or says that the second operand
is `null`. -/
theorem tokenBefore_cases (operator : BinaryOperator) (token right : String) :
    tokenBefore operator token right = token ∨
      right = "null" ∧ operator = .eq ∧ tokenBefore operator token right = "IS" ∨
      right = "null" ∧ operator = .ne ∧ tokenBefore operator token right = "IS NOT" := by
  unfold tokenBefore
  split
  · cases operator <;> simp_all
  · exact .inl rfl

section

variable {operator operator' : BinaryOperator} {token token' right right' : String}
  {rest rest' : List Char}

/-- The token of an operator is not the one for `null`. -/
theorem token_append_ne_is (token_eq : operator.token? = some token) (rest more : List Char) :
    token.toList ++ ' ' :: rest ≠ "IS".toList ++ ' ' :: more := by
  intro same
  have ⟨isWord, ne_is⟩ := BinaryOperator.word_of_token token_eq
  exact ne_is (isWord.append_inj (by decide) (.blank rest) (.blank more) same).1

/-- The token in front of a right operand tells the operator, and where that operand starts. -/
theorem tokenBefore_append_inj (token_eq : operator.token? = some token)
    (token_eq' : operator'.token? = some token')
    (same : (tokenBefore operator token right).toList ++ ' ' :: (right.toList ++ rest) =
      (tokenBefore operator' token' right').toList ++ ' ' :: (right'.toList ++ rest')) :
    operator = operator' ∧ right.toList ++ rest = right'.toList ++ rest' := by
  rcases tokenBefore_cases operator token right with own | ⟨rfl, rfl, is⟩ | ⟨rfl, rfl, is_not⟩ <;>
    rcases tokenBefore_cases operator' token' right' with
      own' | ⟨rfl, rfl, is'⟩ | ⟨rfl, rfl, is_not'⟩
  · rw [own, own'] at same
    have isWord := (BinaryOperator.word_of_token token_eq).1
    have isWord' := (BinaryOperator.word_of_token token_eq').1
    obtain ⟨rfl, follows⟩ := isWord.append_inj isWord' (.blank _) (.blank _) same
    exact ⟨BinaryOperator.token_inj token_eq token_eq', List.tail_eq_of_cons_eq follows⟩
  · -- `IS` is the token of no operator, and the first word of `IS NOT` is `IS` as well.
    rw [own, is'] at same
    exact absurd same (token_append_ne_is token_eq _ _)
  · rw [own, is_not'] at same
    exact absurd same (token_append_ne_is token_eq _ ("NOT null".toList ++ rest'))
  · rw [is, own'] at same
    exact absurd same.symm (token_append_ne_is token_eq' _ _)
  · rw [is, is'] at same
    exact ⟨rfl, by simpa using same⟩
  · rw [is, is_not'] at same
    simp at same
  · rw [is_not, own'] at same
    exact absurd same.symm (token_append_ne_is token_eq' _ ("NOT null".toList ++ rest))
  · rw [is_not, is'] at same
    simp at same
  · rw [is_not, is_not'] at same
    exact ⟨rfl, by simpa using same⟩

end

/-! ## Readings -/

/-- A part of a condition that has no parts of its own. -/
inductive Leaf where
  /-- The name of a property. -/
  | column (name : String) (isWord : Word name)
  /-- The placeholder of an index. -/
  | mark (index : Nat)
  | keyword (word : String) (known : word ∈ ["true", "false", "null"])

/-- A condition by its parts. -/
inductive Reading where
  | leaf (leaf : Leaf)
  | negation (operand : Reading)
  | operation (operator : BinaryOperator) (token : String)
      (token_eq : operator.token? = some token) (left right : Reading)

/-- The text of a leaf, where names stand after an alias. -/
def Leaf.text (table : String) : Leaf → String
  | column name _ => qualify (some table) name
  | mark index => placeholder "?" index
  | keyword word _ => word

/-- The number of placeholders of a condition. -/
def Reading.marks : Reading → Nat
  | leaf (.mark _) => 1
  | leaf _ => 0
  | negation operand => operand.marks
  | operation _ _ _ left right => left.marks + right.marks

/-- The text of a condition. -/
def Reading.text (table : String) : Reading → String
  | leaf l => l.text table
  | negation operand => unaryText .not (operand.text table)
  | operation operator token _ left right =>
    "(" ++ left.text table ++ " " ++ tokenBefore operator token (right.text table) ++ " "
      ++ right.text table ++ ")"

/-- What tells a keyword from names, placeholders and `NOT`. -/
theorem keyword_plain : ∀ word ∈ ["true", "false", "null"],
    Word word ∧ MarkFree word ∧ '.' ∉ word.toList ∧ word ≠ "NOT" := by decide

theorem isDigit_of_mem_placeholder {index : Nat} {c : Char}
    (h : c ∈ (placeholder "?" index).toList) : c = '?' ∨ c.isDigit = true := by
  rw [toList_placeholder] at h
  exact (List.mem_cons.1 h).imp_right isDigit_of_mem_toDigits

namespace Leaf

variable {table : String}

theorem word_text (isWord : Word table) (l : Leaf) : Word (l.text table) := by
  cases l with
  | column name isWord' => exact (isWord.append (by decide)).append isWord'
  | mark index =>
    intro c hc
    rcases isDigit_of_mem_placeholder hc with rfl | digit
    · rfl
    · exact isDelimiter_of_isDigit digit
  | keyword word known => exact (keyword_plain word known).1

theorem period_mem_column (table name : String) (isWord : Word name) :
    '.' ∈ ((column name isWord).text table).toList := by
  simp [text, qualify]

theorem column_ne_mark {name : String} {isWord : Word name} {index : Nat} :
    (column name isWord).text table ≠ (mark index).text table := by
  intro same
  have period := same ▸ period_mem_column table name isWord
  rcases isDigit_of_mem_placeholder period with mark_eq | digit
  · exact absurd mark_eq (by decide)
  · exact absurd digit (by decide)

theorem column_ne_keyword {name word : String} {isWord : Word name}
    {known : word ∈ ["true", "false", "null"]} :
    (column name isWord).text table ≠ (keyword word known).text table := by
  intro same
  have period := period_mem_column table name isWord
  rw [same] at period
  exact (keyword_plain word known).2.2.1 period

theorem mark_ne_keyword {index : Nat} {word : String}
    {known : word ∈ ["true", "false", "null"]} :
    (mark index).text table ≠ (keyword word known).text table := by
  intro same
  have shown : Marks ((mark index).text table) [index] := .placeholder index
  rw [same] at shown
  exact nomatch shown.unique (.of_free (keyword_plain word known).2.1)

/-- The text of a leaf tells the leaf. Only names have a period, and only placeholders a mark. -/
theorem text_inj {l l' : Leaf} (same : l.text table = l'.text table) : l = l' := by
  cases l with
  | column name isWord =>
    cases l' with
    | column name' isWord' =>
      have name_eq : name = name' := by simpa [text, qualify] using same
      subst name_eq
      rfl
    | mark index => exact absurd same column_ne_mark
    | keyword word known => exact absurd same column_ne_keyword
  | mark index =>
    cases l' with
    | column name isWord => exact absurd same.symm column_ne_mark
    | mark index' =>
      have shown : Marks ((mark index).text table) [index] := .placeholder index
      rw [same] at shown
      rw [(List.cons.inj (shown.unique (.placeholder index'))).1]
    | keyword word known => exact absurd same mark_ne_keyword
  | keyword word known =>
    cases l' with
    | column name isWord => exact absurd same.symm column_ne_keyword
    | mark index => exact absurd same.symm mark_ne_keyword
    | keyword word' known' =>
      have word_eq : word = word' := same
      subst word_eq
      rfl

theorem text_ne_not (l : Leaf) : l.text table ≠ "NOT" := by
  cases l with
  | column name isWord =>
    intro same
    have period := same ▸ period_mem_column table name isWord
    exact absurd period (by decide)
  | mark index =>
    intro same
    have start := congrArg String.toList same
    rw [text, toList_placeholder] at start
    exact absurd (List.head_eq_of_cons_eq start) (by decide)
  | keyword word known => exact (keyword_plain word known).2.2.2

end Leaf

namespace Reading

variable {table : String}

theorem negation_append (operand : Reading) (rest : List Char) :
    ((negation operand).text table).toList ++ rest =
      "NOT".toList ++ ' ' :: '(' :: ((operand.text table).toList ++ ')' :: rest) := by
  simp [text, unaryText]

theorem operation_append (operator : BinaryOperator) (token : String)
    (token_eq : operator.token? = some token) (left right : Reading) (rest : List Char) :
    ((operation operator token token_eq left right).text table).toList ++ rest =
      '(' :: ((left.text table).toList ++ ' ' ::
        ((tokenBefore operator token (right.text table)).toList ++ ' ' ::
          ((right.text table).toList ++ ')' :: rest))) := by
  simp [text]

theorem leaf_append_ne_negation (isWord : Word table) (l : Leaf) {rest : List Char}
    (stops : Stops rest) (operand : Reading) (rest' : List Char) :
    (l.text table).toList ++ rest ≠ ((negation operand).text table).toList ++ rest' := by
  rw [negation_append]
  intro same
  exact l.text_ne_not ((l.word_text isWord).append_inj (by decide) stops (.blank _) same).1

theorem leaf_append_ne_operation (isWord : Word table) (l : Leaf) {rest : List Char}
    (stops : Stops rest) (operator : BinaryOperator) (token : String)
    (token_eq : operator.token? = some token) (left right : Reading) (rest' : List Char) :
    (l.text table).toList ++ rest ≠
      ((operation operator token token_eq left right).text table).toList ++ rest' := by
  rw [operation_append]
  exact (l.word_text isWord).append_ne_opened stops _

/-- A text has no two readings, whatever follows it. -/
theorem text_append_inj (isWord : Word table) {r r' : Reading} {rest rest' : List Char}
    (stops : Stops rest) (stops' : Stops rest')
    (same : (r.text table).toList ++ rest = (r'.text table).toList ++ rest') :
    r = r' ∧ rest = rest' := by
  induction r generalizing r' rest rest' with
  | leaf l =>
    cases r' with
    | leaf l' =>
      have ⟨text_eq, rest_eq⟩ :=
        (l.word_text isWord).append_inj (l'.word_text isWord) stops stops' same
      exact ⟨congrArg leaf (Leaf.text_inj text_eq), rest_eq⟩
    | negation operand => exact absurd same (leaf_append_ne_negation isWord l stops _ _)
    | operation => exact absurd same (leaf_append_ne_operation isWord l stops _ _ _ _ _ _)
  | negation operand ih =>
    cases r' with
    | leaf l' => exact absurd same.symm (leaf_append_ne_negation isWord l' stops' _ _)
    | negation operand' =>
      rw [negation_append, negation_append] at same
      have opened := List.tail_eq_of_cons_eq (List.append_cancel_left same)
      have operands := List.tail_eq_of_cons_eq opened
      obtain ⟨rfl, follows⟩ := ih (.closing _) (.closing _) operands
      exact ⟨rfl, List.tail_eq_of_cons_eq follows⟩
    | operation =>
      rw [negation_append, operation_append] at same
      exact absurd (List.head_eq_of_cons_eq same) (by decide)
  | operation operator token token_eq left right ihl ihr =>
    cases r' with
    | leaf l' => exact absurd same.symm (leaf_append_ne_operation isWord l' stops' _ _ _ _ _ _)
    | negation =>
      rw [negation_append, operation_append] at same
      exact absurd (List.head_eq_of_cons_eq same) (by decide)
    | operation operator' token' token_eq' left' right' =>
      rw [operation_append, operation_append] at same
      -- The left operands end in front of the tokens, which tell the operator, ...
      obtain ⟨rfl, tokens⟩ := ihl (.blank _) (.blank _) (List.tail_eq_of_cons_eq same)
      obtain ⟨rfl, rights⟩ :=
        tokenBefore_append_inj token_eq token_eq' (List.tail_eq_of_cons_eq tokens)
      -- ... and the right operands in front of the closing parentheses.
      obtain ⟨rfl, follows⟩ := ihr (.closing _) (.closing _) rights
      obtain rfl := Option.some.inj (token_eq.symm.trans token_eq')
      exact ⟨rfl, List.tail_eq_of_cons_eq follows⟩

theorem text_inj (isWord : Word table) {r r' : Reading} (same : r.text table = r'.text table) :
    r = r' := by
  have stops : Stops [] := nofun
  exact (text_append_inj isWord stops stops (congrArg (·.toList ++ []) same)).1

end Reading

/-! ## Readings of trees -/

/-- The trees of literals and properties under negations and operators of two operands. Operators
without a token belong to them, but do not compile. -/
inductive Plain : Expression → Prop
  | literal {text : String} {kind : Kind} : Plain (.literal text kind)
  | property {p : Property} (simple : p.isComposite = false) (notEmbedded : p.isEmbedded = false)
      (isWord : Word p.queryName) : Plain (.property p)
  | not {operand : Expression} (inner : Plain operand) : Plain (.unary .not operand)
  | binary {operator : BinaryOperator} {left right : Expression} (lefts : Plain left)
      (rights : Plain right) : Plain (.binary operator left right)

/-- The reading of a tree whose first value is bound at an index. -/
inductive Reads : Nat → Expression → Reading → Prop
  | column {start : Nat} {p : Property} {isWord : Word p.queryName} :
      Reads start (.property p) (.leaf (.column p.queryName isWord))
  | mark {start : Nat} {text : String} {kind : Kind} {v : Value}
      (encodes : encodeLiteral text kind = .ok (.value v)) :
      Reads start (.literal text kind) (.leaf (.mark start))
  | keyword {start : Nat} {text word : String} {kind : Kind}
      {known : word ∈ ["true", "false", "null"]}
      (encodes : encodeLiteral text kind = .ok (.keyword word)) :
      Reads start (.literal text kind) (.leaf (.keyword word known))
  | negation {start : Nat} {operand : Expression} {r : Reading} (inner : Reads start operand r) :
      Reads start (.unary .not operand) (.negation r)
  | operation {start : Nat} {operator : BinaryOperator} {token : String}
      {token_eq : operator.token? = some token} {left right : Expression} {l r : Reading}
      (lefts : Reads start left l) (rights : Reads (start + l.marks) right r) :
      Reads start (.binary operator left right) (.operation operator token token_eq l r)

variable {scope : Scope} {table : String}

theorem Plain.compositeProperty?_eq {e : Expression} (plain : Plain e) :
    compositeProperty? e = none := by
  cases plain with
  | property simple => simp [compositeProperty?, simple]
  | _ => rfl

/-- Operands of plain trees are compared as they stand. -/
theorem Plain.comparison_eq {left : Expression} (plain : Plain left) (operator : BinaryOperator)
    (right : Expression) (lhs rhs : String) :
    comparison operator left right lhs rhs = plainComparison operator lhs rhs := by
  cases plain with
  | property _ notEmbedded => exact comparison_property (by rw [notEmbedded, Bool.and_false]) ..
  | _ => rfl

/-- A plain tree that compiles has the text of its reading, and binds as many values as that has
placeholders. -/
theorem reads_of_yields (alias_eq : scope.alias? = some table)
    (marker_eq : scope.settings.marker = "?") {e : Expression} (plain : Plain e) {compared : Bool}
    {start : Nat} {text : String} {values : List Value}
    (h : Yields scope compared start e text values) :
    ∃ r, Reads start e r ∧ r.text table = text ∧ r.marks = values.length := by
  induction plain generalizing compared start text values with
  | literal =>
    cases h with
    | literal placed =>
      obtain ⟨encoded, encodes, rfl, rfl⟩ := placed.encodeLiteral_eq
      cases encoded with
      | value v =>
        refine ⟨.leaf (.mark start), .mark encodes, ?_, rfl⟩
        rw [marker_eq]
        rfl
      | keyword word =>
        have known : word ∈ ["true", "false", "null"] := by simpa using encodeLiteral_eq_ok encodes
        exact ⟨.leaf (.keyword word known), .keyword encodes, rfl, rfl⟩
  | @property p simple notEmbedded isWord =>
    cases h with
    | property column =>
      obtain ⟨-, rfl⟩ := Scope.columnText_eq_ok.1 column
      refine ⟨.leaf (.column p.queryName isWord), .column, ?_, rfl⟩
      rw [alias_eq]
      rfl
  | not inner ih =>
    cases h with
    | unary operand =>
      obtain ⟨r, reads, rfl, marks_eq⟩ := ih operand
      exact ⟨.negation r, .negation reads, rfl, marks_eq⟩
  | @binary operator left right lefts rights ihl ihr =>
    cases h with
    | composite left_eq => exact nomatch lefts.compositeProperty?_eq.symm.trans left_eq
    | binary _ yields_left yields_right joined =>
      rw [lefts.comparison_eq, plainComparison_eq_ok] at joined
      obtain ⟨token, token_eq, rfl⟩ := joined
      obtain ⟨l, reads_left, rfl, marks_left⟩ := ihl yields_left
      obtain ⟨r, reads_right, rfl, marks_right⟩ := ihr yields_right
      rw [← marks_left] at reads_right
      refine ⟨.operation operator token token_eq l r, .operation reads_left reads_right, rfl, ?_⟩
      simp [Reading.marks, marks_left, marks_right]

/-- **Conditions are read in one way only.** Plain trees that compile to the same text, where all
names are words and stand after one alias, have the same reading: the same operators in the same
places, and below them the same names, the same keywords and placeholders of the same indexes. -/
theorem filterText_uniquely_readable (alias_eq : scope.alias? = some table)
    (isWord : Word table) (marker_eq : scope.settings.marker = "?") {e e' : Expression}
    (plain : Plain e) (plain' : Plain e') {ledger ledger' : Ledger}
    (unmarked : ledger.substringCompared = false) (unmarked' : ledger'.substringCompared = false)
    {text : String} (h : ((filterText scope e).over ledger).1 = .ok text)
    (h' : ((filterText scope e').over ledger').1 = .ok text) :
    ∃ r : Reading, r.text table = text ∧ Reads ledger.nextIndex e r ∧
      Reads ledger'.nextIndex e' r := by
  obtain ⟨values, yields, -⟩ := yields_of_filterText unmarked (Prod.ext h rfl)
  obtain ⟨values', yields', -⟩ := yields_of_filterText unmarked' (Prod.ext h' rfl)
  obtain ⟨r, reads, rfl, -⟩ := reads_of_yields alias_eq marker_eq plain yields
  obtain ⟨r', reads', text_eq, -⟩ := reads_of_yields alias_eq marker_eq plain' yields'
  obtain rfl := Reading.text_inj isWord text_eq
  exact ⟨_, rfl, reads, reads'⟩

/-- Whether it is known that a property does not have a value. -/
def knownFilter (p : Property) (literal : String) : Expression :=
  .binary .ne (.unary .not (.binary .eq (.property p) (.literal literal .string))) .nullLiteral

theorem plain_knownFilter {p : Property} {literal : String} (simple : p.isComposite = false)
    (notEmbedded : p.isEmbedded = false) (isWord : Word p.queryName) :
    Plain (knownFilter p literal) :=
  .binary (.not (.binary (.property simple notEmbedded isWord) .literal)) .literal

/-- The condition of `knownFilter`, in which `NOT` belongs to an operand and to a token. -/
def knownCondition : String := "(NOT ((t.Name = ?1)) IS NOT null)"

/-- A property with the name that another one has in queries. -/
def renamedProperty : Property := ⟨"Title", .simple .string, some { storedName := "Name" }, []⟩

/-- Two properties with one name in queries, and two literals. -/
theorem filterText_uniquely_readable_of_knownFilter :
    ∃ r : Reading, r.text "t" = knownCondition ∧
      Reads 1 (knownFilter ⟨"Name", .simple .string, none, []⟩ "'a'") r ∧
      Reads 1 (knownFilter renamedProperty "'b'") r := by
  have unmarked : ({} : Ledger).substringCompared = false := rfl
  have scope_alias : ({ alias? := some "t" } : Scope).alias? = some "t" := rfl
  exact filterText_uniquely_readable scope_alias (by decide) rfl
    (plain_knownFilter rfl rfl (by decide)) (plain_knownFilter rfl rfl (by decide))
    unmarked unmarked rfl rfl

end EntityQuery
