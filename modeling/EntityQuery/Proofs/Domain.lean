import EntityQuery.Proofs.Draft
import Mathlib.Tactic.Tauto

/-!
# The domain of filters

A filter compiles if and only if each of its nodes satisfies a condition that is about this node and
its operands only. A composite property and the literal that it is compared with are no nodes of
their own here: the operator that compares them asks for a value of each part.

The conditions do not mention a ledger: a filter that compiles over one compiles over every other,
as long as neither has the mark.

## Main definitions

* `Expression.nodes`: the nodes of a tree whose conditions count
* `Expression.Fits`: the condition of a node
* `Draft.SucceedsWhen`: the drafts that succeed where a proposition holds

## Main results

* `Draft.SucceedsWhen.bind`: a draft in two steps succeeds where both conditions hold
* `exists_comparison`, `Method.exists_check`, `Method.exists_template`: where operators and
  methods give a text
* `draftText_succeedsWhen`: the draft of a tree succeeds where all its nodes fit
* `filterText_succeeds_iff`: and so does the filter
-/

namespace EntityQuery

/-! ## Conditions of nodes -/

/-- The operators that have a token in conditions. -/
def BinaryOperator.Expressible (operator : BinaryOperator) : Prop :=
  operator ∈ [.and, .or, .eq, .ne, .lt, .le, .gt, .ge]

/-- The methods that conditions can express. -/
def Method.Expressible (m : Method) : Prop :=
  m ∈ [.substring, .substringOf, .toLower, .startsWith, .endsWith, .year, .month, .day, .hour,
    .minute, .second]

instance (m : Method) : Decidable m.Expressible := inferInstanceAs (Decidable (m ∈ _))

/-- The literals that can be read, and whose plain text is a value of the kind declared for them. -/
def LiteralFits (text : String) (kind : Kind) : Prop :=
  ∃ literal encoded, Literal.parse text = .ok literal ∧
    encode literal.text kind none = .ok encoded

/-- The paths over stored properties. -/
inductive StoredPath : Expression → Prop
  | first {p : Property} (stored : p.isVirtual = false) : StoredPath (.property p)
  | further {path : Expression} {p : Property} (front : StoredPath path)
      (stored : p.isVirtual = false) : StoredPath (.member path (.property p))

/-- A property has an owner if its qualified name has a period. -/
def HasOwner (scope : Scope) (p : Property) : Prop :=
  '.' ∈ (qualify scope.alias? p.queryName).toList

/-- What an operator asks of its operands together, none of which is a composite property. -/
structure OperandsFit (scope : Scope) (operator : BinaryOperator) (left right : Expression) :
    Prop where
  /-- A pattern test stands left of a boolean literal for `eq` only. -/
  pattern : ∀ m ∈ [Method.startsWith, .endsWith], left.method? = some m →
    right.isBooleanLiteral = true → operator = .eq
  /-- An embedded property left of `null` has an owner. -/
  owner : ∀ p, left = .property p → p.isEmbedded = true → right.isNullLiteral = true →
    HasOwner scope p

/-- What the comparison of a composite property asks of a part and its slot. -/
structure PartFits (scope : Scope) (part : Property) (slot : Option String) : Prop where
  stored : part.isVirtual = false
  /-- A component is a value of the kind of its part. -/
  component : ∀ token ∈ slot, ∃ kind, part.kind? = some kind ∧
    LiteralFits (Literal.render kind token) kind
  /-- An embedded part left of `null` has an owner. -/
  owner : part.isEmbedded = true → slot = none ∨ part.kind? = some .null → HasOwner scope part

/-- What the comparison of a composite property asks of its right operand: a literal, with the parts
and the slots of its text fitting each other. -/
def CompositeFits (scope : Scope) (p : Property) (right : Expression) : Prop :=
  ∃ text kind, right = .literal text kind ∧
    ∀ entry ∈ p.parts.zip
        (slots scope.settings.separator (compositeValue text) p.parts.length),
      PartFits scope entry.1 entry.2

namespace Expression

/-- The condition of a node. It says nothing of operands, arguments and what is below them, except
what the node asks of them together. -/
def Fits (scope : Scope) : Expression → Prop
  | filter _ | unary _ _ => True
  | binary operator left right => operator.Expressible ∧
    match compositeProperty? left with
    | some p => CompositeFits scope p right
    | none => OperandsFit scope operator left right
  | property p => p.isVirtual = false
  | member path step => scope.alias?.isSome = true ∧ StoredPath (.member path step)
  | literal text kind => LiteralFits text kind
  | method m arguments => m.Expressible ∧ m.arity.admits arguments.length = true

mutual

/-- The nodes of a tree whose conditions count: all but the operands where a composite property is
compared, and the steps of paths. -/
def nodes : Expression → List Expression
  | filter e => filter e :: nodes e
  | unary operator operand => unary operator operand :: nodes operand
  | binary operator left right =>
    binary operator left right ::
      match compositeProperty? left with
      | some _ => []
      | none => nodes left ++ nodes right
  | property p => [property p]
  | member path step => [member path step]
  | literal text kind => [literal text kind]
  | method m arguments => method m arguments :: nodesOfAll arguments

/-- The nodes of the arguments of a call. -/
def nodesOfAll : List Expression → List Expression
  | [] => []
  | e :: es => nodes e ++ nodesOfAll es

end

end Expression

/-! ## Names -/

theorem exists_stepNames {path : Expression} :
    (∃ names, stepNames path = .ok names) ↔ StoredPath path := by
  constructor
  · rintro ⟨names, h⟩
    refine stepNames_induct (motive := fun path _ => StoredPath path) ?first ?further h
    case first => exact fun named => .first (columnName_eq_ok.1 named).1
    case further => exact fun _ named front => .further front (columnName_eq_ok.1 named).1
  · intro h
    induction h with
    | @first p stored =>
      have named : columnName p = .ok p.queryName := columnName_eq_ok.2 ⟨stored, rfl⟩
      exact ⟨[p.queryName], bind_eq_ok.2 ⟨p.queryName, named, rfl⟩⟩
    | @further path p front stored ih =>
      obtain ⟨names, front_eq⟩ := ih
      have named : columnName p = .ok p.queryName := columnName_eq_ok.2 ⟨stored, rfl⟩
      refine ⟨names ++ [p.queryName], ?_⟩
      rw [stepNames]
      exact bind_eq_ok.2 ⟨p.queryName, named, bind_eq_ok.2 ⟨names, front_eq, rfl⟩⟩

variable {scope : Scope}

theorem exists_columnText (scope : Scope) (p : Property) :
    (∃ text, scope.columnText p = .ok text) ↔ p.isVirtual = false := by
  simp [Scope.columnText_eq_ok]

theorem exists_pathText {path : Expression} :
    (∃ text, scope.pathText path = .ok text) ↔
      scope.alias?.isSome = true ∧ StoredPath path := by
  rw [← exists_stepNames, Scope.pathText]
  cases scope.alias? <;> simp [map_eq_ok, exists_comm]

theorem exists_encodeLiteral {text : String} {kind : Kind} :
    (∃ encoded, encodeLiteral text kind = .ok encoded) ↔ LiteralFits text kind := by
  rw [encodeLiteral, LiteralFits]
  cases Literal.parse text <;> simp

/-! ## Operators -/

theorem BinaryOperator.exists_token {operator : BinaryOperator} :
    (∃ token, operator.token? = some token) ↔ operator.Expressible := by
  cases operator <;> simp [token?, Expressible]

theorem exists_plainComparison {operator : BinaryOperator} {lhs rhs : String} :
    (∃ text, plainComparison operator lhs rhs = .ok text) ↔ operator.Expressible := by
  simp only [plainComparison_eq_ok, ← BinaryOperator.exists_token]
  exact ⟨fun ⟨_, token, token_eq, _⟩ => ⟨token, token_eq⟩,
    fun ⟨token, token_eq⟩ => ⟨_, token, token_eq, rfl⟩⟩

theorem exists_leftText {left right : Expression} {lhs : String} :
    (∃ text, leftText left right lhs = .ok text) ↔
      ∀ p, left = .property p → p.isEmbedded = true → right.isNullLiteral = true →
        '.' ∈ lhs.toList := by
  cases left with
  | property p =>
    cases hn : right.isNullLiteral <;> cases he : p.isEmbedded <;> simp [leftText, hn, he]
    cases cut : Text.upToLast? '.' lhs with
    | none => simpa using Text.upToLast?_eq_none.1 cut
    | some owner =>
      have period : '.' ∈ lhs.toList := Decidable.byContradiction fun h => by
        simp [Text.upToLast?_eq_none.2 h] at cut
      simpa using period
  | _ => simp [leftText]

theorem operandsFit_iff {operator : BinaryOperator} {left right : Expression} {lhs : String}
    (named : ∀ p, left = .property p → lhs = qualify scope.alias? p.queryName) :
    OperandsFit scope operator left right ↔ (∃ cut, leftText left right lhs = .ok cut) ∧
      ∀ m, patternMethod? left = some m → right.isBooleanLiteral = true → operator = .eq := by
  rw [exists_leftText]
  constructor
  · intro fit
    refine ⟨fun p left_eq embedded null => ?_, fun m test boolean => ?_⟩
    · rw [named p left_eq]
      exact fit.owner p left_eq embedded null
    · obtain ⟨pattern, call⟩ := patternMethod?_eq_some.1 test
      exact fit.pattern m pattern call boolean
  · rintro ⟨owner, pattern⟩
    refine ⟨fun m test call boolean => ?_, fun p left_eq embedded null => ?_⟩
    · exact pattern m (patternMethod?_eq_some.2 ⟨test, call⟩) boolean
    · rw [HasOwner, ← named p left_eq]
      exact owner p left_eq embedded null

/-- Where two operands with their texts have a condition. -/
theorem exists_comparison (scope : Scope) {operator : BinaryOperator} {left right : Expression}
    {lhs rhs : String}
    (named : ∀ p, left = .property p → lhs = qualify scope.alias? p.queryName) :
    (∃ text, comparison operator left right lhs rhs = .ok text) ↔
      operator.Expressible ∧ OperandsFit scope operator left right := by
  rw [operandsFit_iff named, comparison]
  cases leftText left right lhs with
  | error e => simp [bind, Except.bind]
  | ok cut =>
    simp only [bind, Except.bind]
    split
    case h_1 m test boolean =>
      by_cases eq : operator = .eq
      · simp [eq, BinaryOperator.Expressible]
      · simp [eq, test, boolean]
    case h_2 plain =>
      have pattern : ∀ m, patternMethod? left = some m → right.isBooleanLiteral = true →
          operator = .eq := fun m test boolean => (plain m test boolean).elim
      rw [exists_plainComparison, and_iff_left ⟨⟨cut, rfl⟩, pattern⟩]

/-! ## Methods -/

namespace Method

theorem exists_check (m : Method) (count : Nat) :
    (∃ checked, m.check count = .ok checked) ↔
      m.Expressible ∧ m.arity.admits count = true := by
  have supported : m.isSupported = true ↔ m.Expressible := by cases m <;> decide
  rw [check, ← supported]
  cases m.isSupported <;> cases m.arity.admits count <;> simp

/-- A call that conditions can express has a text. -/
theorem exists_template {m : Method} {texts : List String} (expressible : m.Expressible)
    (admits : m.arity.admits texts.length = true) (compared : Bool) :
    ∃ text, m.template compared texts = .ok text := by
  have few : texts.length ≤ 3 := by
    cases m <;> simp [Expressible] at expressible <;> simp [arity, Arity.admits] at admits <;>
      omega
  match texts with
  | [] | [_] | [_, _] | [_, _, _] =>
    cases m <;> simp [Expressible, arity, Arity.admits, template, datePart?] at *
  | _ :: _ :: _ :: _ :: _ =>
    simp only [List.length_cons] at few
    omega

end Method

/-! ## Drafts -/

namespace Draft

variable {α β : Type} {P Q : Prop}

/-- A draft succeeds where `P` holds and nowhere else, at whatever index it starts. -/
def SucceedsWhen (x : Draft α) (P : Prop) : Prop := ∀ start, (∃ a, (x start).1 = .ok a) ↔ P

namespace SucceedsWhen

theorem lift {result : Except QueryError α} (h : (∃ a, result = .ok a) ↔ P) :
    (liftM result : Draft α).SucceedsWhen P := fun _ => h

theorem pure (a : α) : (Pure.pure a : Draft α).SucceedsWhen True := .lift (by simp)

theorem fail (e : QueryError) : (Draft.fail e : Draft α).SucceedsWhen False := .lift (by simp)

theorem congr {x : Draft α} (h : x.SucceedsWhen P) (same : P ↔ Q) : x.SucceedsWhen Q :=
  fun start => (h start).trans same

/-- A draft in two steps succeeds where both conditions hold, if that of the second step is the same
after all results of the first one. -/
theorem bind {x : Draft α} {f : α → Draft β} (hx : x.SucceedsWhen P)
    (hf : ∀ a start values, x start = (.ok a, values) → (f a).SucceedsWhen Q) :
    (x >>= f).SucceedsWhen (P ∧ Q) := by
  intro start
  rcases h : x start with ⟨_ | a, values⟩
  case error e =>
    have fails : ¬P := by
      rw [← hx start, h]
      simp
    simp [bind_of_error h, fails]
  case ok =>
    have succeeds : P := (hx start).1 ⟨a, by rw [h]⟩
    rw [bind_of_ok h, and_iff_right succeeds]
    exact hf a start values h (start + values.length)

/-- What is made of a result takes no part in success. -/
theorem map {x : Draft α} (hx : x.SucceedsWhen P) (f : α → β) :
    (x >>= fun a => Pure.pure (f a)).SucceedsWhen P :=
  (hx.bind fun a _ _ _ => .pure (f a)).congr (and_iff_left trivial)

/-- Drafts one after the other succeed where each of them does. -/
theorem inTurn {draft : α → Draft β} {each : α → Prop}
    (h : ∀ a, (draft a).SucceedsWhen (each a)) (as : List α) :
    (Draft.inTurn (as.map draft)).SucceedsWhen (∀ a ∈ as, each a) := by
  induction as with
  | nil => exact (pure []).congr (by simp)
  | cons a as ih =>
    rw [List.map_cons, Draft.inTurn]
    exact ((h a).bind fun b _ _ _ => ih.map (b :: ·)).congr List.forall_mem_cons.symm

end SucceedsWhen

theorem length_of_inTurn {drafts : List (Draft α)} {start : Nat} {as : List α}
    {values : List Value} (h : Draft.inTurn drafts start = (.ok as, values)) :
    as.length = drafts.length := by
  induction drafts generalizing start as values with
  | nil =>
    obtain rfl := Except.ok.inj (Prod.mk.inj h).1
    rfl
  | cons draft drafts ih =>
    simp only [Draft.inTurn, Draft.bind_eq_ok, Draft.pure_apply, Prod.mk.injEq,
      Except.ok.injEq] at h
    obtain ⟨b, _, _, -, ⟨bs, _, _, rest, ⟨rfl, -⟩, -⟩, -⟩ := h
    simp [ih rest]

end Draft

open Draft (SucceedsWhen)

theorem draftLiteral_succeedsWhen (scope : Scope) (text : String) (kind : Kind) :
    (draftLiteral scope text kind).SucceedsWhen (LiteralFits text kind) :=
  ((SucceedsWhen.lift exists_encodeLiteral).bind (Q := True)
    fun encoded _ _ _ _ => by simp [Draft.place]).congr (and_iff_left trivial)

/-- Left of a literal a property needs nothing but an owner. -/
theorem operandsFit_property {operator : BinaryOperator} {p : Property} {text : String}
    {kind : Kind} : OperandsFit scope operator (.property p) (.literal text kind) ↔
      (p.isEmbedded = true → kind = .null → HasOwner scope p) := by
  constructor
  · intro fit embedded null
    exact fit.owner p rfl embedded (by simp [Expression.isNullLiteral, null])
  · intro owner
    refine ⟨fun m _ call => (nomatch call), fun p' same embedded null => ?_⟩
    cases same
    exact owner embedded (by simpa [Expression.isNullLiteral] using null)

/-- The keyword `null` is a literal of its own kind. -/
theorem literalFits_null : LiteralFits "null" .null :=
  ⟨⟨.null, "null"⟩, .keyword "null", rfl, rfl⟩

/-- A part fits its slot if the slot has a literal for it and the two can be compared. -/
theorem partFits_iff (operator : BinaryOperator) (owner part : Property) (slot : Option String) :
    PartFits scope part slot ↔ ∃ literal, slotLiteral owner part slot = .ok literal ∧
      part.isVirtual = false ∧ LiteralFits literal.1 literal.2 ∧
      OperandsFit scope operator (.property part) (.literal literal.1 literal.2) := by
  simp only [operandsFit_property]
  cases slot with
  | none =>
    simp only [slotLiteral]
    constructor
    · intro fit
      refine ⟨_, rfl, fit.stored, literalFits_null, fun embedded _ => ?_⟩
      exact fit.owner embedded (.inl rfl)
    · rintro ⟨_, ⟨⟩, stored, -, owner⟩
      exact ⟨stored, nofun, fun embedded _ => owner embedded rfl⟩
  | some token =>
    simp only [slotLiteral]
    constructor
    · intro fit
      obtain ⟨kind, kind_eq, literal_fits⟩ := fit.component token rfl
      rw [kind_eq]
      refine ⟨_, rfl, fit.stored, literal_fits, fun embedded null => ?_⟩
      exact fit.owner embedded (.inr (kind_eq.trans (congrArg some null)))
    · rintro ⟨_, literal_eq, stored, literal_fits, owner⟩
      split at literal_eq
      case h_1 kind kind_eq =>
        obtain rfl := Except.ok.inj literal_eq
        refine ⟨stored, fun _ same => ?_, fun embedded null => ?_⟩
        · obtain rfl := Option.mem_some.1 same
          exact ⟨kind, kind_eq, literal_fits⟩
        · have null_kind := null.resolve_left nofun
          exact owner embedded (Option.some.inj (kind_eq.symm.trans null_kind))
      case h_2 => cases literal_eq

/-- The comparison of a part succeeds where the part and its slot fit. -/
theorem draftPart_succeedsWhen (scope : Scope) (operator : BinaryOperator) (owner : Property)
    (entry : Property × Option String) :
    (draftPart scope operator owner entry).SucceedsWhen
      (operator.Expressible ∧ PartFits scope entry.1 entry.2) := by
  obtain ⟨part, slot⟩ := entry
  rw [partFits_iff operator owner]
  cases literal_eq : slotLiteral owner part slot with
  | error e =>
    simp only [draftPart, literal_eq]
    refine (SucceedsWhen.fail e).congr ?_
    simp
  | ok literal =>
    obtain ⟨text, kind⟩ := literal
    simp only [draftPart, literal_eq, Draft.lift_ok_bind]
    have column := SucceedsWhen.lift (exists_columnText scope part)
    have value := draftLiteral_succeedsWhen scope text kind
    refine (column.bind fun lhs start values column_ok => value.bind fun rhs _ _ _ =>
      .lift (exists_comparison scope ?named)).congr ?_
    case named =>
      rintro p ⟨⟩
      exact (Scope.columnText_eq_ok.1 (Prod.mk.inj column_ok).1).2.symm
    simp only [Except.ok.injEq, exists_eq_left']
    tauto

theorem draftComposite_succeedsWhen (scope : Scope) (operator : BinaryOperator) {p : Property}
    (composite : p.isComposite = true) (right : Expression) :
    (draftComposite scope operator p right).SucceedsWhen
      (operator.Expressible ∧ CompositeFits scope p right) := by
  cases right with
  | literal text kind =>
    have parts := SucceedsWhen.inTurn (draftPart_succeedsWhen scope operator p)
      (p.parts.zip (slots scope.settings.separator (compositeValue text) p.parts.length))
    refine (parts.map fun conjuncts => "(" ++ conjunction conjuncts ++ ")").congr ?_
    have nonempty : p.parts.zip
        (slots scope.settings.separator (compositeValue text) p.parts.length) ≠ [] := by
      have parts_pos : 0 < p.parts.length := by
        simpa [Property.isComposite, List.length_pos_iff] using composite
      rw [ne_eq, ← List.length_eq_zero_iff, List.length_zip, length_slots]
      omega
    obtain ⟨entry, mem⟩ := List.exists_mem_of_ne_nil _ nonempty
    constructor
    · intro fit
      exact ⟨(fit entry mem).1, text, kind, rfl, fun entry mem => (fit entry mem).2⟩
    · rintro ⟨expressible, _, _, ⟨⟩, fit⟩ entry mem
      exact ⟨expressible, fit entry mem⟩
  | _ => exact (SucceedsWhen.fail _).congr (by simp [CompositeFits])

/-! ## Trees -/

theorem length_of_draftTexts {es : List Expression} {start : Nat} {texts : List String}
    {values : List Value} (h : draftTexts scope es start = (.ok texts, values)) :
    texts.length = es.length := by
  rw [draftTexts_eq_inTurn] at h
  simpa using Draft.length_of_inTurn h

theorem draftText_property_eq_ok {compared : Bool} {p : Property} {start : Nat} {text : String}
    {values : List Value} (h : draftText scope compared (.property p) start = (.ok text, values)) :
    text = qualify scope.alias? p.queryName := by
  rw [draftText] at h
  exact (Scope.columnText_eq_ok.1 (Prod.mk.inj h).1).2.symm

open Expression (nodes nodesOfAll)

mutual

/-- The draft of a tree succeeds where all its nodes fit. -/
theorem draftText_succeedsWhen (scope : Scope) (compared : Bool) (e : Expression) :
    (draftText scope compared e).SucceedsWhen (∀ node ∈ e.nodes, node.Fits scope) := by
  cases e with
  | filter inner =>
    rw [draftText]
    exact (draftText_succeedsWhen scope false inner).congr (by simp [nodes, Expression.Fits])
  | unary operator operand =>
    rw [draftText]
    refine ((draftText_succeedsWhen scope false operand).map (unaryText operator)).congr ?_
    simp [nodes, Expression.Fits]
  | binary operator left right =>
    cases left_eq : compositeProperty? left with
    | some p =>
      have composite := (compositeProperty?_eq_some.1 left_eq).2
      simp only [draftText, left_eq]
      refine (draftComposite_succeedsWhen scope operator composite right).congr ?_
      simp [nodes, left_eq, Expression.Fits]
    | none =>
      have lefts := draftText_succeedsWhen scope operator.isEquality left
      have rights := draftText_succeedsWhen scope false right
      simp only [draftText, left_eq]
      refine (lefts.bind fun lhs start values left_ok => rights.bind fun rhs _ _ _ =>
        .lift (exists_comparison scope ?named)).congr ?_
      case named =>
        rintro p rfl
        exact draftText_property_eq_ok left_ok
      rw [nodes, left_eq, List.forall_mem_cons, List.forall_mem_append, Expression.Fits, left_eq]
      rw [← and_assoc, and_comm]
  | property p =>
    rw [draftText]
    exact .lift (by simp [nodes, Expression.Fits, exists_columnText])
  | member path step =>
    rw [draftText]
    exact .lift (by simp [nodes, Expression.Fits, exists_pathText])
  | literal text kind =>
    rw [draftText]
    exact (draftLiteral_succeedsWhen scope text kind).congr (by simp [nodes, Expression.Fits])
  | method m args =>
    rw [draftText]
    have checked := SucceedsWhen.lift (m.exists_check args.length)
    have arguments := draftTexts_succeedsWhen scope args
    refine (checked.bind fun _ _ _ check_ok => arguments.bind fun texts _ _ texts_ok =>
      .lift (iff_of_true ?filled trivial)).congr ?_
    case filled =>
      obtain ⟨expressible, admits⟩ := (m.exists_check _).1 ⟨_, (Prod.mk.inj check_ok).1⟩
      rw [← length_of_draftTexts texts_ok] at admits
      exact Method.exists_template expressible admits compared
    rw [nodes, List.forall_mem_cons, Expression.Fits, and_true]

theorem draftTexts_succeedsWhen (scope : Scope) (es : List Expression) :
    (draftTexts scope es).SucceedsWhen (∀ node ∈ nodesOfAll es, node.Fits scope) := by
  cases es with
  | nil =>
    rw [draftTexts]
    exact (SucceedsWhen.pure []).congr (by simp [nodesOfAll])
  | cons e es =>
    rw [draftTexts]
    have head := draftText_succeedsWhen scope false e
    have tail := draftTexts_succeedsWhen scope es
    refine (head.bind fun text _ _ _ => tail.map (text :: ·)).congr ?_
    rw [nodesOfAll, List.forall_mem_append]

end

/-! ## Filters -/

/-- **The domain of filters.** Over a ledger without the mark a filter compiles if and only if each
of its nodes fits. -/
theorem filterText_succeeds_iff (scope : Scope) (e : Expression) {ledger : Ledger}
    (unmarked : ledger.substringCompared = false) :
    (∃ text, ((filterText scope e).over ledger).1 = .ok text) ↔
      ∀ node ∈ e.nodes, node.Fits scope := by
  rw [(filterText_follows_of_unmarked scope e unmarked).result_eq]
  exact draftText_succeedsWhen scope false e ledger.nextIndex

/-- A negated pattern test, and a composite property with an embedded part that is not there. -/
def ownedFilter : Expression :=
  .binary .and
    (.binary .eq
      (.method .startsWith
        [.property ⟨"Name", .simple .string, none, []⟩, .literal "'a'" .string])
      (.literal "false" .boolean))
    (.binary .ne
      (.property ⟨"Key", .complex "Key", none,
        [⟨"Id", .simple .int32, none, []⟩,
          ⟨"Region", .simple .string, some { embedded := true }, []⟩]⟩)
      (.literal "'7;null'" .string))

/-- The condition of `ownedFilter` with an alias. -/
def ownedCondition : String :=
  "((t.Name NOT LIKE CONCAT(?1,'%') ESCAPE '\\' ) AND ((t.Id <> ?2) AND (t IS NOT null)))"

set_option maxRecDepth 8000 in
/-- The alias is the owner of the embedded part; without it the part has none, and `ownedFilter`
does not compile. -/
theorem filterText_succeeds_iff_of_ownedFilter :
    ((filterText { alias? := some "t" } ownedFilter).over {}).1 = .ok ownedCondition ∧
      (∀ node ∈ ownedFilter.nodes, node.Fits { alias? := some "t" }) ∧
      ¬∀ node ∈ ownedFilter.nodes, node.Fits {} := by
  have unmarked : ({} : Ledger).substringCompared = false := rfl
  have compiles : ((filterText { alias? := some "t" } ownedFilter).over {}).1 =
      .ok ownedCondition := rfl
  refine ⟨compiles, (filterText_succeeds_iff _ ownedFilter unmarked).1 ⟨_, compiles⟩, ?_⟩
  intro fits
  obtain ⟨text, succeeds⟩ := (filterText_succeeds_iff {} ownedFilter unmarked).2 fits
  have fails : ((filterText {} ownedFilter).over {}).1 =
      .error (.mapping (.noOwner "Region")) := rfl
  exact nomatch fails.symm.trans succeeds

end EntityQuery
