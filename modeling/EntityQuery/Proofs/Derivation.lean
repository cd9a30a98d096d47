import EntityQuery.Proofs.Draft

/-!
# Derivations of conditions

What a filter that compiles comes to. Each form of a node has one rule, which says what text the
node has and which values it binds from an index on. The rules know no ledger: the mark for a
substring test is an argument that only the rule of method calls reads, and only the left operand of
`eq` and `ne` gets it.

## Main definitions

* `InTurn`: a judgement on the elements of a list, each starting where the one before it ended
* `LiteralYields`, `PartYields`, `Yields`: the rules of literals, of parts and of trees

## Main results

* `InTurn.append`: lists in turn, one after the other
* `LiteralYields.shown`: what a literal shows and binds
* `Yields.induct`: induction over derivations
* `yields_of_draftText`: a draft that succeeds has a derivation
* `yields_of_filterText`: a filter that compiles has a derivation, and its ledger binds the derived
  values
-/

namespace EntityQuery

/-! ## Rules -/

/-- A judgement on the elements of a list, each starting where the one before it ended. -/
inductive InTurn {α β : Type} (R : Nat → α → β → List Value → Prop) :
    Nat → List α → List β → List Value → Prop
  | nil {start : Nat} : InTurn R start [] [] []
  | cons {start : Nat} {a : α} {b : β} {as : List α} {bs : List β} {values more : List Value}
      (head : R start a b values) (tail : InTurn R (start + values.length) as bs more) :
      InTurn R start (a :: as) (b :: bs) (values ++ more)

/-- What a judgement says of each result holds of all results in turn. -/
theorem InTurn.forall_mem {α β : Type} {R : Nat → α → β → List Value → Prop} {P : β → Prop}
    {start : Nat} {as : List α} {bs : List β} {values : List Value}
    (h : InTurn R start as bs values)
    (each : ∀ {start a b values}, a ∈ as → R start a b values → P b) : ∀ b ∈ bs, P b := by
  induction h with
  | nil => exact nofun
  | cons head _ ih =>
    intro b hb
    rcases List.mem_cons.1 hb with rfl | hb
    · exact each List.mem_cons_self head
    · exact ih (fun hm => each (List.mem_cons_of_mem _ hm)) b hb

theorem InTurn.imp {α β : Type} {R S : Nat → α → β → List Value → Prop} {start : Nat}
    {as : List α} {bs : List β} {values : List Value} (h : InTurn R start as bs values)
    (each : ∀ {start a b values}, R start a b values → S start a b values) :
    InTurn S start as bs values := by
  induction h with
  | nil => exact .nil
  | cons head _ ih => exact .cons (each head) ih

/-- The judgement holds of every element, from wherever its turn starts. -/
theorem InTurn.exists_of_mem {α β : Type} {R : Nat → α → β → List Value → Prop} {start : Nat}
    {as : List α} {bs : List β} {values : List Value} (h : InTurn R start as bs values) {a : α}
    (ha : a ∈ as) : ∃ turn b shown, R turn a b shown := by
  induction h with
  | nil => cases ha
  | cons head _ ih =>
    rcases List.mem_cons.1 ha with rfl | ha
    · exact ⟨_, _, _, head⟩
    · exact ih ha

/-- Lists in turn, the second of which starts where the first one ended. -/
theorem InTurn.append {α β : Type} {R : Nat → α → β → List Value → Prop} {start : Nat}
    {as others : List α} {bs rest : List β} {values more : List Value}
    (h : InTurn R start as bs values) (later : InTurn R (start + values.length) others rest more) :
    InTurn R start (as ++ others) (bs ++ rest) (values ++ more) := by
  induction h with
  | nil => exact later
  | cons head _ ih =>
    rw [List.append_assoc]
    refine .cons head (ih ?_)
    rwa [Nat.add_assoc, ← List.length_append]

/-- The text of a literal, and the values it binds. -/
inductive LiteralYields (scope : Scope) (start : Nat) (text : String) (kind : Kind) :
    String → List Value → Prop
  | intro {literal : Literal} {encoded : Encoded} (parsed : Literal.parse text = .ok literal)
      (encodes : encode literal.text kind none = .ok encoded) :
      LiteralYields scope start text kind (encoded.written scope.settings.marker start)
        encoded.values

/-- The comparison of a part with its slot. -/
inductive PartYields (scope : Scope) (operator : BinaryOperator) (owner : Property) :
    Nat → Property × Option String → String → List Value → Prop
  | intro {start : Nat} {part : Property} {slot : Option String} {text : String} {kind : Kind}
      {lhs rhs condition : String} {values : List Value}
      (literal : slotLiteral owner part slot = .ok (text, kind))
      (column : scope.columnText part = .ok lhs)
      (right : LiteralYields scope start text kind rhs values)
      (compared : comparison operator (.property part) (.literal text kind) lhs rhs =
        .ok condition) :
      PartYields scope operator owner start (part, slot) condition values

/-- The condition of a tree, and the values it binds. The first argument tells whether the operator
to the right of the tree compares it, which leaves a substring test without its own comparison. -/
inductive Yields (scope : Scope) : Bool → Nat → Expression → String → List Value → Prop
  | filter {compared : Bool} {start : Nat} {e : Expression} {text : String} {values : List Value}
      (inner : Yields scope false start e text values) :
      Yields scope compared start (.filter e) text values
  | unary {compared : Bool} {start : Nat} {operator : UnaryOperator} {operand : Expression}
      {text : String} {values : List Value}
      (inner : Yields scope false start operand text values) :
      Yields scope compared start (.unary operator operand) (unaryText operator text) values
  | composite {compared : Bool} {start : Nat} {operator : BinaryOperator} {left : Expression}
      {p : Property} {literal : String} {kind : Kind} {texts : List String} {values : List Value}
      (left_eq : compositeProperty? left = some p)
      (conjuncts : InTurn (PartYields scope operator p) start
        (p.parts.zip (slots scope.settings.separator (compositeValue literal) p.parts.length))
        texts values) :
      Yields scope compared start (.binary operator left (.literal literal kind))
        ("(" ++ conjunction texts ++ ")") values
  | binary {compared : Bool} {start : Nat} {operator : BinaryOperator} {left right : Expression}
      {lhs rhs text : String} {values more : List Value}
      (simple : compositeProperty? left = none)
      (lefts : Yields scope (comparesSubstring operator left) start left lhs values)
      (rights : Yields scope false (start + values.length) right rhs more)
      (joined : comparison operator left right lhs rhs = .ok text) :
      Yields scope compared start (.binary operator left right) text (values ++ more)
  | property {compared : Bool} {start : Nat} {p : Property} {text : String}
      (column : scope.columnText p = .ok text) :
      Yields scope compared start (.property p) text []
  | member {compared : Bool} {start : Nat} {path step : Expression} {text : String}
      (named : scope.pathText (.member path step) = .ok text) :
      Yields scope compared start (.member path step) text []
  | literal {compared : Bool} {start : Nat} {literal : String} {kind : Kind} {text : String}
      {values : List Value} (placed : LiteralYields scope start literal kind text values) :
      Yields scope compared start (.literal literal kind) text values
  | method {compared : Bool} {start : Nat} {m : Method} {args : List Expression}
      {texts : List String} {text : String} {values : List Value}
      (counted : m.check args.length = .ok ())
      (arguments : InTurn (Yields scope false) start args texts values)
      (filled : m.template compared texts = .ok text) :
      Yields scope compared start (.method m args) text values

/-- Induction over derivations: the arguments of a call satisfy the motive in turn. -/
theorem Yields.induct {scope : Scope}
    {motive : ∀ compared start e text values, Yields scope compared start e text values → Prop}
    (filter : ∀ {compared start e text values} (inner : Yields scope false start e text values),
      motive _ _ _ _ _ inner → motive compared start (.filter e) text values (.filter inner))
    (unary : ∀ {compared start operator operand text values}
      (inner : Yields scope false start operand text values), motive _ _ _ _ _ inner →
      motive compared start (.unary operator operand) (unaryText operator text) values
        (.unary inner))
    (composite : ∀ {compared start operator left p literal kind texts values}
      (left_eq : compositeProperty? left = some p)
      (conjuncts : InTurn (PartYields scope operator p) start
        (p.parts.zip (slots scope.settings.separator (compositeValue literal) p.parts.length))
        texts values),
      motive compared start (.binary operator left (.literal literal kind))
        ("(" ++ conjunction texts ++ ")") values (.composite left_eq conjuncts))
    (binary : ∀ {compared start operator left right lhs rhs text values more}
      (simple : compositeProperty? left = none)
      (lefts : Yields scope (comparesSubstring operator left) start left lhs values)
      (rights : Yields scope false (start + values.length) right rhs more)
      (joined : comparison operator left right lhs rhs = .ok text),
      motive _ _ _ _ _ lefts → motive _ _ _ _ _ rights →
      motive compared start (.binary operator left right) text (values ++ more)
        (.binary simple lefts rights joined))
    (property : ∀ {compared start p text} (column : scope.columnText p = .ok text),
      motive compared start (.property p) text [] (.property column))
    (member : ∀ {compared start path step text}
      (named : scope.pathText (.member path step) = .ok text),
      motive compared start (.member path step) text [] (.member named))
    (literal : ∀ {compared start literal kind text values}
      (placed : LiteralYields scope start literal kind text values),
      motive compared start (.literal literal kind) text values (.literal placed))
    (method : ∀ {compared start m args texts text values} (counted : m.check args.length = .ok ())
      (arguments : InTurn (Yields scope false) start args texts values)
      (filled : m.template compared texts = .ok text),
      InTurn (fun start e text values => ∃ h, motive false start e text values h) start args texts
        values →
      motive compared start (.method m args) text values (.method counted arguments filled))
    {compared : Bool} {start : Nat} {e : Expression} {text : String} {values : List Value}
    (h : Yields scope compared start e text values) : motive compared start e text values h := by
  refine @Yields.rec scope motive (fun start args texts values _ =>
    InTurn (fun start e text values => ∃ h, motive false start e text values h) start args texts
      values) filter unary composite binary property member literal method ?nil ?cons _ _ _ _ _ h
  case nil => exact .nil
  case cons =>
    -- The arguments keep their derivations, so that a motive on derivations can be used on them.
    intro _ _ _ _ _ _ _ head _ ih ihs
    exact .cons ⟨head, ih⟩ ihs

variable {scope : Scope}

/-- A literal shows a keyword and binds nothing, or shows a placeholder and binds one value; its
kind decides which. -/
theorem LiteralYields.shown {start : Nat} {text rhs : String} {kind : Kind} {values : List Value}
    (h : LiteralYields scope start text kind rhs values) :
    (kind = .boolean ∧ (rhs = "true" ∨ rhs = "false") ∧ values = []) ∨
      (kind = .null ∧ rhs = "null" ∧ values = []) ∨
      (kind.family ≠ .other ∧ rhs = placeholder scope.settings.marker start ∧
        ∃ v, values = [v]) := by
  obtain ⟨-, encodes⟩ := h
  by_cases hk : kind.family = .other
  · rcases encode_eq_keyword hk encodes with ⟨hb, rfl | rfl⟩ | ⟨hn, rfl⟩
    · exact .inl ⟨hb, .inl rfl, rfl⟩
    · exact .inl ⟨hb, .inr rfl, rfl⟩
    · exact .inr (.inl ⟨hn, rfl, rfl⟩)
  · obtain ⟨v, rfl⟩ := encode_eq_value hk encodes
    exact .inr (.inr ⟨hk, rfl, v, rfl⟩)

/-- What a literal shows and binds is read off what it becomes. -/
theorem LiteralYields.encodeLiteral_eq {start : Nat} {text rhs : String} {kind : Kind}
    {values : List Value} (h : LiteralYields scope start text kind rhs values) :
    ∃ encoded, encodeLiteral text kind = .ok encoded ∧
      encoded.written scope.settings.marker start = rhs ∧ encoded.values = values := by
  obtain ⟨parsed, encodes⟩ := h
  exact ⟨_, by rw [encodeLiteral, parsed]; exact encodes, rfl, rfl⟩

/-! ## Drafts -/

theorem yields_of_draftLiteral {start : Nat} {text rhs : String} {kind : Kind}
    {values : List Value} (h : draftLiteral scope text kind start = (.ok rhs, values)) :
    LiteralYields scope start text kind rhs values := by
  obtain ⟨encoded, _, _, hread, hplace, rfl⟩ := Draft.bind_eq_ok.1 h
  obtain ⟨encodes, rfl⟩ := Prod.mk.inj hread
  obtain ⟨shown, rfl⟩ := Prod.mk.inj hplace
  obtain rfl := Except.ok.inj shown
  rw [encodeLiteral] at encodes
  split at encodes
  · rename_i literal parsed
    exact .intro parsed encodes
  · cases encodes

theorem yields_of_draftPart {operator : BinaryOperator} {owner : Property}
    {entry : Property × Option String} {start : Nat} {text : String} {values : List Value}
    (h : draftPart scope operator owner entry start = (.ok text, values)) :
    PartYields scope operator owner start entry text values := by
  simp only [draftPart, Draft.lift_bind_eq_ok] at h
  simp only [Draft.bind_eq_ok, Draft.lift_apply, Prod.mk.injEq] at h
  obtain ⟨⟨literal, kind⟩, hs, lhs, hc, rhs, bound, _, hr, ⟨ht, rfl⟩, rfl⟩ := h
  rw [List.append_nil]
  exact .intro hs hc (yields_of_draftLiteral hr) ht

/-- Drafts in turn that succeed give judgements in turn. -/
theorem inTurn_of_draft {α β : Type} {R : Nat → α → β → List Value → Prop} {draft : α → Draft β}
    (each : ∀ {a start b values}, draft a start = (.ok b, values) → R start a b values)
    {start : Nat} {as : List α} {bs : List β} {values : List Value}
    (h : Draft.inTurn (as.map draft) start = (.ok bs, values)) : InTurn R start as bs values := by
  induction as generalizing start bs values with
  | nil =>
    obtain ⟨ok, rfl⟩ := Prod.mk.inj h
    obtain rfl := Except.ok.inj ok
    exact .nil
  | cons a as ih =>
    simp only [List.map_cons, Draft.inTurn, Draft.bind_eq_ok, Draft.pure_apply, Prod.mk.injEq,
      Except.ok.injEq] at h
    obtain ⟨b, values, _, hb, ⟨bs, more, _, hbs, ⟨rfl, rfl⟩, rfl⟩, rfl⟩ := h
    rw [List.append_nil]
    exact .cons (each hb) (ih hbs)

theorem yields_of_draftComposite {operator : BinaryOperator} {p : Property}
    {left right : Expression} {compared : Bool} {start : Nat} {text : String}
    {values : List Value} (left_eq : compositeProperty? left = some p)
    (h : draftComposite scope operator p right start = (.ok text, values)) :
    Yields scope compared start (.binary operator left right) text values := by
  cases right with
  | literal literal kind =>
    simp only [draftComposite, Draft.bind_eq_ok, Draft.pure_apply, Prod.mk.injEq,
      Except.ok.injEq] at h
    obtain ⟨texts, bound, _, hparts, ⟨rfl, rfl⟩, rfl⟩ := h
    rw [List.append_nil]
    exact .composite left_eq (inTurn_of_draft yields_of_draftPart hparts)
  | _ =>
    cases (Prod.mk.inj h).1

mutual

/-- A draft that succeeds has a derivation. -/
theorem yields_of_draftText {compared : Bool} (e : Expression) {start : Nat} {text : String}
    {values : List Value} (h : draftText scope compared e start = (.ok text, values)) :
    Yields scope compared start e text values := by
  cases e with
  | filter inner =>
    rw [draftText] at h
    exact .filter (yields_of_draftText inner h)
  | unary operator operand =>
    simp only [draftText, Draft.bind_eq_ok, Draft.pure_apply, Prod.mk.injEq, Except.ok.injEq] at h
    obtain ⟨inner, bound, _, ho, ⟨rfl, rfl⟩, rfl⟩ := h
    rw [List.append_nil]
    exact .unary (yields_of_draftText operand ho)
  | binary operator left right =>
    cases left_eq : compositeProperty? left with
    | some p =>
      simp only [draftText, left_eq] at h
      exact yields_of_draftComposite left_eq h
    | none =>
      simp only [draftText, left_eq, Draft.bind_eq_ok, Draft.lift_apply, Prod.mk.injEq] at h
      obtain ⟨lhs, values, _, hl, ⟨rhs, more, _, hr, ⟨ht, rfl⟩, rfl⟩, rfl⟩ := h
      rw [← draftText_comparesSubstring] at hl
      rw [List.append_nil]
      exact .binary left_eq (yields_of_draftText left hl) (yields_of_draftText right hr) ht
  | property p =>
    simp only [draftText, Draft.lift_apply, Prod.mk.injEq] at h
    obtain ⟨column, rfl⟩ := h
    exact .property column
  | member path step =>
    simp only [draftText, Draft.lift_apply, Prod.mk.injEq] at h
    obtain ⟨named, rfl⟩ := h
    exact .member named
  | literal literal kind =>
    rw [draftText] at h
    exact .literal (yields_of_draftLiteral h)
  | method m args =>
    simp only [draftText, Draft.lift_bind_eq_ok] at h
    simp only [Draft.bind_eq_ok, Draft.lift_apply, Prod.mk.injEq] at h
    obtain ⟨_, counted, texts, bound, _, ha, ⟨filled, rfl⟩, rfl⟩ := h
    rw [List.append_nil]
    exact .method counted (yields_of_draftTexts args ha) filled

/-- Arguments whose drafts succeed have derivations in turn. -/
theorem yields_of_draftTexts (es : List Expression) {start : Nat} {texts : List String}
    {values : List Value} (h : draftTexts scope es start = (.ok texts, values)) :
    InTurn (Yields scope false) start es texts values := by
  cases es with
  | nil =>
    obtain ⟨ok, rfl⟩ := Prod.mk.inj h
    obtain rfl := Except.ok.inj ok
    exact .nil
  | cons e es =>
    simp only [draftTexts, Draft.bind_eq_ok, Draft.pure_apply, Prod.mk.injEq,
      Except.ok.injEq] at h
    obtain ⟨text, values, _, hhead, ⟨texts, more, _, htail, ⟨rfl, rfl⟩, rfl⟩, rfl⟩ := h
    rw [List.append_nil]
    exact .cons (yields_of_draftText e hhead) (yields_of_draftTexts es htail)

end

/-! ## Runs -/

/-- A filter that compiles over a ledger without the mark has a derivation, and the ledger it
leaves binds the derived values and nothing else. -/
theorem yields_of_filterText {e : Expression} {ledger after : Ledger} {text : String}
    (unmarked : ledger.substringCompared = false)
    (h : (filterText scope e).over ledger = (.ok text, after)) :
    ∃ values, Yields scope false ledger.nextIndex e text values ∧
      after = ledger.bindAll values := by
  have follows := filterText_follows_of_unmarked scope e unmarked
  obtain ⟨values, draft_eq, rfl⟩ := follows.draft_of_ok h
  rw [Ledger.clearSubstring_of_unmarked unmarked]
  exact ⟨values, yields_of_draftText e draft_eq, rfl⟩

end EntityQuery
