import EntityQuery.Proofs.Placeholders
import Mathlib.Data.List.Forall2

/-!
# Two drafts in step

One tree drafted twice: in two scopes, and each time from an index of its own. Both drafts bind the
same values and fail alike. How their texts compare is a relation, of which only so much is asked
that the operations that put texts together keep it; the tree takes care of the rest.

## Main definitions

* `LiftRel`: the same failure, or things that are related
* `Draft.InStep`: drafts that bind the same values and have related results
* `Congruence`: a relation between the texts of two scopes that all operations on texts keep

## Main results

* `Draft.InStep.bind`: in step in two steps
* `draftText_inStep`: a congruence holds of the drafts of every tree
-/

namespace EntityQuery

variable {α β γ δ : Type}

/-! ## Results -/

/-- Two results: the same failure, or things that are related. -/
inductive LiftRel {ε : Type} (R : α → β → Prop) : Except ε α → Except ε β → Prop
  | ok {a : α} {b : β} (related : R a b) : LiftRel R (.ok a) (.ok b)
  | error {e : ε} : LiftRel R (.error e) (.error e)

namespace LiftRel

variable {ε : Type} {R : α → β → Prop} {S : γ → δ → Prop} {x : Except ε α} {y : Except ε β}

theorem mono (h : LiftRel R x y) {R' : α → β → Prop} (imp : ∀ a b, R a b → R' a b) :
    LiftRel R' x y := by
  cases h with
  | ok related => exact .ok (imp _ _ related)
  | error => exact .error

theorem bind (h : LiftRel R x y) {f : α → Except ε γ} {g : β → Except ε δ}
    (hf : ∀ a b, R a b → LiftRel S (f a) (g b)) : LiftRel S (x >>= f) (y >>= g) := by
  cases h with
  | ok related => exact hf _ _ related
  | error => exact .error

theorem map_eq (h : LiftRel R x y) {f : α → γ} {g : β → γ} (hf : ∀ a b, R a b → f a = g b) :
    x.map f = y.map g := by
  cases h with
  | ok related => exact congrArg _ (hf _ _ related)
  | error => rfl

theorem eq_error {e : ε} (h : LiftRel R (.error e) y) : y = .error e := by
  cases h
  rfl

/-- What is related are the results of the two sides. -/
theorem attach (h : LiftRel R x y) :
    LiftRel (fun a b => R a b ∧ x = .ok a ∧ y = .ok b) x y := by
  cases h with
  | ok related => exact .ok ⟨related, rfl, rfl⟩
  | error => exact .error

end LiftRel

/-! ## Drafts -/

/-- Two drafts, each from an index of its own: after equally many values on either side they bind
the same values and have related results. -/
structure Draft.InStep (R : α → β → Prop) (start start' : Nat) (x : Draft α) (y : Draft β) :
    Prop where
  values_eq : ∀ k, (x (start + k)).2 = (y (start' + k)).2
  results : ∀ k, LiftRel R (x (start + k)).1 (y (start' + k)).1

namespace Draft.InStep

variable {R : α → β → Prop} {S : γ → δ → Prop} {start start' : Nat}

theorem lift {x : Except QueryError α} {y : Except QueryError β} (h : LiftRel R x y) :
    InStep R start start' (liftM x) (liftM y) where
  values_eq _ := rfl
  results _ := h

theorem pure {a : α} {b : β} (h : R a b) : InStep R start start' (Pure.pure a) (Pure.pure b) :=
  lift (.ok h)

theorem fail (e : QueryError) : InStep R start start' (Draft.fail e) (Draft.fail e) :=
  lift .error

theorem mono {x : Draft α} {y : Draft β} (h : InStep R start start' x y) {R' : α → β → Prop}
    (imp : ∀ a b, R a b → R' a b) : InStep R' start start' x y where
  values_eq := h.values_eq
  results k := (h.results k).mono imp

/-- In step in two steps: as the first steps bind equally many values, the second ones start equally
far from their indices. -/
theorem bind {x : Draft α} {y : Draft β} (h : InStep R start start' x y) {f : α → Draft γ}
    {g : β → Draft δ} (hf : ∀ a b, R a b → InStep S start start' (f a) (g b)) :
    InStep S start start' (x >>= f) (y >>= g) := by
  have both (k : Nat) : ((x >>= f) (start + k)).2 = ((y >>= g) (start' + k)).2 ∧
      LiftRel S ((x >>= f) (start + k)).1 ((y >>= g) (start' + k)).1 := by
    have values_eq := h.values_eq k
    have results := h.results k
    rcases hx : x (start + k) with ⟨r, values⟩
    rcases hy : y (start' + k) with ⟨r', values'⟩
    rw [hx, hy] at values_eq results
    obtain rfl : values = values' := values_eq
    cases results with
    | ok related =>
      have second := hf _ _ related
      rw [bind_of_ok hx, bind_of_ok hy, Nat.add_assoc, Nat.add_assoc]
      exact ⟨congrArg _ (second.values_eq _), second.results _⟩
    | error =>
      rw [bind_of_error hx, bind_of_error hy]
      exact ⟨rfl, .error⟩
  exact ⟨fun k => (both k).1, fun k => (both k).2⟩

/-- Drafts one after the other are in step if each is. -/
theorem inTurn {ι : Type} {as : List ι} {x : ι → Draft α} {y : ι → Draft β}
    (h : ∀ a ∈ as, InStep R start start' (x a) (y a)) :
    InStep (List.Forall₂ R) start start' (Draft.inTurn (as.map x)) (Draft.inTurn (as.map y)) := by
  induction as with
  | nil => exact pure .nil
  | cons a as ih =>
    refine (h a List.mem_cons_self).bind fun b b' head => ?_
    refine (ih fun a hm => h a (List.mem_cons_of_mem _ hm)).bind fun bs bs' tail => ?_
    exact pure (.cons head tail)

end Draft.InStep

/-! ## Relations between texts -/

/-- A relation between the texts of two scopes, of which one binds from `start` and the other from
`start'` on. It holds of the names of certain properties, of keywords and of placeholders that
come equally far after these indices, and every operation that puts texts together keeps it. -/
structure Congruence (scope scope' : Scope) (start start' : Nat) (named : Property → Prop)
    (R : String → String → Prop) : Prop where
  column : ∀ p, named p → LiftRel R (scope.columnText p) (scope'.columnText p)
  path : ∀ path step, (∀ p ∈ (Expression.member path step).properties, named p) →
    LiftRel R (scope.pathText (.member path step)) (scope'.pathText (.member path step))
  keyword : ∀ word ∈ ["true", "false", "null"], R word word
  placeholder : ∀ k, R (placeholder scope.settings.marker (start + k))
    (placeholder scope'.settings.marker (start' + k))
  unary : ∀ operator t t', R t t' → R (unaryText operator t) (unaryText operator t')
  left : ∀ p right t t', named p → scope.columnText p = .ok t → scope'.columnText p = .ok t' →
    LiftRel R (leftText (.property p) right t) (leftText (.property p) right t')
  pattern : ∀ t t' r r', R t t' → R r r' → R (patternTest t r) (patternTest t' r')
  plain : ∀ operator t t' r r', R t t' → R r r' →
    LiftRel R (plainComparison operator t r) (plainComparison operator t' r')
  template : ∀ (m : Method) compared ts ts', List.Forall₂ R ts ts' →
    LiftRel R (m.template compared ts) (m.template compared ts')
  conjunction : ∀ ts ts', List.Forall₂ R ts ts' →
    R ("(" ++ conjunction ts ++ ")") ("(" ++ EntityQuery.conjunction ts' ++ ")")

namespace Congruence

variable {scope scope' : Scope} {start start' : Nat} {named : Property → Prop}
  {R : String → String → Prop}

/-! ## Parts of a tree -/

/-- The texts of two operands with their properties by name. -/
theorem operand (h : Congruence scope scope' start start' named R) {compared : Bool}
    {e : Expression} (all_named : ∀ p ∈ e.properties, named p)
    (texts : Draft.InStep R start start' (draftText scope compared e)
      (draftText scope' compared e)) :
    Draft.InStep (fun t t' => R t t' ∧ ∀ p, e = .property p →
        named p ∧ scope.columnText p = .ok t ∧ scope'.columnText p = .ok t')
      start start' (draftText scope compared e) (draftText scope' compared e) := by
  cases e with
  | property p =>
    have p_named := all_named p (by simp [Expression.properties])
    simp only [draftText]
    refine .lift ((h.column p p_named).attach.mono ?_)
    rintro t t' ⟨related, column, column'⟩
    refine ⟨related, ?_⟩
    rintro _ ⟨⟩
    exact ⟨p_named, column, column'⟩
  | _ =>
    apply texts.mono
    intro t t' related
    refine ⟨related, ?_⟩
    intro p same
    cases same

/-- The left operand before the right one is related as it was. -/
theorem leftText (h : Congruence scope scope' start start' named R) {left right : Expression}
    {t t' : String} (related : R t t')
    (property : ∀ p, left = .property p →
      named p ∧ scope.columnText p = .ok t ∧ scope'.columnText p = .ok t') :
    LiftRel R (EntityQuery.leftText left right t) (EntityQuery.leftText left right t') := by
  cases left with
  | property p =>
    obtain ⟨p_named, column, column'⟩ := property p rfl
    exact h.left p right t t' p_named column column'
  | _ => exact .ok related

theorem comparison (h : Congruence scope scope' start start' named R)
    {operator : BinaryOperator} {left right : Expression} {t t' r r' : String} (lefts : R t t')
    (property : ∀ p, left = .property p →
      named p ∧ scope.columnText p = .ok t ∧ scope'.columnText p = .ok t')
    (rights : R r r') :
    LiftRel R (EntityQuery.comparison operator left right t r)
      (EntityQuery.comparison operator left right t' r') := by
  refine (h.leftText lefts property).bind fun u u' cuts => ?_
  split
  · split
    · exact .ok (h.pattern u u' r r' cuts rights)
    · exact .error
  · exact h.plain operator u u' r r' cuts rights

/-- Literals become the same in both scopes. -/
theorem draftLiteral (h : Congruence scope scope' start start' named R) (text : String)
    (kind : Kind) :
    Draft.InStep R start start' (draftLiteral scope text kind) (draftLiteral scope' text kind) := by
  cases encodes : encodeLiteral text kind with
  | error e =>
    simp only [EntityQuery.draftLiteral, encodes]
    exact .fail e
  | ok encoded =>
    simp only [EntityQuery.draftLiteral, encodes, Draft.lift_ok_bind]
    refine ⟨fun k => rfl, fun k => .ok ?_⟩
    rcases encodeLiteral_eq_ok encodes with ⟨v, rfl⟩ | ⟨word, is_word, rfl⟩
    · exact h.placeholder k
    · exact h.keyword word is_word

theorem draftPart (h : Congruence scope scope' start start' named R) (operator : BinaryOperator)
    (owner : Property) {entry : Property × Option String} (part_named : named entry.1) :
    Draft.InStep R start start' (draftPart scope operator owner entry)
      (draftPart scope' operator owner entry) := by
  obtain ⟨part, slot⟩ := entry
  simp only [EntityQuery.draftPart]
  cases slotLiteral owner part slot with
  | error e => exact .fail e
  | ok literal =>
    obtain ⟨text, kind⟩ := literal
    simp only [Draft.lift_ok_bind]
    refine (Draft.InStep.lift (h.column part part_named).attach).bind ?_
    rintro lhs lhs' ⟨related, column, column'⟩
    refine (h.draftLiteral text kind).bind fun rhs rhs' rights => ?_
    refine .lift (h.comparison related ?_ rights)
    rintro _ ⟨⟩
    exact ⟨part_named, column, column'⟩

theorem draftComposite (h : Congruence scope scope' start start' named R)
    (separator_eq : scope.settings.separator = scope'.settings.separator)
    (operator : BinaryOperator) {p : Property} (parts_named : ∀ part ∈ p.parts, named part)
    (right : Expression) :
    Draft.InStep R start start' (draftComposite scope operator p right)
      (draftComposite scope' operator p right) := by
  cases right with
  | literal text kind =>
    simp only [EntityQuery.draftComposite, separator_eq]
    refine (Draft.InStep.inTurn fun entry hm => ?_).bind fun ts ts' related =>
      .pure (h.conjunction ts ts' related)
    exact h.draftPart operator p (parts_named _ (List.of_mem_zip hm).1)
  | _ => exact .fail _

end Congruence

/-! ## Trees -/

section Trees

variable {scope scope' : Scope} {start start' : Nat} {named : Property → Prop}
  {R : String → String → Prop}

mutual

/-- A congruence holds of the drafts of every tree: they bind the same values and have the same
failure, or else related texts. -/
theorem draftText_inStep (h : Congruence scope scope' start start' named R)
    (separator_eq : scope.settings.separator = scope'.settings.separator) (compared : Bool)
    (e : Expression) (all_named : ∀ p ∈ e.properties, named p) :
    Draft.InStep R start start' (draftText scope compared e) (draftText scope' compared e) := by
  cases e with
  | filter inner =>
    simp only [draftText]
    exact draftText_inStep h separator_eq false inner all_named
  | unary operator operand =>
    simp only [draftText]
    refine (draftText_inStep h separator_eq false operand all_named).bind fun t t' related => ?_
    exact .pure (h.unary operator t t' related)
  | binary operator left right =>
    have left_named := fun p hm => all_named p (List.mem_append_left _ hm)
    have right_named := fun p hm => all_named p (List.mem_append_right _ hm)
    cases left_eq : compositeProperty? left with
    | some p =>
      simp only [draftText, left_eq]
      have parts_named : ∀ part ∈ p.parts, named part := fun part hm =>
        left_named part (mem_properties_of_composite left_eq hm)
      exact h.draftComposite separator_eq operator parts_named right
    | none =>
      simp only [draftText, left_eq]
      have lefts := draftText_inStep h separator_eq operator.isEquality left left_named
      refine (h.operand left_named lefts).bind fun t t' ⟨related, property⟩ => ?_
      refine (draftText_inStep h separator_eq false right right_named).bind fun r r' rights => ?_
      exact .lift (h.comparison related property rights)
  | property p =>
    simp only [draftText]
    exact .lift (h.column p (all_named p (by simp [Expression.properties])))
  | member path step =>
    simp only [draftText]
    exact .lift (h.path path step all_named)
  | literal text kind =>
    simp only [draftText]
    exact h.draftLiteral text kind
  | method m args =>
    simp only [draftText]
    cases m.check args.length with
    | error e => exact .fail e
    | ok _ =>
      refine (draftTexts_inStep h separator_eq args all_named).bind fun ts ts' related => ?_
      exact .lift (h.template m compared ts ts' related)

/-- And so it does of the drafts of arguments. -/
theorem draftTexts_inStep (h : Congruence scope scope' start start' named R)
    (separator_eq : scope.settings.separator = scope'.settings.separator)
    (es : List Expression) (all_named : ∀ p ∈ argumentProperties es, named p) :
    Draft.InStep (List.Forall₂ R) start start' (draftTexts scope es) (draftTexts scope' es) := by
  cases es with
  | nil =>
    simp only [draftTexts]
    exact .pure .nil
  | cons e es =>
    simp only [draftTexts]
    refine (draftText_inStep h separator_eq false e fun p hm =>
      all_named p (List.mem_append_left _ hm)).bind fun t t' head => ?_
    refine (draftTexts_inStep h separator_eq es fun p hm =>
      all_named p (List.mem_append_right _ hm)).bind fun ts ts' tail => ?_
    exact .pure (.cons head tail)

end

end Trees

end EntityQuery
