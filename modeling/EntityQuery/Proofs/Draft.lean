import EntityQuery.Proofs.Binding
import EntityQuery.Query.Filter

/-!
# Drafts of conditions

A second compiler for filters, without a ledger and without a mark. A draft is told the index that
its first value receives, and gives the values it binds beside its result. Whether a substring test
leaves out its own comparison is decided by its place: it does directly left of `eq` or `ne`, and
nowhere else in a tree.

The compiler over a ledger does what the draft says. It has the same result, a text or a failure,
and binds the same values; the mark that it puts for a substring test never reaches another call,
and none is left where it succeeds.

## Main definitions

* `Draft`: computations that bind values from an index on
* `draftText`: the draft of a tree
* `Compile.Follows`: a computation over a ledger that does what a draft says

## Main results

* `Compile.Follows.bind`: following in two steps
* `filterText_follows`: filters follow their drafts, also over a ledger with a mark that fits
* `filterText_eq_draftText`: and so they do over any ledger without a mark
-/

namespace EntityQuery

/-! ## Drafts -/

/-- A computation that may fail and binds values from an index on: its result, and the values that
it has bound when it ends. -/
def Draft (α : Type) : Type := Nat → Except QueryError α × List Value

namespace Draft

variable {α β : Type}

instance : Monad Draft where
  pure a := fun _ => (.ok a, [])
  bind x f := fun start =>
    match x start with
    | (.ok a, values) =>
      ((f a (start + values.length)).1, values ++ (f a (start + values.length)).2)
    | (.error e, values) => (.error e, values)

instance : MonadLift (Except QueryError) Draft where
  monadLift result := fun _ => (result, [])

@[simp] theorem pure_apply (a : α) (start : Nat) : (pure a : Draft α) start = (.ok a, []) := rfl

@[simp] theorem lift_apply (result : Except QueryError α) (start : Nat) :
    (liftM result : Draft α) start = (result, []) := rfl

/-- The second step binds after what the first one has bound. -/
theorem bind_of_ok {x : Draft α} {f : α → Draft β} {start : Nat} {a : α} {values : List Value}
    (h : x start = (.ok a, values)) :
    (x >>= f) start =
      ((f a (start + values.length)).1, values ++ (f a (start + values.length)).2) := by
  simp only [bind, h]

theorem bind_of_error {x : Draft α} {f : α → Draft β} {start : Nat} {e : QueryError}
    {values : List Value} (h : x start = (.error e, values)) :
    (x >>= f) start = (.error e, values) := by
  simp only [bind, h]

theorem lift_ok_bind (a : α) (f : α → Draft β) :
    (liftM (.ok a : Except QueryError α) >>= f : Draft β) = f a := rfl

/-- A draft in two steps succeeds where both steps do. -/
theorem bind_eq_ok {x : Draft α} {f : α → Draft β} {start : Nat} {b : β} {all : List Value} :
    (x >>= f) start = (.ok b, all) ↔
      ∃ a values more, x start = (.ok a, values) ∧ f a (start + values.length) = (.ok b, more) ∧
        values ++ more = all := by
  rcases h : x start with ⟨_ | a, values⟩
  · simp [bind_of_error h]
  · rw [bind_of_ok h]
    constructor
    · intro second
      obtain ⟨result_eq, rfl⟩ := Prod.mk.inj second
      exact ⟨a, values, _, rfl, Prod.ext result_eq rfl, rfl⟩
    · rintro ⟨_, _, more, first, second, rfl⟩
      obtain ⟨ok, rfl⟩ := Prod.mk.inj first
      obtain rfl := Except.ok.inj ok
      rw [second]

theorem lift_bind_eq_ok {result : Except QueryError α} {f : α → Draft β} {start : Nat} {b : β}
    {all : List Value} :
    (liftM result >>= f : Draft β) start = (.ok b, all) ↔
      ∃ a, result = .ok a ∧ f a start = (.ok b, all) := by
  cases result with
  | error e => simp [bind_of_error (lift_apply (Except.error e : Except QueryError α) start)]
  | ok a => simp [lift_ok_bind]

/-- Drafts one after the other. -/
def inTurn : List (Draft α) → Draft (List α)
  | [] => return []
  | draft :: drafts => do
    let a ← draft
    let as ← inTurn drafts
    return a :: as

/-- A failure. -/
def fail (e : QueryError) : Draft α := fun _ => (.error e, [])

/-- The text of an encoded text, whose value is bound if it has one. -/
def place (marker : String) (encoded : Encoded) : Draft String :=
  fun start => (.ok (encoded.written marker start), encoded.values)

end Draft

/-! ## Drafts of trees -/

/-- What a literal becomes under the kind declared for it. -/
def encodeLiteral (text : String) (kind : Kind) : Except QueryError Encoded :=
  match Literal.parse text with
  | .ok literal => encode literal.text kind none
  | .error e => .error (.literal text kind e)

/-- A literal becomes a value or one of three keywords. -/
theorem encodeLiteral_eq_ok {text : String} {kind : Kind} {encoded : Encoded}
    (h : encodeLiteral text kind = .ok encoded) :
    (∃ v, encoded = .value v) ∨ ∃ word ∈ ["true", "false", "null"], encoded = .keyword word := by
  rw [encodeLiteral] at h
  split at h
  · exact encode_cases h
  · cases h

/-- The draft of a literal. -/
def draftLiteral (scope : Scope) (text : String) (kind : Kind) : Draft String := do
  let encoded ← encodeLiteral text kind
  Draft.place scope.settings.marker encoded

/-- The draft of the comparison of a part with its slot. -/
def draftPart (scope : Scope) (operator : BinaryOperator) (owner : Property)
    (entry : Property × Option String) : Draft String := do
  let (part, slot) := entry
  let (text, kind) ← slotLiteral owner part slot
  let lhs ← scope.columnText part
  let rhs ← draftLiteral scope text kind
  comparison operator (.property part) (.literal text kind) lhs rhs

/-- The draft of the comparison of a composite property. -/
def draftComposite (scope : Scope) (operator : BinaryOperator) (p : Property) :
    Expression → Draft String
  | .literal text _ => do
    let slots := slots scope.settings.separator (compositeValue text) p.parts.length
    let conjuncts ← Draft.inTurn ((p.parts.zip slots).map (draftPart scope operator p))
    return "(" ++ conjunction conjuncts ++ ")"
  | _ => .fail (.mapping (.noLiteral p.name))

mutual

/-- The draft of a tree. Whether it stands directly left of `eq` or `ne` matters for a substring
test only, which then leaves out its own comparison. -/
def draftText (scope : Scope) (compared : Bool) : Expression → Draft String
  | .filter e => draftText scope false e
  | .unary operator operand => do
    let text ← draftText scope false operand
    return unaryText operator text
  | .binary operator left right =>
    match compositeProperty? left with
    | some p => draftComposite scope operator p right
    | none => do
      let lhs ← draftText scope operator.isEquality left
      let rhs ← draftText scope false right
      comparison operator left right lhs rhs
  | .property p => scope.columnText p
  | .member path step => scope.pathText (.member path step)
  | .literal text kind => draftLiteral scope text kind
  | .method m args => do
    m.check args.length
    let texts ← draftTexts scope args
    m.template compared texts

/-- The drafts of the arguments of a call, none of which is compared. -/
def draftTexts (scope : Scope) : List Expression → Draft (List String)
  | [] => return []
  | e :: es => do
    let text ← draftText scope false e
    let texts ← draftTexts scope es
    return text :: texts

end

/-- The arguments of a call are drafted one after the other. -/
theorem draftTexts_eq_inTurn (scope : Scope) (es : List Expression) :
    draftTexts scope es = Draft.inTurn (es.map (draftText scope false)) := by
  induction es with
  | nil => rfl
  | cons e es ih => rw [draftTexts, ih, List.map_cons, Draft.inTurn]

/-- Only substring tests can leave out a comparison. -/
theorem Method.template_of_ne {m : Method} (h : m ≠ substringOf) (compared compared' : Bool)
    (texts : List String) : m.template compared texts = m.template compared' texts := by
  unfold template
  split <;> first | rfl | exact absurd rfl h

theorem draftText_of_ne {e : Expression} (h : e.method? ≠ some .substringOf) (scope : Scope)
    (compared compared' : Bool) : draftText scope compared e = draftText scope compared' e := by
  cases e with
  | method m args =>
    have hm : m ≠ .substringOf := fun hm => h (congrArg some hm)
    simp only [draftText, Method.template_of_ne hm compared compared']
  | _ => simp only [draftText]

/-- An operator that compares no substring test might as well compare its left operand. -/
theorem draftText_comparesSubstring (scope : Scope) (operator : BinaryOperator)
    (left : Expression) :
    draftText scope (comparesSubstring operator left) left =
      draftText scope operator.isEquality left := by
  by_cases h : left.method? = some .substringOf
  · simp [comparesSubstring, h]
  · exact draftText_of_ne h scope _ _

/-! ## Marks -/

/-- If a ledger has the mark, then it waits for the tree that is compiled next. -/
def Ledger.MarkFits (ledger : Ledger) (e : Expression) : Prop :=
  ledger.substringCompared = true → e.method? = some .substringOf

theorem Ledger.clearSubstring_of_unmarked {ledger : Ledger}
    (h : ledger.substringCompared = false) : ledger.clearSubstring = ledger := by
  cases ledger
  simp_all [clearSubstring]

/-- A ledger without the mark fits every tree. -/
theorem Ledger.markFits_of_unmarked {ledger : Ledger} (h : ledger.substringCompared = false)
    (e : Expression) : ledger.MarkFits e := fun marked => absurd (h.symm.trans marked) (by simp)

/-- An operator puts the mark on a ledger for its left operand, and changes nothing else. -/
theorem over_markCompared (operator : BinaryOperator) (left : Expression) {ledger : Ledger}
    (h : ledger.substringCompared = false) :
    ∃ marked, (markCompared operator left).over ledger = (.ok (), marked) ∧
      marked.MarkFits left ∧ marked.substringCompared = comparesSubstring operator left ∧
      marked.nextIndex = ledger.nextIndex ∧ marked.clearSubstring = ledger := by
  cases hc : comparesSubstring operator left with
  | false =>
    refine ⟨ledger, by simp [markCompared, hc], Ledger.markFits_of_unmarked h left, h, rfl, ?_⟩
    exact Ledger.clearSubstring_of_unmarked h
  | true =>
    refine ⟨ledger.markSubstring, by simp [markCompared, hc], fun _ => ?_, rfl, rfl, ?_⟩
    · simp only [comparesSubstring, Bool.and_eq_true, beq_iff_eq] at hc
      exact hc.2
    · exact Ledger.clearSubstring_of_unmarked h

/-- A call takes the mark away, and knows whether it was there. -/
theorem over_takeMark (m : Method) (args : List Expression) {ledger : Ledger}
    (h : ledger.MarkFits (.method m args)) :
    (takeMark m).over ledger = (.ok ledger.substringCompared, ledger.clearSubstring) := by
  by_cases hm : m = .substringOf
  · simp [takeMark, hm, Compile.over_bind, Except.map]
  · have unmarked : ledger.substringCompared = false :=
      Bool.eq_false_iff.2 fun marked => hm (Option.some.inj (h marked))
    simp [takeMark, hm, unmarked, Ledger.clearSubstring_of_unmarked unmarked]

/-! ## Following a draft -/

namespace Compile

variable {α β : Type}

/-- A computation over a ledger does what a draft says: it has the same result, binds the same
values, and leaves no mark where it succeeds. -/
structure Follows (x : Compile α) (draft : Draft α) (ledger : Ledger) : Prop where
  result_eq : (x.over ledger).1 = (draft ledger.nextIndex).1
  ledger_eq : (x.over ledger).2.clearSubstring =
    ledger.clearSubstring.bindAll (draft ledger.nextIndex).2
  unmarked : ∀ {a}, (x.over ledger).1 = .ok a → (x.over ledger).2.substringCompared = false

namespace Follows

variable {ledger : Ledger}

/-- A computation that succeeds leaves the ledger with the values of its draft. -/
theorem over_eq_of_ok {x : Compile α} {draft : Draft α} (h : x.Follows draft ledger) {a : α}
    {values : List Value} (draft_eq : draft ledger.nextIndex = (.ok a, values)) :
    x.over ledger = (.ok a, ledger.clearSubstring.bindAll values) := by
  have result_eq := h.result_eq
  have ledger_eq := h.ledger_eq
  rw [draft_eq] at result_eq ledger_eq
  rw [Ledger.clearSubstring_of_unmarked (h.unmarked result_eq)] at ledger_eq
  exact Prod.ext result_eq ledger_eq

/-- The draft of a computation that succeeds does so too. -/
theorem draft_of_ok {x : Compile α} {draft : Draft α} (h : x.Follows draft ledger) {a : α}
    {after : Ledger} (over_eq : x.over ledger = (.ok a, after)) :
    ∃ values, draft ledger.nextIndex = (.ok a, values) ∧
      after = ledger.clearSubstring.bindAll values := by
  have result_eq := h.result_eq
  rw [over_eq] at result_eq
  have draft_eq : draft ledger.nextIndex = (.ok a, (draft ledger.nextIndex).2) :=
    Prod.ext result_eq.symm rfl
  exact ⟨_, draft_eq, (Prod.mk.inj (over_eq.symm.trans (h.over_eq_of_ok draft_eq))).2⟩

/-- Whatever does the same to a ledger follows the same draft. -/
theorem of_over_eq {x y : Compile α} {draft : Draft α} {other : Ledger}
    (h : y.Follows draft other) (over_eq : x.over ledger = y.over other)
    (index_eq : other.nextIndex = ledger.nextIndex)
    (clear_eq : other.clearSubstring = ledger.clearSubstring) : x.Follows draft ledger where
  result_eq := by rw [over_eq, h.result_eq, index_eq]
  ledger_eq := by rw [over_eq, h.ledger_eq, index_eq, clear_eq]
  unmarked := by
    rw [over_eq]
    exact h.unmarked

theorem lift (unmarked : ledger.substringCompared = false) (result : Except QueryError α) :
    (liftM result : Compile α).Follows (liftM result) ledger where
  result_eq := rfl
  ledger_eq := rfl
  unmarked := fun _ => unmarked

theorem pure (unmarked : ledger.substringCompared = false) (a : α) :
    (Pure.pure a : Compile α).Follows (Pure.pure a) ledger :=
  lift unmarked (.ok a)

theorem throw (unmarked : ledger.substringCompared = false) (e : QueryError) :
    (MonadExcept.throw e : Compile α).Follows (Draft.fail e) ledger :=
  lift unmarked (.error e)

/-- Following in two steps: a first step that succeeds leaves no mark to the second one. -/
theorem bind {x : Compile α} {f : α → Compile β} {draft : Draft α} {next : α → Draft β}
    (hx : x.Follows draft ledger)
    (hf : ∀ a (later : Ledger), later.substringCompared = false → (f a).Follows (next a) later) :
    (x >>= f).Follows (draft >>= next) ledger := by
  rcases draft_eq : draft ledger.nextIndex with ⟨_ | a, values⟩
  case error e =>
    have result_eq := hx.result_eq
    have ledger_eq := hx.ledger_eq
    rw [draft_eq] at result_eq ledger_eq
    have over_eq : (x >>= f).over ledger = (.error e, (x.over ledger).2) := by
      rw [over_bind, ← Prod.eta (x.over ledger), result_eq]
    constructor
    · rw [over_eq, Draft.bind_of_error draft_eq]
    · rw [over_eq, Draft.bind_of_error draft_eq]
      exact ledger_eq
    · rw [over_eq]
      exact nofun
  case ok =>
    have first_eq := hx.over_eq_of_ok draft_eq
    have later_unmarked : (ledger.clearSubstring.bindAll values).substringCompared = false := by
      rw [Ledger.substringCompared_bindAll]
      rfl
    have second := hf a _ later_unmarked
    have index_eq : (ledger.clearSubstring.bindAll values).nextIndex =
        ledger.nextIndex + values.length := Ledger.nextIndex_bindAll _ _
    have over_eq : (x >>= f).over ledger =
        (f a).over (ledger.clearSubstring.bindAll values) := by
      rw [over_bind, first_eq]
    constructor
    · rw [over_eq, Draft.bind_of_ok draft_eq, second.result_eq, index_eq]
    · rw [over_eq, Draft.bind_of_ok draft_eq, second.ledger_eq, index_eq,
        Ledger.clearSubstring_of_unmarked later_unmarked, Ledger.bindAll_append]
    · rw [over_eq]
      exact second.unmarked

end Follows

end Compile

open Compile (Follows)

variable {scope : Scope} {ledger : Ledger}

/-! ## Literals and parts -/

theorem literalText_eq (scope : Scope) (text : String) (kind : Kind) :
    literalText scope text kind =
      liftM (encodeLiteral text kind) >>= Encoded.place scope.settings.marker := by
  unfold literalText encodeLiteral
  cases Literal.parse text <;> rfl

theorem place_follows (unmarked : ledger.substringCompared = false) (marker : String)
    (encoded : Encoded) : (encoded.place marker).Follows (Draft.place marker encoded) ledger := by
  have later_unmarked : (ledger.bindAll encoded.values).substringCompared = false := by
    rw [Ledger.substringCompared_bindAll, unmarked]
  constructor
  · rw [encoded.over_place, Draft.place]
  · rw [encoded.over_place, Draft.place, Ledger.clearSubstring_of_unmarked unmarked]
    exact Ledger.clearSubstring_of_unmarked later_unmarked
  · rw [encoded.over_place]
    exact fun _ => later_unmarked

theorem literalText_follows (unmarked : ledger.substringCompared = false) (text : String)
    (kind : Kind) :
    (literalText scope text kind).Follows (draftLiteral scope text kind) ledger := by
  rw [literalText_eq]
  exact (Follows.lift unmarked _).bind fun encoded next unmarked => place_follows unmarked _ encoded

theorem partText_follows (unmarked : ledger.substringCompared = false) (operator : BinaryOperator)
    (owner part : Property) (slot : Option String) :
    (partText scope operator owner part slot).Follows (draftPart scope operator owner (part, slot))
      ledger := by
  refine (Follows.lift unmarked _).bind fun (text, kind) next unmarked => ?_
  refine (Follows.lift unmarked _).bind fun lhs next unmarked => ?_
  refine (literalText_follows unmarked text kind).bind fun rhs next unmarked => ?_
  exact .lift unmarked _

theorem partTexts_follows (unmarked : ledger.substringCompared = false) (operator : BinaryOperator)
    (owner : Property) (parts : List Property) (slots : List (Option String)) :
    (partTexts scope operator owner parts slots).Follows
      (Draft.inTurn ((parts.zip slots).map (draftPart scope operator owner))) ledger := by
  induction parts generalizing slots ledger with
  | nil => exact .pure unmarked _
  | cons part parts ih =>
    cases slots with
    | nil => exact .pure unmarked _
    | cons slot slots =>
      refine (partText_follows unmarked operator owner part slot).bind fun text next unmarked => ?_
      exact (ih unmarked slots).bind fun texts next unmarked => .pure unmarked _

theorem compositeText_follows (unmarked : ledger.substringCompared = false)
    (operator : BinaryOperator) (p : Property) (right : Expression) :
    (compositeText scope operator p right).Follows (draftComposite scope operator p right)
      ledger := by
  cases right with
  | literal text kind =>
    exact (partTexts_follows unmarked operator p _ _).bind fun texts next unmarked =>
      .pure unmarked _
  | _ => exact .throw unmarked _

/-! ## Trees -/

mutual

/-- A filter follows its draft. A mark on the ledger is for the filter itself, which is then
compared. -/
theorem filterText_follows (scope : Scope) (e : Expression) {ledger : Ledger}
    (fits : ledger.MarkFits e) :
    (filterText scope e).Follows (draftText scope ledger.substringCompared e) ledger := by
  -- Only a substring test can find the mark; all other nodes are compiled without it.
  have unmarked (hm : e.method? ≠ some .substringOf) : ledger.substringCompared = false :=
    Bool.eq_false_iff.2 fun marked => hm (fits marked)
  cases e with
  | filter inner =>
    have hu := unmarked nofun
    have follows := filterText_follows scope inner (Ledger.markFits_of_unmarked hu inner)
    rw [hu] at follows
    simpa only [filterText, draftText] using follows
  | unary operator operand =>
    have hu := unmarked nofun
    have follows := filterText_follows scope operand (Ledger.markFits_of_unmarked hu operand)
    rw [hu] at follows
    simp only [filterText, draftText]
    exact follows.bind fun text next unmarked => .pure unmarked _
  | binary operator left right =>
    have hu := unmarked nofun
    cases left_eq : compositeProperty? left with
    | some p =>
      simp only [filterText, draftText, left_eq]
      exact compositeText_follows hu operator p right
    | none =>
      simp only [filterText, draftText, left_eq]
      -- The left operand finds the mark that the operator puts, and takes it away ...
      obtain ⟨marked, mark_eq, mark_fits, compared_eq, index_eq, clear_eq⟩ :=
        over_markCompared operator left hu
      have lefts := filterText_follows scope left mark_fits
      rw [compared_eq, draftText_comparesSubstring] at lefts
      have operands := lefts.bind fun lhs next unmarked => by
        -- ... so the right operand is compiled without it.
        have rights := filterText_follows scope right (Ledger.markFits_of_unmarked unmarked right)
        rw [unmarked] at rights
        exact rights.bind fun rhs next unmarked =>
          .lift unmarked (comparison operator left right lhs rhs)
      refine operands.of_over_eq ?_ index_eq ?_
      · rw [Compile.over_bind, mark_eq]
      · rw [clear_eq, Ledger.clearSubstring_of_unmarked hu]
  | property p =>
    simp only [filterText, draftText]
    exact .lift (unmarked nofun) _
  | member path step =>
    simp only [filterText, draftText]
    exact .lift (unmarked nofun) _
  | literal text kind =>
    simp only [filterText, draftText]
    exact literalText_follows (unmarked nofun) text kind
  | method m args =>
    simp only [filterText, draftText]
    cases m.check args.length with
    | error e => exact ⟨rfl, rfl, nofun⟩
    | ok _ =>
      have cleared : ledger.clearSubstring.substringCompared = false := rfl
      have arguments := (filterTexts_follows scope args cleared).bind fun texts next unmarked =>
        .lift unmarked (m.template ledger.substringCompared texts)
      rw [Draft.lift_ok_bind]
      refine arguments.of_over_eq ?_ rfl rfl
      show (takeMark m >>= fun compared => _).over ledger = _
      rw [Compile.over_bind, over_takeMark m args fits]

/-- Arguments follow their drafts. -/
theorem filterTexts_follows (scope : Scope) (es : List Expression) {ledger : Ledger}
    (unmarked : ledger.substringCompared = false) :
    (filterTexts scope es).Follows (draftTexts scope es) ledger := by
  cases es with
  | nil =>
    simp only [filterTexts, draftTexts]
    exact .pure unmarked _
  | cons e es =>
    have follows := filterText_follows scope e (Ledger.markFits_of_unmarked unmarked e)
    rw [unmarked] at follows
    simp only [filterTexts, draftTexts]
    refine follows.bind fun text next unmarked => ?_
    exact (filterTexts_follows scope es unmarked).bind fun texts next unmarked => .pure unmarked _

end

/-! ## The mark and the place -/

/-- A filter over a ledger without the mark follows its draft, in which nothing compares it. -/
theorem filterText_follows_of_unmarked (scope : Scope) (e : Expression) {ledger : Ledger}
    (unmarked : ledger.substringCompared = false) :
    (filterText scope e).Follows (draftText scope false e) ledger := by
  have follows := filterText_follows scope e (Ledger.markFits_of_unmarked unmarked e)
  rwa [unmarked] at follows

/-- **The mark for a substring test is a rule about its place.** Over a ledger without the mark a
filter has the result of its draft, the same text or the same failure, and binds the same values,
also where it fails. Where it succeeds it leaves no mark. -/
theorem filterText_eq_draftText (scope : Scope) (e : Expression) {ledger : Ledger}
    (unmarked : ledger.substringCompared = false) :
    ((filterText scope e).over ledger).1 = (draftText scope false e ledger.nextIndex).1 ∧
      ((filterText scope e).over ledger).2.clearSubstring =
        ledger.bindAll (draftText scope false e ledger.nextIndex).2 ∧
      ∀ text, ((filterText scope e).over ledger).1 = .ok text →
        ((filterText scope e).over ledger).2.substringCompared = false := by
  have follows := filterText_follows_of_unmarked scope e unmarked
  refine ⟨follows.result_eq, ?_, fun text succeeds => follows.unmarked succeeds⟩
  rw [follows.ledger_eq, Ledger.clearSubstring_of_unmarked unmarked]

/-- A substring test that is compared with another one, and has a third one in an argument. -/
def nestedFilter : Expression :=
  .binary .ne
    (.method .substringOf
      [.literal "'ob'" .string,
        .method .toLower
          [.method .substringOf
            [.literal "'x'" .string, .property ⟨"Name", .simple .string, none, []⟩]]])
    (.method .substringOf
      [.literal "'b'" .string, .property ⟨"Title", .simple .string, none, []⟩])

/-- The condition of `nestedFilter`: only the first of its tests leaves out its comparison. -/
def nestedCondition : String :=
  "(" ++ Method.containsCase "?1" ("LOWER(" ++ Method.containsCase "?2" "Name" ++ " = true)")
    ++ " <> " ++ Method.containsCase "?3" "Title" ++ " = true)"

set_option maxRecDepth 8000 in
/-- The test in an argument and the one on the right keep their comparisons. -/
theorem filterText_eq_draftText_of_nestedFilter :
    draftText {} false nestedFilter 1 =
        (.ok nestedCondition, [.string "ob", .string "x", .string "b"]) ∧
      ((filterText {} nestedFilter).over {}).1 = (draftText {} false nestedFilter 1).1 ∧
      ((filterText {} nestedFilter).over {}).2.clearSubstring =
        ({} : Ledger).bindAll (draftText {} false nestedFilter 1).2 ∧
      ∀ text, ((filterText {} nestedFilter).over {}).1 = .ok text →
        ((filterText {} nestedFilter).over {}).2.substringCompared = false := by
  refine ⟨?draft, filterText_eq_draftText {} nestedFilter rfl⟩
  rfl

end EntityQuery
