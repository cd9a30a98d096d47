import EntityQuery.Proofs.Derivation
import Mathlib.Data.List.Forall2

/-!
# Independence of literals

What a literal says never reaches the text of a filter. Two trees that differ only in the texts of
their literals have the same text and bind equally many values, wherever both compile: a literal is
either a placeholder, which shows an index, or a keyword, which the kind decides. Only booleans must
agree, and in composite texts also which slots are empty.

## Main definitions

* `SlotAlike`, `Alike`: slots and trees that differ only in the texts of literals

## Main results

* `Yields.congr_of_alike`: derivations of such trees agree in text and number of values
* `filterText_independent_of_literals`: and so do filters
-/

namespace EntityQuery

/-! ## Trees that differ in literals -/

/-- A part with two slots: both are empty or none is, and booleans agree. -/
structure SlotAlike (a b : Property × Option String) : Prop where
  part_eq : a.1 = b.1
  isNone_eq : a.2.isNone = b.2.isNone
  boolean : a.1.kind? = some .boolean → a.2 = b.2

/-- Trees that differ only in the texts of literals. Boolean literals do not differ, and literals
that are compared with a composite property split into slots that are alike. -/
inductive Alike (separator : String) : Expression → Expression → Prop
  | filter {e e' : Expression} (inner : Alike separator e e') :
      Alike separator (.filter e) (.filter e')
  | unary {operator : UnaryOperator} {e e' : Expression} (inner : Alike separator e e') :
      Alike separator (.unary operator e) (.unary operator e')
  | binary {operator : BinaryOperator} {left left' right right' : Expression}
      (lefts : Alike separator left left') (rights : Alike separator right right')
      (slots_alike : ∀ p text text' kind, compositeProperty? left = some p →
        right = .literal text kind → right' = .literal text' kind →
        List.Forall₂ SlotAlike
          (p.parts.zip (slots separator (compositeValue text) p.parts.length))
          (p.parts.zip (slots separator (compositeValue text') p.parts.length))) :
      Alike separator (.binary operator left right) (.binary operator left' right')
  | property {p : Property} : Alike separator (.property p) (.property p)
  | member {path path' step step' : Expression} (paths : Alike separator path path')
      (steps : Alike separator step step') :
      Alike separator (.member path step) (.member path' step')
  | literal {text text' : String} {kind : Kind} (boolean : kind = .boolean → text = text') :
      Alike separator (.literal text kind) (.literal text' kind)
  | method {m : Method} {args args' : List Expression}
      (arguments : List.Forall₂ (Alike separator) args args') :
      Alike separator (.method m args) (.method m args')

namespace Alike

variable {separator : String} {e e' : Expression}

theorem compositeProperty?_eq (h : Alike separator e e') :
    compositeProperty? e = compositeProperty? e' := by
  cases h <;> rfl

theorem method?_eq (h : Alike separator e e') : e.method? = e'.method? := by
  cases h <;> rfl

theorem isNullLiteral_eq (h : Alike separator e e') : e.isNullLiteral = e'.isNullLiteral := by
  cases h <;> rfl

theorem isBooleanLiteral_eq (h : Alike separator e e') :
    e.isBooleanLiteral = e'.isBooleanLiteral := by
  cases h <;> rfl

/-- A path has no literals, so only the same path is like it. -/
theorem eq_of_stepNames (h : Alike separator e e') {names : List String}
    (steps : stepNames e = .ok names) : e = e' := by
  refine stepNames_induct (motive := fun e _ => ∀ e', Alike separator e e' → e = e') ?first
    ?further steps e' h
  case first =>
    intro p name _ e' h
    cases h
    rfl
  case further =>
    intro path names p name _ _ ih e' h
    obtain _ | _ | _ | _ | ⟨paths, steps⟩ := h
    cases steps
    rw [ih _ paths]

end Alike

/-- Operands are compared by their texts; of their trees only the shape counts. -/
theorem comparison_eq_of_alike {separator : String} {left left' right right' : Expression}
    (lefts : Alike separator left left') (rights : Alike separator right right')
    (operator : BinaryOperator) (lhs rhs : String) :
    comparison operator left right lhs rhs = comparison operator left' right' lhs rhs := by
  have leftText_eq : leftText left right lhs = leftText left' right' lhs := by
    cases lefts with
    | property => simp only [leftText, rights.isNullLiteral_eq]
    | _ => rfl
  simp only [comparison, leftText_eq, patternMethod?, lefts.method?_eq, rights.isBooleanLiteral_eq]

/-! ## Derivations of such trees -/

variable {scope : Scope}

/-- Literals of one kind show the same at an index and bind equally many values. -/
theorem LiteralYields.congr {start : Nat} {text text' rhs rhs' : String} {kind : Kind}
    {values values' : List Value} (boolean : kind = .boolean → text = text')
    (h : LiteralYields scope start text kind rhs values)
    (h' : LiteralYields scope start text' kind rhs' values') :
    rhs = rhs' ∧ values.length = values'.length := by
  by_cases hb : kind = .boolean
  · obtain rfl := boolean hb
    obtain ⟨parsed, encodes⟩ := h
    obtain ⟨parsed', encodes'⟩ := h'
    obtain rfl := Except.ok.inj (parsed.symm.trans parsed')
    obtain rfl := Except.ok.inj (encodes.symm.trans encodes')
    exact ⟨rfl, rfl⟩
  · rcases h.shown with ⟨hb', -⟩ | ⟨hn, rfl, rfl⟩ | ⟨hk, rfl, v, rfl⟩
    · exact absurd hb' hb
    · rcases h'.shown with ⟨hb', -⟩ | ⟨-, rfl, rfl⟩ | ⟨hk, -⟩
      · exact absurd hb' hb
      · exact ⟨rfl, rfl⟩
      · exact absurd (Kind.family_eq_other.2 (.inr hn)) hk
    · rcases h'.shown with ⟨hb', -⟩ | ⟨hn, -⟩ | ⟨-, rfl, v', rfl⟩
      · exact absurd hb' hb
      · exact absurd (Kind.family_eq_other.2 (.inr hn)) hk
      · exact ⟨rfl, rfl⟩

/-- Slots that are alike have literals of one kind. -/
theorem slotLiteral_congr {owner : Property} {a b : Property × Option String}
    {text text' : String} {kind kind' : Kind} (alike : SlotAlike a b)
    (h : slotLiteral owner a.1 a.2 = .ok (text, kind))
    (h' : slotLiteral owner b.1 b.2 = .ok (text', kind')) :
    kind = kind' ∧ (kind = .boolean → text = text') := by
  obtain ⟨part, slot⟩ := a
  obtain ⟨_, slot'⟩ := b
  obtain ⟨rfl, isNone_eq, boolean⟩ := alike
  cases slot with
  | none =>
    obtain rfl : slot' = none := Option.isNone_iff_eq_none.1 isNone_eq.symm
    cases h.symm.trans h'
    exact ⟨rfl, fun _ => rfl⟩
  | some token =>
    obtain ⟨token', rfl⟩ : ∃ token', slot' = some token' :=
      Option.isSome_iff_exists.1 (by simpa using isNone_eq)
    cases hk : part.kind? with
    | none => simp [slotLiteral, hk] at h
    | some k =>
      simp only [slotLiteral, hk, Except.ok.injEq, Prod.mk.injEq] at h h'
      obtain ⟨rfl, rfl⟩ := h
      obtain ⟨rfl, rfl⟩ := h'
      refine ⟨rfl, ?_⟩
      intro hb
      have slot_eq := boolean (by rw [hk, hb])
      obtain rfl := Option.some.inj slot_eq
      rfl

theorem PartYields.congr {operator : BinaryOperator} {owner : Property} {start : Nat}
    {a b : Property × Option String} {text text' : String} {values values' : List Value}
    (alike : SlotAlike a b) (h : PartYields scope operator owner start a text values)
    (h' : PartYields scope operator owner start b text' values') :
    text = text' ∧ values.length = values'.length := by
  obtain ⟨literal, column, right, compared⟩ := h
  obtain ⟨literal', column', right', compared'⟩ := h'
  obtain ⟨rfl, boolean⟩ := slotLiteral_congr alike literal literal'
  obtain rfl := alike.part_eq
  obtain ⟨rfl, length_eq⟩ := LiteralYields.congr boolean right right'
  obtain rfl := Except.ok.inj (column.symm.trans column')
  refine ⟨Except.ok.inj (compared.symm.trans (Eq.trans ?_ compared')), length_eq⟩
  have literals : Alike scope.settings.separator (.literal _ _) (.literal _ _) := .literal boolean
  exact comparison_eq_of_alike .property literals operator _ _

/-- Judgements in turn agree where those on the elements do. -/
theorem InTurn.congr {α β : Type} {P R : Nat → α → β → List Value → Prop} {S : α → α → Prop}
    (each : ∀ {start a b values}, P start a b values → ∀ {a' b' values'}, S a a' →
      R start a' b' values' → b = b' ∧ values.length = values'.length)
    {start : Nat} {as as' : List α} {bs bs' : List β} {values values' : List Value}
    (h : InTurn P start as bs values) (alike : List.Forall₂ S as as')
    (h' : InTurn R start as' bs' values') : bs = bs' ∧ values.length = values'.length := by
  induction h generalizing as' bs' values' with
  | nil =>
    cases alike
    cases h'
    exact ⟨rfl, rfl⟩
  | cons head _ ih =>
    obtain _ | ⟨alike, alikes⟩ := alike
    obtain _ | ⟨head', tail'⟩ := h'
    obtain ⟨rfl, length_eq⟩ := each head alike head'
    rw [← length_eq] at tail'
    obtain ⟨rfl, lengths_eq⟩ := ih alikes tail'
    exact ⟨rfl, by rw [List.length_append, List.length_append, length_eq, lengths_eq]⟩

/-- Trees that differ only in literals have the same text and bind equally many values. -/
theorem Yields.congr_of_alike {compared : Bool} {start : Nat} {e e' : Expression}
    {text text' : String} {values values' : List Value}
    (h : Yields scope compared start e text values)
    (alike : Alike scope.settings.separator e e')
    (h' : Yields scope compared start e' text' values') :
    text = text' ∧ values.length = values'.length := by
  induction h using Yields.induct generalizing e' text' values' with
  | filter _ ih =>
    obtain ⟨alike⟩ := alike
    obtain ⟨inner'⟩ := h'
    exact ih alike inner'
  | unary _ ih =>
    obtain _ | ⟨alike⟩ := alike
    obtain _ | ⟨inner'⟩ := h'
    obtain ⟨rfl, length_eq⟩ := ih alike inner'
    exact ⟨rfl, length_eq⟩
  | composite left_eq conjuncts =>
    obtain _ | _ | ⟨lefts, rights, slots_alike⟩ := alike
    cases rights with | literal _ =>
    have left_eq' := lefts.compositeProperty?_eq ▸ left_eq
    cases h' with
    | composite left_eq'' conjuncts' =>
      obtain rfl := Option.some.inj (left_eq'.symm.trans left_eq'')
      obtain ⟨rfl, length_eq⟩ := conjuncts.congr (fun h _ _ _ alike h' => h.congr alike h')
        (slots_alike _ _ _ _ left_eq rfl rfl) conjuncts'
      exact ⟨rfl, length_eq⟩
    | binary simple' => exact absurd (left_eq'.symm.trans simple') (by simp)
  | binary simple _ _ joined ihl ihr =>
    obtain _ | _ | ⟨lefts, rights, -⟩ := alike
    have simple_eq := lefts.compositeProperty?_eq ▸ simple
    cases h' with
    | composite left_eq' => exact absurd (simple_eq.symm.trans left_eq') (by simp)
    | binary _ lefts' rights' joined' =>
      rw [comparesSubstring, ← lefts.method?_eq] at lefts'
      obtain ⟨rfl, length_eq⟩ := ihl lefts lefts'
      -- As many values are bound on the left, the right operands start at the same index.
      rw [← length_eq] at rights'
      obtain ⟨rfl, lengths_eq⟩ := ihr rights rights'
      rw [← comparison_eq_of_alike lefts rights] at joined'
      exact ⟨Except.ok.inj (joined.symm.trans joined'), by simp [length_eq, lengths_eq]⟩
  | property column =>
    cases alike
    obtain _ | _ | _ | _ | column' := h'
    exact ⟨Except.ok.inj (column.symm.trans column'), rfl⟩
  | member named =>
    obtain ⟨_, _, -, steps, -⟩ := Scope.pathText_eq_ok.1 named
    obtain rfl := alike.eq_of_stepNames steps
    cases h' with | member named' =>
    exact ⟨Except.ok.inj (named.symm.trans named'), rfl⟩
  | literal placed =>
    cases alike with | literal boolean =>
    cases h' with | literal placed' =>
    exact placed.congr boolean placed'
  | method _ _ filled ihs =>
    cases alike with | method arguments =>
    cases h' with | method _ arguments' filled' =>
    have agree := InTurn.congr (fun each _ _ _ alike h' => by
      obtain ⟨_, ih⟩ := each
      exact ih alike h') ihs arguments arguments'
    obtain ⟨rfl, length_eq⟩ := agree
    exact ⟨Except.ok.inj (filled.symm.trans filled'), length_eq⟩

/-! ## Filters -/

/-- **Literals never reach the text of a filter.** Two filters that differ only in literals,
compiled from the same index on, have the same text and bind equally many values. -/
theorem filterText_independent_of_literals {e e' : Expression}
    {ledger ledger' after after' : Ledger} {text text' : String}
    (alike : Alike scope.settings.separator e e') (index_eq : ledger.nextIndex = ledger'.nextIndex)
    (unmarked : ledger.substringCompared = false) (unmarked' : ledger'.substringCompared = false)
    (run : (filterText scope e).over ledger = (.ok text, after))
    (run' : (filterText scope e').over ledger' = (.ok text', after')) :
    text = text' ∧ ∃ values values' : List Value, after = ledger.bindAll values ∧
      after' = ledger'.bindAll values' ∧ values.length = values'.length := by
  obtain ⟨values, yields, rfl⟩ := yields_of_filterText unmarked run
  obtain ⟨values', yields', rfl⟩ := yields_of_filterText unmarked' run'
  rw [← index_eq] at yields'
  obtain ⟨rfl, length_eq⟩ := yields.congr_of_alike alike yields'
  exact ⟨rfl, values, values', rfl, rfl, length_eq⟩

/-- Lines of an order by its name and by a key of two columns. -/
def lineFilter (name key : String) : Expression :=
  .binary .and
    (.binary .eq (.property ⟨"Name", .simple .string, none, []⟩) (.literal name .string))
    (.binary .eq
      (.property ⟨"Key", .complex "Key", none,
        [⟨"Line", .simple .int32, none, []⟩, ⟨"Region", .simple .string, none, []⟩]⟩)
      (.literal key .string))

theorem alike_lineFilter :
    Alike ";" (lineFilter "'Bob'" "'7;null'") (lineFilter "'x) OR (1=1'" "'8'") := by
  refine .binary (.binary .property (.literal (by simp)) ?simple)
    (.binary .property (.literal (by simp)) ?composite) ?conjunction
  case simple => simp [compositeProperty?, Property.isComposite]
  case conjunction => simp [compositeProperty?]
  case composite =>
    rintro p text text' kind ⟨⟩ ⟨⟩ ⟨⟩
    have slots_eq : slots ";" (compositeValue "'7;null'") 2 = [some "7", none] := by rfl
    have slots_eq' : slots ";" (compositeValue "'8'") 2 = [some "8", none] := by rfl
    show List.Forall₂ SlotAlike (List.zip _ (slots ";" (compositeValue "'7;null'") 2))
      (List.zip _ (slots ";" (compositeValue "'8'") 2))
    rw [slots_eq, slots_eq']
    exact .cons ⟨rfl, rfl, by simp [Property.kind?]⟩ (.cons ⟨rfl, rfl, fun _ => rfl⟩ .nil)

set_option maxRecDepth 4000 in
/-- A literal that tries to end the condition is bound like any other. -/
theorem filterText_independent_of_hostile_literals :
    ∃ (text text' : String) (after after' : Ledger),
      (filterText {} (lineFilter "'Bob'" "'7;null'")).over {} = (.ok text, after) ∧
        (filterText {} (lineFilter "'x) OR (1=1'" "'8'")).over {} = (.ok text', after') ∧
        text = text' ∧ ∃ values values' : List Value, after = ({} : Ledger).bindAll values ∧
          after' = ({} : Ledger).bindAll values' ∧ values.length = values'.length := by
  refine ⟨"((Name = ?1) AND ((Line = ?2) AND (Region IS null)))",
    "((Name = ?1) AND ((Line = ?2) AND (Region IS null)))",
    ({} : Ledger).bindAll [.string "Bob", .int ⟨7, by decide, by decide⟩],
    ({} : Ledger).bindAll [.string "x) OR (1=1", .int ⟨8, by decide, by decide⟩], ?run, ?run',
    filterText_independent_of_literals alike_lineFilter rfl rfl rfl ?run ?run'⟩
  case run => rfl
  case run' => rfl

end EntityQuery
