import EntityQuery.Proofs.Placeholders
import EntityQuery.Query.Session

/-!
# Signs in front of conditions

A minus takes away a minus that its operand starts with, and is written in front of it otherwise.
Two of them give the operand back, unless it starts with two minus signs. No condition does: most
nodes start with a parenthesis, a word or a name, and those that start with the text of an operand,
such as a pattern test, put a word behind it. So one sign comes through from the leftmost operand,
however deep it stands, but never a second one.

## Main definitions

* `Signless`, `SignedOnce`: texts that start with no minus sign, and with no two of them
* `Scope.SpellsSignless`: a scope whose marker and alias do not start with a minus sign

## Main results

* `unaryText_minus_minus_iff`: the texts that two signs give back
* `SignedOnce.unaryText`, `SignedOnce.template`: operators and methods write no second sign
* `signedOnce_of_filterText`: and so no condition starts with two signs
* `filterText_minus_minus`: two signs change no condition
-/

namespace EntityQuery

/-! ## Texts -/

/-- A text that does not start with a minus sign. -/
def Signless (text : String) : Prop := ¬"-".toList <+: text.toList

/-- A text that does not start with two minus signs. -/
def SignedOnce (text : String) : Prop := ¬"--".toList <+: text.toList

instance (text : String) : Decidable (Signless text) :=
  inferInstanceAs (Decidable ¬"-".toList <+: text.toList)

instance (text : String) : Decidable (SignedOnce text) :=
  inferInstanceAs (Decidable ¬"--".toList <+: text.toList)

section Texts

variable {a b text : String}

theorem Signless.signedOnce (h : Signless text) : SignedOnce text := by
  intro signs
  exact h ((List.prefix_append ['-'] ['-']).trans signs)

theorem Signless.append (ha : Signless a) (hb : Signless b) : Signless (a ++ b) := by
  unfold Signless at *
  rw [String.toList_append]
  generalize a.toList = chars at ha ⊢
  rcases chars with _ | ⟨c, rest⟩
  · exact hb
  · simpa [List.cons_prefix_cons] using ha

/-- What follows a text that is not empty does not matter. -/
theorem Signless.opens (ha : Signless a) (full : a ≠ "") (b : String) : Signless (a ++ b) := by
  unfold Signless at *
  rw [String.toList_append]
  rcases chars : a.toList with _ | ⟨c, rest⟩
  · exact absurd (String.toList_eq_nil_iff.1 chars) full
  · rw [chars] at ha
    simpa [List.cons_prefix_cons] using ha

theorem signless_parenthesized (inner : String) : Signless ("(" ++ inner) :=
  .opens (by decide) (by decide) inner

/-- A text that follows another one must not bring a sign, which would be the second one after a
text that is a single sign. -/
theorem SignedOnce.append (ha : SignedOnce a) (hb : Signless b) : SignedOnce (a ++ b) := by
  have hb' := hb.signedOnce
  unfold SignedOnce Signless at *
  rw [String.toList_append]
  generalize a.toList = chars at ha ⊢
  rcases chars with _ | ⟨c, _ | ⟨d, rest⟩⟩
  · exact hb'
  · intro signs
    exact hb (List.cons_prefix_cons.1 signs).2
  · simpa [List.cons_prefix_cons] using ha

theorem exists_of_not_signless (h : ¬Signless text) : ∃ rest, text = "-" ++ rest := by
  obtain ⟨rest, chars⟩ : "-".toList <+: text.toList := not_not.1 h
  refine ⟨String.ofList rest, String.toList_inj.1 ?_⟩
  simpa using chars.symm

/-- A text with a sign has one if there is none behind it. -/
theorem signedOnce_append_iff : SignedOnce ("-" ++ text) ↔ Signless text := by
  unfold SignedOnce Signless
  rw [String.toList_append]
  exact not_congr (List.prefix_append_right_inj ['-'])

end Texts

/-! ## Operators -/

section Operators

variable {text : String}

theorem unaryText_minus_of_sign (rest : String) : unaryText .minus ("-" ++ rest) = rest := by
  simp [unaryText]

theorem unaryText_minus_of_signless (h : Signless text) : unaryText .minus text = "-" ++ text := by
  rw [unaryText]
  split
  · rename_i rest chars
    exact absurd ⟨rest, chars.symm⟩ h
  · rw [← String.toList_inj]
    simp

/-- Two signs give back the texts that have at most one. -/
theorem unaryText_minus_minus_iff :
    unaryText .minus (unaryText .minus text) = text ↔ SignedOnce text := by
  by_cases signless : Signless text
  · rw [unaryText_minus_of_signless signless, unaryText_minus_of_sign]
    exact iff_of_true rfl signless.signedOnce
  · obtain ⟨rest, rfl⟩ := exists_of_not_signless signless
    rw [unaryText_minus_of_sign, signedOnce_append_iff]
    by_cases signless_rest : Signless rest
    · rw [unaryText_minus_of_signless signless_rest]
      exact iff_of_true rfl signless_rest
    · obtain ⟨more, rfl⟩ := exists_of_not_signless signless_rest
      rw [unaryText_minus_of_sign]
      refine iff_of_false ?_ signless_rest
      intro same
      have lengths := congrArg (fun text => text.toList.length) same
      simp at lengths
      omega

/-- A sign that is written is the only one. -/
theorem SignedOnce.unaryText (operator : UnaryOperator) (h : SignedOnce text) :
    SignedOnce (unaryText operator text) := by
  cases operator with
  | not =>
    rw [EntityQuery.unaryText, String.append_assoc]
    exact (Signless.opens (by decide) (by decide) _).signedOnce
  | minus =>
    by_cases signless : Signless text
    · rw [unaryText_minus_of_signless signless]
      exact signedOnce_append_iff.2 signless
    · obtain ⟨rest, rfl⟩ := exists_of_not_signless signless
      rw [unaryText_minus_of_sign]
      exact (signedOnce_append_iff.1 h).signedOnce

/-- Comparisons are put in parentheses. -/
theorem Signless.comparison {operator : BinaryOperator} {left right : Expression}
    {lhs rhs : String} (h : comparison operator left right lhs rhs = .ok text) :
    Signless text := by
  simp only [EntityQuery.comparison, bind_eq_ok] at h
  obtain ⟨cut, -, h⟩ := h
  split at h
  · split at h
    · obtain rfl := Except.ok.inj h
      rw [patternTest]
      split
      · rw [String.append_assoc]
        exact signless_parenthesized _
      · rw [String.append_assoc]
        exact signless_parenthesized _
    · cases h
  · obtain ⟨token, -, rfl⟩ := plainComparison_eq_ok.1 h
    simp only [String.append_assoc]
    exact signless_parenthesized _

theorem Signless.containsCase (part whole : String) :
    Signless (Method.containsCase part whole) := by
  unfold Method.containsCase
  simp only [String.append_assoc]
  exact .opens (by decide) (by decide) _

/-- A pattern test starts with the text that is searched, and behind that comes a word. All other
methods are written as functions. -/
theorem SignedOnce.template {m : Method} {compared : Bool} {texts : List String}
    (h : ∀ t ∈ texts, SignedOnce t) (filled : m.template compared texts = .ok text) :
    SignedOnce text := by
  have named {name : String} (signless : Signless name) (full : name ≠ "") (more : String) :
      SignedOnce (name ++ more) := (signless.opens full more).signedOnce
  unfold Method.template at filled
  split at filled
  case h_1 | h_2 | h_4 =>
    obtain rfl := Except.ok.inj filled
    simp only [String.append_assoc]
    exact named (by decide) (by decide) _
  case h_3 =>
    obtain rfl := Except.ok.inj filled
    split
    · exact (Signless.containsCase _ _).signedOnce
    · exact ((Signless.containsCase _ _).append (by decide)).signedOnce
  case h_5 t part | h_6 t part =>
    obtain rfl := Except.ok.inj filled
    simp only [String.append_assoc]
    exact (h t List.mem_cons_self).append (.opens (by decide) (by decide) _)
  case h_7 =>
    split at filled
    · obtain rfl := Except.ok.inj filled
      simp only [String.append_assoc]
      exact named (by decide) (by decide) _
    · cases filled
  case h_8 => cases filled

end Operators

/-! ## Names and literals -/

/-- A scope whose marker and alias do not start with a minus sign. -/
structure Scope.SpellsSignless (scope : Scope) : Prop where
  marker_signless : Signless scope.settings.marker
  alias_signless : ∀ table, scope.alias? = some table → Signless table

section Leaves

variable {scope : Scope} {text : String}

/-- A name after an alias starts with it, or with a dot where the alias is empty. -/
theorem Scope.SpellsSignless.qualified (fits : scope.SpellsSignless) {table : String}
    (alias_eq : scope.alias? = some table) (name : String) :
    Signless (table ++ "." ++ name) := by
  rw [String.append_assoc]
  exact (fits.alias_signless table alias_eq).append (.opens (by decide) (by decide) name)

theorem Scope.SpellsSignless.columnText (fits : scope.SpellsSignless) {p : Property}
    (bare : scope.alias? = none → Signless p.queryName) (h : scope.columnText p = .ok text) :
    Signless text := by
  obtain ⟨-, rfl⟩ := Scope.columnText_eq_ok.1 h
  unfold qualify
  split
  · rename_i table alias_eq
    exact fits.qualified alias_eq p.queryName
  · rename_i alias_eq
    exact bare alias_eq

theorem Scope.SpellsSignless.pathText (fits : scope.SpellsSignless) {path : Expression}
    (h : scope.pathText path = .ok text) : Signless text := by
  obtain ⟨table, names, alias_eq, -, rfl⟩ := Scope.pathText_eq_ok.1 h
  exact fits.qualified alias_eq _

/-- An index has no sign. -/
theorem Scope.SpellsSignless.placeholder (fits : scope.SpellsSignless) (index : Nat) :
    Signless (placeholder scope.settings.marker index) := by
  -- The marker may be empty, so that the placeholder starts with its index.
  refine fits.marker_signless.append ?_
  rintro ⟨rest, digits⟩
  have sign : '-' ∈ (toString index).toList := by
    rw [← digits]
    simp
  rw [Nat.toString_eq_ofList_toDigits, String.toList_ofList] at sign
  exact absurd (isDigit_of_mem_toDigits sign) (by decide)

theorem Scope.SpellsSignless.literalText (fits : scope.SpellsSignless) {literal : String}
    {kind : Kind} {ledger after : Ledger}
    (h : (literalText scope literal kind).over ledger = (.ok text, after)) : Signless text := by
  unfold EntityQuery.literalText at h
  cases parsed : Literal.parse literal with
  | error e => simp [parsed] at h
  | ok l =>
    simp only [parsed] at h
    obtain ⟨encoded, encodes, rfl, -⟩ := over_encodeText_eq_ok.1 h
    have keyword_signless : ∀ word ∈ ["true", "false", "null"], Signless word := by decide
    rcases encode_cases encodes with ⟨v, rfl⟩ | ⟨word, hm, rfl⟩
    · exact fits.placeholder _
    · exact keyword_signless word hm

theorem Signless.compositeText {operator : BinaryOperator} {p : Property} {right : Expression}
    {ledger after : Ledger}
    (h : (compositeText scope operator p right).over ledger = (.ok text, after)) :
    Signless text := by
  cases right with
  | literal literal kind =>
    simp only [EntityQuery.compositeText, Compile.over_bind_eq_ok, Compile.over_pure_eq_ok] at h
    obtain ⟨conjuncts, _, -, rfl, -⟩ := h
    rw [String.append_assoc]
    exact signless_parenthesized _
  | _ =>
    cases (Prod.mk.inj h).1

end Leaves

/-! ## Trees -/

section Trees

variable {scope : Scope}

mutual

/-- A condition starts with at most one minus sign. -/
theorem signedOnce_of_filterText (fits : scope.SpellsSignless) (e : Expression)
    (bare : scope.alias? = none → ∀ p ∈ e.properties, Signless p.queryName)
    {ledger after : Ledger} {text : String}
    (h : (filterText scope e).over ledger = (.ok text, after)) : SignedOnce text := by
  cases e with
  | filter inner =>
    rw [filterText] at h
    exact signedOnce_of_filterText fits inner bare h
  | unary operator operand =>
    simp only [filterText, Compile.over_bind_eq_ok, Compile.over_pure_eq_ok] at h
    obtain ⟨inner, _, compiled, rfl, -⟩ := h
    exact (signedOnce_of_filterText fits operand bare compiled).unaryText operator
  | binary operator left right =>
    -- The operands stand inside of parentheses, so their own signs do not matter.
    cases left_eq : compositeProperty? left with
    | some p =>
      simp only [filterText, left_eq] at h
      exact (Signless.compositeText h).signedOnce
    | none =>
      simp only [filterText, left_eq, Compile.over_bind_eq_ok, Compile.over_liftM] at h
      obtain ⟨_, _, -, lhs, _, -, rhs, _, -, compared⟩ := h
      exact (Signless.comparison (Prod.mk.inj compared).1).signedOnce
  | property p =>
    simp only [filterText, Compile.over_liftM, Prod.mk.injEq] at h
    have named : scope.alias? = none → Signless p.queryName :=
      fun none => bare none p (by simp [Expression.properties])
    exact (fits.columnText named h.1).signedOnce
  | member path step =>
    simp only [filterText, Compile.over_liftM, Prod.mk.injEq] at h
    exact (fits.pathText h.1).signedOnce
  | literal literal kind =>
    rw [filterText] at h
    exact (fits.literalText h).signedOnce
  | method m args =>
    simp only [filterText, Compile.over_bind_eq_ok, Compile.over_liftM] at h
    obtain ⟨_, _, -, compared, _, -, texts, _, compiled, filled⟩ := h
    exact .template (signedOnce_of_filterTexts fits args bare compiled) (Prod.mk.inj filled).1

theorem signedOnce_of_filterTexts (fits : scope.SpellsSignless) (es : List Expression)
    (bare : scope.alias? = none → ∀ p ∈ argumentProperties es, Signless p.queryName)
    {ledger after : Ledger} {texts : List String}
    (h : (filterTexts scope es).over ledger = (.ok texts, after)) :
    ∀ t ∈ texts, SignedOnce t := by
  cases es with
  | nil =>
    obtain ⟨rfl, -⟩ := Compile.over_pure_eq_ok.1 h
    exact nofun
  | cons e es =>
    simp only [filterTexts, Compile.over_bind_eq_ok, Compile.over_pure_eq_ok] at h
    obtain ⟨first, _, head, others, _, tail, rfl, -⟩ := h
    have first_signed := signedOnce_of_filterText fits e
      (fun none p hp => bare none p (List.mem_append_left _ hp)) head
    have others_signed := signedOnce_of_filterTexts fits es
      (fun none p hp => bare none p (List.mem_append_right _ hp)) tail
    exact List.forall_mem_cons.2 ⟨first_signed, others_signed⟩

end

/-- An operator of one operand changes the text only. -/
theorem over_filterText_unary (operator : UnaryOperator) (operand : Expression) (ledger : Ledger) :
    (filterText scope (.unary operator operand)).over ledger =
      (((filterText scope operand).over ledger).1.map (unaryText operator),
        ((filterText scope operand).over ledger).2) := by
  rw [filterText, bind_pure_comp, Compile.over_map]

/-- **Two signs change no condition.** Let neither the marker nor the alias start with a minus
sign, nor, where there is no alias, the query name of a property in the tree. Then a tree under two
signs gives what the tree gives over any ledger: the same text with the same values bound, or the
same failure. No text that it can give starts with two signs. -/
theorem filterText_minus_minus (fits : scope.SpellsSignless) {e : Expression}
    (bare : scope.alias? = none → ∀ p ∈ e.properties, Signless p.queryName) (ledger : Ledger) :
    (filterText scope (.unary .minus (.unary .minus e))).over ledger =
        (filterText scope e).over ledger ∧
      ledger.addFilter scope (.unary .minus (.unary .minus e)) = ledger.addFilter scope e ∧
      ∀ {text after}, (filterText scope e).over ledger = (.ok text, after) →
        ¬"--".toList <+: text.toList := by
  have same : (filterText scope (.unary .minus (.unary .minus e))).over ledger =
      (filterText scope e).over ledger := by
    rw [over_filterText_unary, over_filterText_unary]
    rcases compiled : (filterText scope e).over ledger with ⟨error | text, after⟩
    · rfl
    · have signed := signedOnce_of_filterText fits e bare compiled
      simp only [Except.map, unaryText_minus_minus_iff.2 signed]
  refine ⟨same, ?_, signedOnce_of_filterText fits e bare⟩
  rw [Ledger.addFilter, Ledger.run, same]
  rfl

/-- A test whether a name that is taken negative starts with an `a`. -/
def negativeTest : Expression :=
  .method .startsWith
    [.unary .minus (.property ⟨"Name", .simple .string, none, []⟩), .literal "'a'" .string]

/-- The sign comes from the first argument of the test, and is still there after two more. -/
theorem filterText_minus_minus_of_negativeTest :
    (filterText {} (.unary .minus (.unary .minus negativeTest))).over {} =
      (.ok "-Name LIKE CONCAT(?1,'%') ESCAPE '\\'", ({} : Ledger).bind (.string "a")) := by
  have fits : Scope.SpellsSignless {} := ⟨by decide, nofun⟩
  have bare : ∀ p ∈ negativeTest.properties, Signless p.queryName := by
    simp only [negativeTest, Expression.properties, argumentProperties]
    decide
  have compiled : (filterText {} negativeTest).over {} =
      (.ok "-Name LIKE CONCAT(?1,'%') ESCAPE '\\'", ({} : Ledger).bind (.string "a")) := rfl
  obtain ⟨same, -, -⟩ := filterText_minus_minus fits (fun _ => bare) {}
  exact same.trans compiled

end Trees

end EntityQuery
