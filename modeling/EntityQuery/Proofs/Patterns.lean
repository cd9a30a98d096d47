import EntityQuery.Query.Filter

/-!
# Patterns that stand for a text

A value of text is bound in the form of a pattern, and the templates of the pattern tests put
wildcards around it. Whatever the text, its pattern matches that text alone, with its quotes written
twice, and then leaves the rest to the pattern behind it: no character of it acts as a wildcard, and
no backslash at its end takes the meaning from the wildcard that follows.

## Main definitions

* `Text.Like`: the texts that a pattern matches, with the escape character `\`
* `Concatenation`: what a template puts together around its operand
* `Method.pattern?`: the pattern of a pattern test
* `Method.Holds`: what a pattern test is for

## Main results

* `Text.like_escaped_append`: an escaped text in front of a pattern
* `Text.like_escape_iff`: escaped texts between wildcards
* `Method.template_pattern`, `Method.like_pattern_iff`: the pattern tests of a query
-/

namespace EntityQuery

namespace Text

/-! ## Matching -/

/-- The texts that a pattern matches: `%` any text, `_` any character, the escape character and
another one that other one, and all else itself. An escape character at the end matches nothing. -/
inductive Like : List Char → List Char → Prop
  | nil : Like [] []
  | any (passed : List Char) {pattern text : List Char} (rest : Like pattern text) :
      Like ('%' :: pattern) (passed ++ text)
  | one (c : Char) {pattern text : List Char} (rest : Like pattern text) :
      Like ('_' :: pattern) (c :: text)
  | escaped (c : Char) {pattern text : List Char} (rest : Like pattern text) :
      Like (escapeMark :: c :: pattern) (c :: text)
  | self {c : Char} (plain : isSpecial c = false) {pattern text : List Char}
      (rest : Like pattern text) : Like (c :: pattern) (c :: text)

variable {pattern text : List Char} {c : Char}

theorem like_nil : Like [] text ↔ text = [] := by
  constructor
  · rintro ⟨⟩
    rfl
  · rintro rfl
    exact .nil

theorem like_any :
    Like ('%' :: pattern) text ↔ ∃ passed rest, text = passed ++ rest ∧ Like pattern rest := by
  constructor
  · intro h
    cases h with
    | any passed rest => exact ⟨passed, _, rfl, rest⟩
    | self plain => cases plain
  · rintro ⟨passed, rest, rfl, h⟩
    exact .any passed h

/-- An escaped character matches itself, even if it is a wildcard or the escape character. -/
theorem like_mark :
    Like (escapeMark :: c :: pattern) text ↔ ∃ rest, text = c :: rest ∧ Like pattern rest := by
  constructor
  · intro h
    cases h with
    | escaped c rest => exact ⟨_, rfl, rest⟩
    | self plain => cases plain
  · rintro ⟨rest, rfl, h⟩
    exact .escaped c h

theorem like_self (plain : isSpecial c = false) :
    Like (c :: pattern) text ↔ ∃ rest, text = c :: rest ∧ Like pattern rest := by
  constructor
  · intro h
    cases h with
    | any => cases plain
    | one => cases plain
    | escaped => cases plain
    | self _ rest => exact ⟨_, rfl, rest⟩
  · rintro ⟨rest, rfl, h⟩
    exact .self plain h

/-! ## Escaped texts -/

/-- The step of an escaped text: what stands for one character matches that character, or two quotes
for a quote. -/
theorem like_escapeChar_append :
    Like (escapeChar c ++ pattern) text ↔
      ∃ rest, text = double [c] ++ rest ∧ Like pattern rest := by
  by_cases is_quote : c = quote
  · have plain : isSpecial quote = false := rfl
    have twice : escapeChar c = [quote, quote] := if_pos is_quote
    have doubled : double [c] = [quote, quote] := if_pos is_quote
    rw [twice, doubled]
    constructor
    · intro h
      obtain ⟨behind, rfl, one_left⟩ := (like_self plain).1 h
      obtain ⟨rest, rfl, none_left⟩ := (like_self plain).1 one_left
      exact ⟨rest, rfl, none_left⟩
    · rintro ⟨rest, rfl, h⟩
      exact .self plain (.self plain h)
  · have once : double [c] = [c] := if_neg is_quote
    rw [once, escapeChar, if_neg is_quote]
    by_cases special : isSpecial c = true
    · rw [if_pos special]
      exact like_mark
    · rw [if_neg special]
      exact like_self (Bool.eq_false_iff.2 special)

/-- **An escaped text in front of a pattern** matches the text with its quotes written twice, and
leaves the rest to the pattern. -/
theorem like_escaped_append (s : List Char) :
    Like (escaped s ++ pattern) text ↔ ∃ rest, text = double s ++ rest ∧ Like pattern rest := by
  induction s generalizing text with
  | nil => simp [escaped, double]
  | cons c s ih =>
    have pattern_eq : escaped (c :: s) ++ pattern = escapeChar c ++ (escaped s ++ pattern) :=
      List.append_assoc ..
    have double_eq : double (c :: s) = double [c] ++ double s := by
      by_cases is_quote : c = quote <;> simp [double, is_quote]
    rw [pattern_eq, double_eq, like_escapeChar_append]
    constructor
    · rintro ⟨behind, rfl, h⟩
      obtain ⟨rest, rfl, left⟩ := ih.1 h
      exact ⟨rest, (List.append_assoc ..).symm, left⟩
    · rintro ⟨rest, rfl, h⟩
      exact ⟨double s ++ rest, List.append_assoc .., ih.2 ⟨rest, rfl, h⟩⟩

/-! ## Wildcards around a text -/

/-- A wildcard alone matches every text. -/
theorem like_wildcard (text : List Char) : Like ['%'] text :=
  like_any.2 ⟨text, [], (List.append_nil text).symm, .nil⟩

/-- An escaped text alone matches nothing else. -/
theorem like_escaped {s : List Char} : Like (escaped s) text ↔ text = double s := by
  have ended : Like (escaped s ++ []) text ↔ ∃ rest, text = double s ++ rest ∧ Like [] rest :=
    like_escaped_append s
  simpa only [List.append_nil, like_nil, exists_eq_right] using ended

/-- A wildcard behind an escaped text leaves a test of what a text begins with. -/
theorem like_escaped_any {s : List Char} :
    Like (escaped s ++ ['%']) text ↔ double s <+: text := by
  rw [like_escaped_append]
  constructor
  · rintro ⟨rest, rfl, -⟩
    exact List.prefix_append _ _
  · rintro ⟨rest, rfl⟩
    exact ⟨rest, rfl, like_wildcard rest⟩

/-- A wildcard in front of an escaped text leaves a test of what a text ends with. -/
theorem like_any_escaped {s : List Char} : Like ('%' :: escaped s) text ↔ double s <:+ text := by
  rw [like_any]
  constructor
  · rintro ⟨passed, rest, rfl, h⟩
    exact ⟨passed, by rw [like_escaped.1 h]⟩
  · rintro ⟨passed, rfl⟩
    exact ⟨passed, double s, rfl, like_escaped.2 rfl⟩

/-- Wildcards on both sides of an escaped text leave a test of what a text contains. -/
theorem like_any_escaped_any {s : List Char} :
    Like ('%' :: (escaped s ++ ['%'])) text ↔ double s <:+: text := by
  rw [like_any]
  constructor
  · rintro ⟨passed, rest, rfl, h⟩
    exact (like_escaped_any.1 h).isInfix.trans (List.suffix_append _ _).isInfix
  · rintro ⟨passed, rest, rfl⟩
    exact ⟨passed, double s ++ rest, List.append_assoc .., like_escaped_any.2 ⟨rest, rfl⟩⟩

/-- **An escaped text is an exact pattern.** With a wildcard behind it, in front of it and on both
sides, it matches the texts that begin with the text, end with it and contain it, with the quotes
of the text written twice: none of its characters is a wildcard, and the wildcards around it keep
their meaning. -/
theorem like_escape_iff (s text : String) :
    (Like (escape s ++ "%").toList text.toList ↔ double s.toList <+: text.toList) ∧
      (Like ("%" ++ escape s).toList text.toList ↔ double s.toList <:+ text.toList) ∧
      (Like ("%" ++ escape s ++ "%").toList text.toList ↔ double s.toList <:+: text.toList) := by
  have chars : (escape s).toList = escaped s.toList := String.toList_ofList
  have wildcard : "%".toList = ['%'] := rfl
  simp only [String.toList_append, chars, wildcard, List.singleton_append]
  exact ⟨like_escaped_any, like_any_escaped, like_any_escaped_any⟩

end Text

/-! ## Pattern tests of a query -/

/-- What a template puts together around an operand. -/
inductive Concatenation where
  /-- The operand itself. -/
  | operand
  /-- A wildcard. -/
  | wildcard
  /-- Two parts, one behind the other. -/
  | join (left right : Concatenation)

namespace Concatenation

/-- The text of a concatenation, with the text of the operand. -/
def text (operand : String) : Concatenation → String
  | .operand => operand
  | wildcard => "'%'"
  | join left right => "CONCAT(" ++ left.text operand ++ "," ++ right.text operand ++ ")"

/-- What a concatenation comes to, for the value of the operand. -/
def value (operand : List Char) : Concatenation → List Char
  | .operand => operand
  | wildcard => ['%']
  | join left right => left.value operand ++ right.value operand

/-- The test of a text against a concatenation. -/
def test (whole part : String) (concatenation : Concatenation) : String :=
  whole ++ " LIKE " ++ concatenation.text part ++ " ESCAPE '\\'"

end Concatenation

namespace Method

/-- The pattern of a method that is a pattern test. -/
def pattern? : Method → Option Concatenation
  | startsWith => some (.join .operand .wildcard)
  | endsWith => some (.join .wildcard .operand)
  | substringOf => some (.join .wildcard (.join .operand .wildcard))
  | _ => none

/-- The arguments of a pattern test, in the order that the method takes them. -/
def testArguments (method : Method) (whole part : String) : List String :=
  if method = substringOf then [part, whole] else [whole, part]

/-- What a pattern test is for: how it wants a part to lie in a text. -/
def Holds (part whole : List Char) : Method → Prop
  | startsWith => part <+: whole
  | endsWith => part <:+ whole
  | substringOf => part <:+: whole
  | _ => False

variable {method : Method} {pattern : Concatenation}

theorem pattern?_eq_some : method.pattern? = some pattern ↔
    (method = startsWith ∧ pattern = .join .operand .wildcard) ∨
      (method = endsWith ∧ pattern = .join .wildcard .operand) ∨
      (method = substringOf ∧ pattern = .join .wildcard (.join .operand .wildcard)) := by
  cases method <;> simp [pattern?, eq_comm]

/-- The test whether a text contains another one is the test against a pattern, as a value. -/
theorem containsCase_eq (part whole : String) :
    containsCase part whole = "(CASE WHEN (" ++
      (Concatenation.join .wildcard (.join .operand .wildcard)).test whole part ++
        ") THEN TRUE ELSE FALSE END)" := by
  have opening : " LIKE CONCAT('%',CONCAT(" =
      " LIKE " ++ ("CONCAT(" ++ ("'%'" ++ ("," ++ "CONCAT("))) := rfl
  have closing : ",'%')) ESCAPE '\\') THEN TRUE ELSE FALSE END)" =
      "," ++ ("'%'" ++ (")" ++ (")" ++ (" ESCAPE '\\'" ++ ") THEN TRUE ELSE FALSE END)")))) := rfl
  unfold containsCase
  simp only [Concatenation.test, Concatenation.text, opening, closing, String.append_assoc]

/-- The template of a pattern test is the test against its pattern, and what stands around it. -/
theorem template_pattern (tests : method.pattern? = some pattern) (compared : Bool)
    (whole part : String) :
    ∃ before after, method.template compared (method.testArguments whole part) =
      .ok (before ++ pattern.test whole part ++ after) := by
  rcases pattern?_eq_some.1 tests with ⟨rfl, rfl⟩ | ⟨rfl, rfl⟩ | ⟨rfl, rfl⟩
  · have opening : " LIKE CONCAT(" = " LIKE " ++ "CONCAT(" := rfl
    have closing : ",'%') ESCAPE '\\'" = "," ++ ("'%'" ++ (")" ++ " ESCAPE '\\'")) := rfl
    refine ⟨"", "", ?_⟩
    rw [testArguments, if_neg nofun, template, opening, closing]
    simp only [Concatenation.test, Concatenation.text, String.append_assoc, String.empty_append,
      String.append_empty]
  · have opening : " LIKE CONCAT('%'," = " LIKE " ++ ("CONCAT(" ++ ("'%'" ++ ",")) := rfl
    have closing : ") ESCAPE '\\'" = ")" ++ " ESCAPE '\\'" := rfl
    refine ⟨"", "", ?_⟩
    rw [testArguments, if_neg nofun, template, opening, closing]
    simp only [Concatenation.test, Concatenation.text, String.append_assoc, String.empty_append,
      String.append_empty]
  · rw [testArguments, if_pos rfl, template, containsCase_eq]
    cases compared with
    | true => exact ⟨_, _, rfl⟩
    | false =>
      refine ⟨"(CASE WHEN (", ") THEN TRUE ELSE FALSE END)" ++ " = true", ?_⟩
      rw [if_neg Bool.false_ne_true, String.append_assoc]

/-- **A pattern test tests what it is for**, whatever the text that it is given: the value that the
text is bound as makes a pattern that matches where the test holds of the text with its quotes
written twice. -/
theorem like_pattern_iff (tests : method.pattern? = some pattern) {text : String} {kind : Kind}
    (is_text : kind.family = .text) :
    ∃ bound, encode text kind none = .ok (.value (.string bound)) ∧
      ∀ whole, Text.Like (pattern.value bound.toList) whole ↔
        method.Holds (Text.double text.toList) whole := by
  have chars : (Text.escape text).toList = Text.escaped text.toList := String.toList_ofList
  refine ⟨Text.escape text, by rw [encode, is_text]; rfl, fun whole => ?_⟩
  rw [chars]
  rcases pattern?_eq_some.1 tests with ⟨rfl, rfl⟩ | ⟨rfl, rfl⟩ | ⟨rfl, rfl⟩
  · exact Text.like_escaped_any
  · exact Text.like_any_escaped
  · exact Text.like_any_escaped_any

end Method

end EntityQuery
