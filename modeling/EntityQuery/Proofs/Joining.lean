import EntityQuery.Proofs.Composition
import EntityQuery.Proofs.Grouping

/-!
# Conditions that are joined

Key and filter are joined by `AND` as they stand, without parentheses around either. A pattern test,
a negation and a minus stand without parentheses as well. None of them lets a connective out: where
names, the alias and the marker of placeholders have no blanks and no parentheses, the text of every
tree is guarded against `AND` and `OR`, and the condition of a key has no word but `AND` to join it.
So what a filter asks for only ever restricts what the key selects.

## Main definitions

* `Scope.SpellsWords`: a scope with an alias, the texts of which are words

## Main results

* `Guarded.unaryText`, `Guarded.comparison`, `Guarded.template`: operators and methods keep
  connectives inside of parentheses
* `guarded_of_yields`, `guarded_of_keyYields`: and so do trees and the properties of keys
* `Request.compile_conjoins`: the condition of a request is a conjunction of its key and its filter
-/

namespace EntityQuery

/-! ## Words -/

/-- A scope with an alias, in which neither the alias nor the marker of placeholders has a blank or
a parenthesis. -/
structure Scope.SpellsWords (scope : Scope) : Prop where
  alias_given : scope.alias?.isSome
  alias_word : ∀ table ∈ scope.alias?, Word table
  marker_word : Word scope.settings.marker

/-- A digit is in no connective and is no sign. -/
theorem tells_of_isDigit {c : Char} (h : c.isDigit) : tells c := by
  have letters : ('-' :: connectives.flatMap String.toList).all (!·.isDigit) := by decide
  by_contra untold
  have mem : c ∈ '-' :: connectives.flatMap String.toList := by
    simp only [tells, connectives, Bool.and_eq_true, bne_iff_ne, List.all_cons, List.all_nil,
      Bool.not_eq_true', List.contains_eq_mem, decide_eq_false_iff_not] at untold
    simp only [connectives, List.flatMap_cons, List.flatMap_nil, List.mem_cons, List.mem_append]
    tauto
  have no_digit := List.all_eq_true.1 letters c mem
  rw [h] at no_digit
  cases no_digit

/-- A word is guarded by any character that no connective has. -/
theorem Guarded.word {text : String} (isWord : Word text) {c : Char} (hc : c ∈ text.toList)
    (told : tells c) : Guarded connectives text := .of_tells isWord.runs hc told

/-- What is written for a name, a keyword or a placeholder: a word that is no connective. -/
structure LeafText (text : String) : Prop where
  word : Word text
  guarded : Guarded connectives text

theorem LeafText.qualified {table name : String} (table_word : Word table) (name_word : Word name) :
    LeafText (table ++ "." ++ name) where
  word := (table_word.append (by decide)).append name_word
  guarded := .word ((table_word.append (by decide)).append name_word) (c := '.') (by simp)
    (by decide)

theorem LeafText.placeholder {marker : String} (h : Word marker) (index : Nat) :
    LeafText (placeholder marker index) := by
  have chars : (EntityQuery.placeholder marker index).toList =
      marker.toList ++ Nat.toDigits 10 index := by simp [EntityQuery.placeholder]
  have isWord : Word (EntityQuery.placeholder marker index) := by
    intro c hc
    rw [chars, List.mem_append] at hc
    rcases hc with hc | hc
    · exact h c hc
    · exact isDelimiter_of_isDigit (isDigit_of_mem_toDigits hc)
  obtain ⟨c, hc⟩ := List.exists_mem_of_ne_nil _ (Nat.toDigits_ne_nil (b := 10) (n := index))
  have shown : c ∈ (EntityQuery.placeholder marker index).toList := by
    rw [chars]
    exact List.mem_append_right _ hc
  exact ⟨isWord, .word isWord shown (tells_of_isDigit (isDigit_of_mem_toDigits hc))⟩

theorem leafText_keyword : ∀ word ∈ ["true", "false", "null"], LeafText word := by
  have told : ∀ word ∈ ["true", "false", "null"], Word word ∧ word.toList.any tells := by decide
  intro word hm
  obtain ⟨isWord, told⟩ := told word hm
  obtain ⟨c, hc, told⟩ := List.any_eq_true.1 told
  exact ⟨isWord, .word isWord hc told⟩

/-- A plain text becomes a keyword or a placeholder. -/
theorem leafText_written {scope : Scope} (words : scope.SpellsWords) {text : String} {kind : Kind}
    {native : Option NativeType} {encoded : Encoded}
    (h : encode text kind native = .ok encoded) (start : Nat) :
    LeafText (encoded.written scope.settings.marker start) := by
  rcases encode_cases h with ⟨v, rfl⟩ | ⟨word, hm, rfl⟩
  · exact .placeholder words.marker_word start
  · exact leafText_keyword word hm

/-! ## Operators -/

namespace Guarded

theorem unaryText {operand : String} (operator : UnaryOperator)
    (h : Guarded connectives operand) : Guarded connectives (unaryText operator operand) := by
  cases operator with
  | not =>
    have negation : "NOT (" ++ operand ++ ")" = "NOT" ++ " " ++ ("(" ++ operand ++ ")") := by
      simp [← String.toList_inj]
    rw [EntityQuery.unaryText, negation]
    exact (Guarded.word (by decide) (c := 'T') (by decide) (by decide)).blank (.wrap h.balanced)
  | minus =>
    rw [EntityQuery.unaryText]
    split
    · rename_i rest text_eq
      rwa [← minus_iff, ← text_eq, String.ofList_toList]
    · rwa [minus_iff, String.ofList_toList]

/-- Every comparison stands in parentheses, a negated pattern test with a blank in front of the last
one. -/
theorem patternTest {test : String} (h : Balanced test) (right : String) :
    Guarded connectives (patternTest test right) := by
  unfold EntityQuery.patternTest
  split
  · exact wrap h
  · have negated : Balanced (Text.substituteFirst "LIKE" "NOT LIKE" test) :=
      h.substituteFirst (by decide) (by decide)
    have group : ∀ t : String, "(" ++ t ++ " )" = "(" ++ (t ++ " ") ++ ")" := by
      intro t
      simp [← String.toList_inj]
    rw [group]
    exact wrap (negated.append (by decide))

theorem plainComparison {operator : BinaryOperator} {lhs rhs text : String} (hl : Balanced lhs)
    (hr : Balanced rhs) (h : plainComparison operator lhs rhs = .ok text) :
    Guarded connectives text := by
  obtain ⟨token, token_eq, rfl⟩ := plainComparison_eq_ok.1 h
  have token_balanced : Balanced (tokenBefore operator token rhs) := by
    unfold tokenBefore
    split <;> cases operator <;> cases token_eq <;> decide
  have inner := (((hl.append (by decide : Balanced " ")).append token_balanced).append
    (by decide : Balanced " ")).append hr
  have group : "(" ++ lhs ++ " " ++ tokenBefore operator token rhs ++ " " ++ rhs ++ ")" =
      "(" ++ (lhs ++ " " ++ tokenBefore operator token rhs ++ " " ++ rhs) ++ ")" := by
    simp [← String.toList_inj]
  rw [group]
  exact wrap inner

end Guarded

/-- A word up to a character is a word. -/
theorem Word.upToLast? {mark : Char} {text front : String} (h : Word text)
    (cut : Text.upToLast? mark text = some front) : Word front := by
  obtain ⟨⟨before, after⟩, hc, rfl⟩ := Option.map_eq_some_iff.1 cut
  intro c hm
  rw [String.toList_ofList] at hm
  apply h c
  rw [(Text.eq_of_cutLast? hc).1]
  exact List.mem_append_left after hm

/-- Only the text of a property is cut, which is a word. -/
theorem Balanced.leftText {left right : Expression} {lhs text : String}
    (property_word : ∀ p, left = .property p → Word lhs) (hl : Balanced lhs)
    (h : leftText left right lhs = .ok text) : Balanced text := by
  cases left with
  | property p =>
    simp only [EntityQuery.leftText] at h
    split at h
    · split at h
      · rename_i owner cut
        obtain rfl := Except.ok.inj h
        exact ((property_word p rfl).upToLast? cut).balanced
      · cases h
    · obtain rfl := Except.ok.inj h
      exact hl
  | _ =>
    obtain rfl := Except.ok.inj h
    exact hl

theorem Guarded.comparison {operator : BinaryOperator} {left right : Expression}
    {lhs rhs text : String} (property_word : ∀ p, left = .property p → Word lhs)
    (hl : Balanced lhs) (hr : Balanced rhs)
    (h : comparison operator left right lhs rhs = .ok text) : Guarded connectives text := by
  simp only [EntityQuery.comparison, bind_eq_ok] at h
  obtain ⟨cut, hc, h⟩ := h
  have cut_balanced := hl.leftText property_word hc
  split at h
  · split at h
    · obtain rfl := Except.ok.inj h
      exact patternTest cut_balanced rhs
    · cases h
  · exact plainComparison cut_balanced hr h

/-! ## Methods -/

/-- A call is one word, however many blanks its parentheses hold. -/
theorem Guarded.call {opening closing inner : String} (ho : Runs 0 opening 1)
    (hc : Runs 1 closing 0) (told : '(' ∈ opening.toList) (h : Balanced inner) :
    Guarded connectives (opening ++ inner ++ closing) := by
  have runs := (ho.append (h.runs 0)).append hc
  exact .of_tells runs (c := '(') (by simp [told]) (by decide)

theorem Guarded.containsCase {part whole : String} (hp : Balanced part) (hw : Balanced whole) :
    Guarded connectives (Method.containsCase part whole) := by
  unfold Method.containsCase
  have opening : Runs 0 "(CASE WHEN (" 2 := by decide
  have middle : Runs 2 " LIKE CONCAT('%',CONCAT(" 4 := by decide
  have closing : Runs 4 ",'%')) ESCAPE '\\') THEN TRUE ELSE FALSE END)" 0 := by decide
  have runs := (((opening.append (hw.runs 1)).append middle).append (hp.runs 3)).append closing
  exact .of_tells runs (c := '(') (by simp) (by decide)

/-- A test by a pattern is four words: the text, `LIKE`, the pattern, and what it is escaped by. -/
theorem Guarded.like {text opening part closing : String} (ht : Guarded connectives text)
    (ho : Runs 0 opening 1) (hc : Runs 1 closing 0) (told : '(' ∈ opening.toList)
    (hp : Balanced part) :
    Guarded connectives (text ++ " LIKE " ++ (opening ++ part ++ closing) ++ " ESCAPE '\\'") := by
  have words : text ++ " LIKE " ++ (opening ++ part ++ closing) ++ " ESCAPE '\\'" =
      text ++ " " ++ "LIKE" ++ " " ++ (opening ++ part ++ closing) ++ " " ++ "ESCAPE" ++ " " ++
        "'\\'" := by
    simp [← String.toList_inj]
  rw [words]
  exact (((ht.blank (.word (by decide) (c := 'L') (by decide) (by decide))).blank
    (.call ho hc told hp)).blank (.word (by decide) (c := 'E') (by decide) (by decide))).blank
    (.word (by decide) (c := '\'') (by decide) (by decide))

theorem Guarded.template {m : Method} {compared : Bool} {texts : List String} {text : String}
    (h : ∀ t ∈ texts, Guarded connectives t) (filled : m.template compared texts = .ok text) :
    Guarded connectives text := by
  unfold Method.template at filled
  split at filled
  case h_1 t start =>
    obtain rfl := Except.ok.inj filled
    have ht := (h t (by simp)).balanced
    have hs := (h start (by simp)).balanced
    have inner := (ht.append (by decide : Balanced ", ")).append hs
    have call := Guarded.call (by decide : Runs 0 "SUBSTRING(" 1) (by decide : Runs 1 " + 1)" 0)
      (by decide) inner
    simpa only [String.append_assoc] using call
  case h_2 t start count =>
    obtain rfl := Except.ok.inj filled
    have ht := (h t (by simp)).balanced
    have hs := (h start (by simp)).balanced
    have hc := (h count (by simp)).balanced
    have inner := (((ht.append (by decide : Balanced ", ")).append hs).append
      (by decide : Balanced " + 1, ")).append hc
    have call := Guarded.call (by decide : Runs 0 "SUBSTRING(" 1) (by decide : Runs 1 ")" 0)
      (by decide) inner
    simpa only [String.append_assoc] using call
  case h_3 part whole =>
    obtain rfl := Except.ok.inj filled
    have case_guarded : Guarded connectives (Method.containsCase part whole) :=
      .containsCase (h part (by simp)).balanced (h whole (by simp)).balanced
    split
    · exact case_guarded
    · have words : Method.containsCase part whole ++ " = true" =
          Method.containsCase part whole ++ " " ++ "=" ++ " " ++ "true" := by
        simp [← String.toList_inj]
      rw [words]
      exact (case_guarded.blank (.word (by decide) (c := '=') (by decide) (by decide))).blank
        (leafText_keyword "true" (by simp)).guarded
  case h_4 t =>
    obtain rfl := Except.ok.inj filled
    exact .call (by decide) (by decide) (by decide) (h t (by simp)).balanced
  case h_5 t part =>
    obtain rfl := Except.ok.inj filled
    have test := (h t (by simp)).like (by decide : Runs 0 "CONCAT(" 1)
      (by decide : Runs 1 ",'%')" 0) (by decide) (h part (by simp)).balanced
    have same : t ++ " LIKE CONCAT(" ++ part ++ ",'%') ESCAPE '\\'" =
        t ++ " LIKE " ++ ("CONCAT(" ++ part ++ ",'%')") ++ " ESCAPE '\\'" := by
      simp [← String.toList_inj]
    rw [same]
    exact test
  case h_6 t part =>
    obtain rfl := Except.ok.inj filled
    have test := (h t (by simp)).like (by decide : Runs 0 "CONCAT('%'," 1)
      (by decide : Runs 1 ")" 0) (by decide) (h part (by simp)).balanced
    have same : t ++ " LIKE CONCAT('%'," ++ part ++ ") ESCAPE '\\'" =
        t ++ " LIKE " ++ ("CONCAT('%'," ++ part ++ ")") ++ " ESCAPE '\\'" := by
      simp [← String.toList_inj]
    rw [same]
    exact test
  case h_7 =>
    split at filled
    · rename_i part part_eq
      obtain rfl := Except.ok.inj filled
      have part_balanced : Balanced (part ++ " ") := by
        cases m <;> cases part_eq <;> decide
      have call := Guarded.call (by decide : Runs 0 "EXTRACT(" 1) (by decide : Runs 1 ")" 0)
        (by decide) (part_balanced.append (h _ List.mem_cons_self).balanced)
      simpa only [String.append_assoc] using call
    · cases filled
  case h_8 => cases filled

/-! ## Trees -/

section Trees

variable {scope : Scope}

theorem leafText_column (words : scope.SpellsWords) {name : String} (isWord : Word name) :
    LeafText (qualify scope.alias? name) := by
  obtain ⟨table, alias_eq⟩ := Option.isSome_iff_exists.1 words.alias_given
  rw [alias_eq]
  exact .qualified (words.alias_word table alias_eq) isWord

theorem Word.intercalate {separator : String} {texts : List String} (hs : Word separator)
    (h : ∀ text ∈ texts, Word text) : Word (String.intercalate separator texts) :=
  intercalate_induct (by decide) (fun _ _ ha hb => (ha.append hs).append hb) h

theorem leafText_path (words : scope.SpellsWords) {path : Expression} {text : String}
    (named : ∀ p ∈ path.properties, Word p.queryName) (h : scope.pathText path = .ok text) :
    LeafText text := by
  obtain ⟨table, names, alias_eq, steps, rfl⟩ := Scope.pathText_eq_ok.1 h
  exact .qualified (words.alias_word table alias_eq)
    (.intercalate (by decide) (forall_mem_stepNames named steps))

theorem LiteralYields.leafText (words : scope.SpellsWords) {start : Nat} {text rhs : String}
    {kind : Kind} {values : List Value} (h : LiteralYields scope start text kind rhs values) :
    LeafText rhs := by
  obtain ⟨-, encodes⟩ := h
  exact leafText_written words encodes start

theorem PartYields.guarded (words : scope.SpellsWords) {operator : BinaryOperator}
    {owner part : Property} {slot : Option String} {start : Nat} {text : String}
    {values : List Value} (named : Word part.queryName)
    (h : PartYields scope operator owner start (part, slot) text values) :
    Guarded connectives text := by
  obtain ⟨-, column, right, compared⟩ := h
  obtain ⟨-, rfl⟩ := Scope.columnText_eq_ok.1 column
  have lhs := leafText_column words named
  exact .comparison (fun _ _ => lhs.word) lhs.guarded.balanced
    (right.leafText words).guarded.balanced compared

/-- The text of a tree keeps connectives inside of parentheses. -/
theorem guarded_of_yields (words : scope.SpellsWords) {compared : Bool} {start : Nat}
    {e : Expression} {text : String} {values : List Value}
    (h : Yields scope compared start e text values)
    (named : ∀ p ∈ e.properties, Word p.queryName) : Guarded connectives text := by
  induction h using Yields.induct with
  | filter _ ih => exact ih named
  | unary _ ih => exact (ih named).unaryText _
  | composite left_eq conjuncts =>
    have guarded := conjuncts.forall_mem fun {_ part _ _} hm h => by
      have part_named := mem_properties_of_composite left_eq (List.of_mem_zip hm).1
      exact h.guarded words (named _ (List.mem_append_left _ part_named))
    exact .wrap (.intercalate (by decide) fun t ht => (guarded t ht).balanced)
  | binary _ lefts _ joined ihl ihr =>
    have hl := ihl fun p hp => named p (List.mem_append_left _ hp)
    have hr := ihr fun p hp => named p (List.mem_append_right _ hp)
    refine .comparison ?_ hl.balanced hr.balanced joined
    -- A property in front is cut at its last period, which keeps what is balanced in words only.
    rintro p rfl
    cases lefts with | property column =>
    obtain ⟨-, rfl⟩ := Scope.columnText_eq_ok.1 column
    exact (leafText_column words (named p (by simp [Expression.properties]))).word
  | property column =>
    obtain ⟨-, rfl⟩ := Scope.columnText_eq_ok.1 column
    exact (leafText_column words (named _ (by simp [Expression.properties]))).guarded
  | member path_named => exact (leafText_path words named path_named).guarded
  | literal placed => exact (placed.leafText words).guarded
  | method _ _ filled ihs =>
    refine .template ?_ filled
    exact ihs.forall_mem fun hm ⟨_, ih⟩ => ih fun p hp => named p (mem_argumentProperties hm hp)

/-! ## Keys -/

theorem leafText_keyName (words : scope.SpellsWords) {p : Property} {target : String}
    (named : Word p.queryName ∧ Word p.storedName) (h : scope.keyName p = .ok target) :
    LeafText target := by
  obtain ⟨column, column_eq, rfl⟩ := map_eq_ok.1 h
  obtain ⟨-, rfl⟩ := columnName_eq_ok.1 column_eq
  apply leafText_column words
  split
  · exact named.2
  · exact named.1

/-- The condition of a key property keeps connectives inside of parentheses. -/
theorem guarded_of_keyYields (words : scope.SpellsWords) {start : Nat}
    {entry : Property × String} {text : String} {values : List Value}
    (h : KeyYields scope start entry text values)
    (named : ∀ p ∈ entry.1.columns, Word p.queryName ∧ Word p.storedName) :
    Guarded connectives text := by
  revert named
  refine KeyYields.induct (motive := fun _ entry text _ =>
    (∀ p ∈ entry.1.columns, Word p.queryName ∧ Word p.storedName) → Guarded connectives text)
    ?absent ?given ?composite h
  case absent =>
    intro start p literal target simple target_eq _ named
    have target_guarded :=
      (leafText_keyName words (named p (mem_columns_self simple)) target_eq).guarded
    have is_guarded : Guarded connectives "IS" :=
      .word (by decide) (c := 'I') (by decide) (by decide)
    have null_guarded := (leafText_keyword "null" (by simp)).guarded
    have tail : " IS null" = " " ++ "IS" ++ " " ++ "null" := by decide
    rw [tail]
    simpa only [String.append_assoc] using (target_guarded.blank is_guarded).blank null_guarded
  case given =>
    intro start p literal target kind encoded simple target_eq _ _ encodes named
    have target_guarded :=
      (leafText_keyName words (named p (mem_columns_self simple)) target_eq).guarded
    have sign_guarded : Guarded connectives "=" :=
      .word (by decide) (c := '=') (by decide) (by decide)
    have value_guarded := (leafText_written words encodes start).guarded
    have sign : " = " = " " ++ "=" ++ " " := by decide
    rw [sign]
    simpa only [String.append_assoc] using (target_guarded.blank sign_guarded).blank value_guarded
  case composite =>
    intro start p literal texts values _ conditions named
    have guarded := conditions.forall_mem fun {_ part _ _} hm ih => by
      apply ih
      intro column hc
      exact named column (mem_columns_of_part (mem_parts_of_keyParts hm) hc)
    exact .wrap (.intercalate (by decide) fun t ht => (guarded t ht).balanced)

end Trees

/-! ## Conditions of requests -/

/-- `AND` joins conditions, and brings no `OR` with it. -/
theorem Guarded.append_and {a b : String} (ha : Guarded ["OR"] a) (hb : Guarded ["OR"] b) :
    Guarded ["OR"] (a ++ " AND " ++ b) := by
  have and_guarded : Guarded ["OR"] "AND" := ⟨by decide, by decide⟩
  have words : a ++ " AND " ++ b = a ++ " " ++ "AND" ++ " " ++ b := by
    simp [← String.toList_inj]
  rw [words]
  exact (ha.blank and_guarded).blank hb

/-- The condition of a key is joined by `AND` only. -/
theorem guarded_of_keyCondition? {scope : Scope} (words : scope.SpellsWords)
    {predicates : List KeyPredicate}
    (named : ∀ p ∈ predicates.flatMap (·.property.columns), Word p.queryName ∧ Word p.storedName)
    {text? : Option String} {after : Ledger}
    (h : (keyCondition? scope predicates).over {} = (.ok text?, after)) :
    ∀ text ∈ text?, Guarded ["OR"] text := by
  obtain ⟨texts, values, yields, rfl, rfl⟩ := keyYields_of_keyCondition? h
  have guarded := yields.forall_mem fun {_ entry _ _} hm key => by
    obtain ⟨predicate, hp, rfl⟩ := List.mem_map.1 hm
    exact guarded_of_keyYields words key fun p hc =>
      named p (List.mem_flatMap.2 ⟨predicate, hp, hc⟩)
  intro text hm
  rw [Option.mem_def, Option.ite_none_left_eq_some] at hm
  obtain ⟨-, text_eq⟩ := hm
  obtain rfl := Option.some.inj text_eq
  exact intercalate_induct ⟨by decide, by decide⟩ (fun _ _ ha hb => ha.append_and hb)
    fun t ht => (guarded t ht).mono (by decide)

theorem guarded_of_addFilter? {scope : Scope} (words : scope.SpellsWords)
    {filter? : Option Expression}
    (named : ∀ p ∈ (filter?.map Expression.properties).getD [], Word p.queryName)
    {ledger after : Ledger} {text? : Option String} (unmarked : ledger.substringCompared = false)
    (h : ledger.addFilter? scope filter? = .ok (text?, after)) :
    ∀ text ∈ text?, Guarded connectives text := by
  cases filter? with
  | none =>
    obtain ⟨rfl, rfl⟩ := Prod.mk.inj (Except.ok.inj h)
    exact nofun
  | some e =>
    obtain ⟨text, over_eq, rfl⟩ := Ledger.addFilter?_some_eq_ok.1 h
    obtain ⟨values, yields, rfl⟩ := yields_of_filterText unmarked over_eq
    rintro _ ⟨⟩
    exact guarded_of_yields words yields named

/-- **A filter cannot escape the key.** Where names, the alias and the marker have no blanks and no
parentheses, the condition of a request has balanced parentheses and no `OR` outside of them; that
of its filter has no `AND` outside of them either. A request with both has the two as one condition,
in which the whole filter is one conjunct more behind those of the key. -/
theorem Request.compile_conjoins {request : Request} {settings : Settings}
    {alias? : Option String} {response : Response}
    (words : (request.scope settings alias?).SpellsWords)
    (named : ∀ p ∈ request.conditionProperties, Word p.queryName ∧ Word p.storedName)
    (h : request.compile settings alias? = .ok response) :
    (∀ text ∈ response.condition?, Balanced text ∧ ¬StandsOpen " OR " text) ∧
      (∀ text ∈ response.filter?,
        Balanced text ∧ ¬StandsOpen " AND " text ∧ ¬StandsOpen " OR " text) ∧
      ∀ keys ∈ response.keys?, ∀ filter ∈ response.filter?,
        response.condition? = some (keys ++ " AND " ++ filter) ∧
          conjuncts (keys ++ " AND " ++ filter) = conjuncts keys ++ [filter] := by
  obtain ⟨keys?, ledger, filter?, after, orderBy?, keys_eq, filter_eq, -, rfl⟩ :=
    compile_eq_ok.1 h
  have keys_guarded := guarded_of_keyCondition? words
    (fun p hm => named p (List.mem_append_right _ hm)) keys_eq
  obtain ⟨keyTexts, keyValues, -, rfl, -⟩ := keyYields_of_keyCondition? keys_eq
  have filter_guarded := guarded_of_addFilter? words
    (fun p hm => (named p (List.mem_append_left _ hm)).1) (by simp) filter_eq
  have no_or {text : String} (guarded : Guarded ["OR"] text) : ¬StandsOpen " OR " text :=
    guarded.not_standsOpen "OR" (by decide) (by decide) (by decide)
  refine ⟨?condition, ?filter, ?conjuncts⟩
  case condition =>
    intro text hm
    have guarded : Guarded ["OR"] text := by
      rcases keys? with _ | keys <;> rcases filter? with _ | filter
      · cases hm
      · obtain rfl := Option.some.inj hm
        exact (filter_guarded _ rfl).mono (by decide)
      · obtain rfl := Option.some.inj hm
        exact keys_guarded _ rfl
      · obtain rfl := Option.some.inj hm
        exact (keys_guarded _ rfl).append_and ((filter_guarded _ rfl).mono (by decide))
    exact ⟨guarded.balanced, no_or guarded⟩
  case filter =>
    intro text hm
    have guarded := filter_guarded text hm
    refine ⟨guarded.balanced, ?_, no_or (guarded.mono (by decide))⟩
    exact guarded.not_standsOpen "AND" (by decide) (by decide) (by decide)
  case conjuncts =>
    rintro keys ⟨⟩ filter ⟨⟩
    refine ⟨rfl, ?_⟩
    exact conjuncts_append (keys_guarded keys rfl).balanced (filter_guarded filter rfl) (by decide)

/-- The lines of a region, as far as one of two conditions holds of them. -/
def widerRequest : Request where
  alias? := some "t"
  filter? := some (.binary .or
    (.method .startsWith [.property ⟨"Name", .simple .string, none, []⟩, .literal "'a'" .string])
    (.binary .eq (.property ⟨"Status", .simple .string, none, []⟩) (.literal "'open'" .string)))
  keys := [⟨⟨"Region", .simple .string, none, []⟩, "'EU'"⟩]

/-- The condition of the filter of `widerRequest`. -/
def widerCondition : String := "(t.Name LIKE CONCAT(?2,'%') ESCAPE '\\' OR (t.Status = ?3))"

/-- The response to `widerRequest`. -/
def widerResponse : Response where
  select? := some "t"
  keys? := some "t.Region = ?1"
  filter? := some widerCondition
  orderBy? := none
  parameters := (({} : Ledger).bindAll [.string "EU", .string "a", .string "open"]).registry

set_option maxRecDepth 8000 in
/-- The `OR` of the filter stays inside of its parentheses, and the key still restricts both
sides. -/
theorem compile_conjoins_of_widerRequest :
    widerRequest.compile {} none = .ok widerResponse ∧
      (∀ text ∈ widerResponse.condition?, Balanced text ∧ ¬StandsOpen " OR " text) ∧
      (∀ text ∈ widerResponse.filter?,
        Balanced text ∧ ¬StandsOpen " AND " text ∧ ¬StandsOpen " OR " text) ∧
      widerResponse.condition? = some ("t.Region = ?1" ++ " AND " ++ widerCondition) ∧
      conjuncts ("t.Region = ?1" ++ " AND " ++ widerCondition) =
        conjuncts "t.Region = ?1" ++ [widerCondition] := by
  have run : widerRequest.compile {} none = .ok widerResponse := rfl
  have words : (widerRequest.scope {} none).SpellsWords :=
    ⟨rfl, fun table hm => by obtain rfl := Option.some.inj hm; decide, by decide⟩
  have named : ∀ p ∈ widerRequest.conditionProperties, Word p.queryName ∧ Word p.storedName := by
    simp only [Request.conditionProperties, widerRequest, Property.columns, Expression.properties,
      argumentProperties, Option.map_some, Option.getD_some, List.flatMap_cons, List.flatMap_nil]
    decide
  obtain ⟨condition, filter, joined⟩ := Request.compile_conjoins words named run
  exact ⟨run, condition, filter, joined _ rfl _ rfl⟩

end EntityQuery
