import EntityQuery.Literal.Uri
import EntityQuery.Proofs.Integers

/-!
# Literals that are rendered

A literal that is parsed can be rendered again, though often in another spelling: names of kinds
come in one case, an integer of more than 64 bits gets the suffix of decimal numbers, a number with
an exponent that of doubles. The parser finds the same kind and the same plain text in either
spelling. What a plain text must be for its kind is the same for all spellings, and is all that
rendering needs.

## Main definitions

* `Literal.Wellformed`: a kind with a plain text of that kind

## Main results

* `Literal.wellformed_of_parse`: what is parsed is well-formed
* `Literal.Wellformed.parse_render`: what is well-formed is parsed from its rendering
* `Literal.parse_render_of_parse`: rendering undoes parsing
-/

namespace EntityQuery

namespace Literal

/-! ## Well-formed literals -/

/-- A text of characters of numbers, at least one. -/
structure Numeric (body : List Char) : Prop where
  nonempty : body ≠ []
  all : ∀ c ∈ body, isNumeric c

/-- What the parser asks of the text of a number. -/
theorem Numeric.shaped {body : List Char} (numeric : Numeric body) :
    (body.isEmpty || !body.all isNumeric) = false := by
  rw [List.isEmpty_eq_false_iff.2 numeric.nonempty, List.all_eq_true.2 numeric.all]
  rfl

/-- A kind with a plain text of that kind. Texts of numbers have no characters but those that the
suffix of another number may follow. -/
inductive Wellformed : Literal → Prop
  | null : Wellformed ⟨.null, "null"⟩
  | boolean {word : String} (keyword : word = "true" ∨ word = "false") : Wellformed ⟨.boolean, word⟩
  | string (text : String) : Wellformed ⟨.string, text⟩
  | binary {inner : List Char} {data : List UInt8} (read : Hex.decode inner = .ok data) :
      Wellformed ⟨.binary, String.ofList inner⟩
  | dateTime {inner : List Char} {moment : Moment}
      (read : Temporal.readMoment (String.ofList inner) = .ok moment) :
      Wellformed ⟨.dateTime, String.ofList inner⟩
  | dateTimeOffset {inner : List Char} {moment : OffsetMoment}
      (read : Temporal.readOffsetMoment (String.ofList inner) = .ok moment) :
      Wellformed ⟨.dateTimeOffset, String.ofList inner⟩
  | time {inner : List Char} {clock : Clock}
      (read : Temporal.readClock (String.ofList inner) = .ok clock) :
      Wellformed ⟨.time, String.ofList inner⟩
  | guid {inner : List Char} (read : Guid.check inner = .ok ()) :
      Wellformed ⟨.guid, String.ofList inner⟩
  /-- An integer of at most 64 bits. -/
  | integer {body : List Char} (n : Signed 64) (noted : IntegerText body n.val) :
      Wellformed ⟨kindOfInteger n.val, String.ofList body⟩
  /-- An integer that is wide by its suffix. -/
  | int64 {body : List Char} (n : Signed 64) (noted : IntegerText body n.val) :
      Wellformed ⟨.int64, String.ofList body⟩
  | decimal {body : List Char} {d : Decimal} (numeric : Numeric body)
      (read : Decimal.read body = .ok d) : Wellformed ⟨.decimal, String.ofList body⟩
  | double {body : List Char} {x : Floating} (numeric : Numeric body)
      (read : Floating.read .double body = .ok x) : Wellformed ⟨.double, String.ofList body⟩
  | single {body : List Char} {x : Floating} (numeric : Numeric body)
      (read : Floating.read .single body = .ok x) : Wellformed ⟨.single, String.ofList body⟩

/-! ## Parsed literals -/

theorem expect_eq_ok {α β : Type} {text : List Char} {kind kind' : Kind} {fault : α → Fault}
    {read : Except α β} :
    expect text kind fault read = .ok kind' ↔ (∃ b, read = .ok b) ∧ kind = kind' := by
  cases read <;> simp [expect]

/-- A text in quotes is of the kind that its name stands for. -/
theorem wellformed_of_kindOfName {literal name inner : List Char} {kind : Kind}
    (h : kindOfName literal name inner = .ok kind) : Wellformed ⟨kind, String.ofList inner⟩ := by
  unfold kindOfName at h
  simp only at h
  split at h
  · obtain ⟨⟨data, read⟩, rfl⟩ := expect_eq_ok.1 h
    exact .binary read
  split at h
  · obtain ⟨moment, read, rfl⟩ := map_eq_ok.1 h
    exact .dateTime read
  split at h
  · obtain ⟨moment, read, rfl⟩ := map_eq_ok.1 h
    exact .dateTimeOffset read
  split at h
  · obtain ⟨clock, read, rfl⟩ := map_eq_ok.1 h
    exact .time read
  split at h
  · obtain ⟨⟨_, read⟩, rfl⟩ := expect_eq_ok.1 h
    exact .guid read
  · cases h

/-- A number with a suffix is of the kind that the suffix demands. -/
theorem wellformed_of_suffixedKind {literal body : List Char} {suffix : Char} {kind : Kind}
    (numeric : Numeric body) (h : suffixedKind literal body suffix = .ok kind) :
    Wellformed ⟨kind, String.ofList body⟩ := by
  unfold suffixedKind at h
  split at h
  · obtain ⟨⟨n, read⟩, rfl⟩ := expect_eq_ok.1 h
    exact .int64 n (.of_read read)
  · obtain ⟨⟨d, read⟩, rfl⟩ := expect_eq_ok.1 h
    exact .decimal numeric read
  · obtain ⟨⟨x, read⟩, rfl⟩ := expect_eq_ok.1 h
    exact .double numeric read
  · obtain ⟨⟨x, read⟩, rfl⟩ := expect_eq_ok.1 h
    exact .single numeric read
  · cases h

theorem decimalKind?_eq_some {body : List Char} {kind : Kind} :
    decimalKind? body = some kind ↔ (∃ d, Decimal.read body = .ok d) ∧ .decimal = kind := by
  unfold decimalKind?
  cases Decimal.read body <;> simp

/-- A number without suffix is of the least kind that holds it. -/
theorem wellformed_of_unsuffixedKind? {body : List Char} {kind : Kind} (numeric : Numeric body)
    (h : unsuffixedKind? body = some kind) : Wellformed ⟨kind, String.ofList body⟩ := by
  unfold unsuffixedKind? at h
  split at h
  · split at h
    · rename_i x read
      obtain rfl := Option.some.inj h
      exact .double numeric read
    · cases h
  split at h
  · obtain ⟨⟨d, read⟩, rfl⟩ := decimalKind?_eq_some.1 h
    exact .decimal numeric read
  split at h
  · rename_i n read
    obtain rfl := Option.some.inj h
    exact .integer n (.of_read read)
  · obtain ⟨⟨d, read⟩, rfl⟩ := decimalKind?_eq_some.1 h
    exact .decimal numeric read

theorem wellformed_of_parseNumber {literal : List Char} {l : Literal}
    (h : parseNumber literal = .ok l) : l.Wellformed := by
  unfold parseNumber at h
  simp only at h
  split at h
  · cases h
  · rename_i wellshaped
    have numeric : Numeric (cutSuffix literal).1 := by
      simp only [Bool.or_eq_true, Bool.not_eq_true', not_or, List.isEmpty_iff, Bool.not_eq_false,
        List.all_eq_true] at wellshaped
      exact ⟨wellshaped.1, wellshaped.2⟩
    obtain ⟨kind, kind_eq, rfl⟩ := map_eq_ok.1 h
    split at kind_eq
    · exact wellformed_of_suffixedKind numeric kind_eq
    · split at kind_eq
      · rename_i kind' found
        obtain rfl := Except.ok.inj kind_eq
        exact wellformed_of_unsuffixedKind? numeric found
      · cases kind_eq

/-- What is parsed is well-formed. -/
theorem wellformed_of_parse {text : String} {l : Literal} (h : parse text = .ok l) :
    l.Wellformed := by
  unfold parse at h
  split at h
  · rename_i null
    obtain rfl := Except.ok.inj h
    rw [null]
    exact .null
  split at h
  · rename_i keyword
    obtain rfl := Except.ok.inj h
    exact .boolean keyword
  unfold parseChars at h
  split at h
  · obtain rfl := Except.ok.inj h
    exact .string _
  · obtain ⟨kind, kind_eq, rfl⟩ := map_eq_ok.1 h
    exact wellformed_of_kindOfName kind_eq
  · exact wellformed_of_parseNumber h

/-! ## Rendered literals -/

/-- A text that is no keyword is parsed by its form. -/
theorem parse_ofList {chars : List Char} (free : ∀ word ∈ ["null", "true", "false"],
    chars ≠ word.toList) : parse (String.ofList chars) = parseChars chars := by
  have differs : ∀ word ∈ ["null", "true", "false"], String.ofList chars ≠ word := by
    intro word hm same
    exact free word hm (by rw [← same, String.toList_ofList])
  have keyword : ¬(String.ofList chars = "true" ∨ String.ofList chars = "false") :=
    not_or.2 ⟨differs "true" (by simp), differs "false" (by simp)⟩
  rw [parse, if_neg (differs "null" (by simp)), if_neg keyword, String.toList_ofList]

/-- No keyword has a quote. -/
theorem ne_keyword_of_quote {chars : List Char} (quoted : Text.quote ∈ chars) :
    ∀ word ∈ ["null", "true", "false"], chars ≠ word.toList := by
  have free : ∀ word ∈ ["null", "true", "false"], Text.quote ∉ word.toList := by decide
  rintro word hm rfl
  exact free word hm quoted

/-- What stands in quotes is found, whatever it is. -/
theorem quoted?_quotes (inner : List Char) :
    quoted? (Text.quote :: inner ++ [Text.quote]) = some inner := by
  simp [quoted?, Text.inside?]

theorem quoted?_eq_none {c : Char} (h : c ≠ Text.quote) (rest : List Char) :
    quoted? (c :: rest) = none := by
  simp only [quoted?, Text.inside?, beq_eq_false_iff_ne.2 h, Bool.false_and]
  split <;> rfl

/-- A text in quotes behind a name is read as the kind that the name stands for. -/
theorem parse_named {name : List Char} (nonempty : name ≠ []) (free : Text.quote ∉ name)
    (inner : List Char) :
    parse (String.ofList (name ++ Text.quote :: inner ++ [Text.quote])) =
      (kindOfName (name ++ Text.quote :: inner ++ [Text.quote]) name inner).map
        (⟨·, String.ofList inner⟩) := by
  have cut : named? (name ++ Text.quote :: inner ++ [Text.quote]) = some (name, inner) := by
    have here : Text.cut? [Text.quote] (Text.quote :: (inner ++ [Text.quote])) =
        some ([], inner ++ [Text.quote]) := by
      simp [Text.cut?]
    rw [named?, List.append_assoc, List.cons_append, Text.cut?_append_of_not_mem free, here]
    simp [nonempty]
  have unquoted : quoted? (name ++ Text.quote :: inner ++ [Text.quote]) = none := by
    obtain ⟨c, rest, rfl⟩ := List.exists_cons_of_ne_nil nonempty
    exact quoted?_eq_none (fun same => free (by simp [same])) _
  rw [parse_ofList (ne_keyword_of_quote (by simp)), parseChars, unquoted, cut]

/-- What starts as a number is read as a number. -/
theorem parse_number {body rest : List Char} (numeric : Numeric body) (free : Text.quote ∉ rest) :
    parse (String.ofList (body ++ rest)) = parseNumber (body ++ rest) := by
  obtain ⟨c, chars, rfl⟩ := List.exists_cons_of_ne_nil numeric.nonempty
  have head := numeric.all c List.mem_cons_self
  have quote_free : Text.quote ∉ c :: chars ++ rest := by
    intro hm
    rcases List.mem_append.1 hm with hm | hm
    · exact absurd (numeric.all _ hm) (by decide)
    · exact free hm
  have not_keyword : ∀ word ∈ ["null", "true", "false"], c :: chars ++ rest ≠ word.toList := by
    have letters : ∀ word ∈ ["null", "true", "false"], word.toList.head?.all (!isNumeric ·) := by
      decide
    intro word hm same
    have letter := letters word hm
    rw [← same] at letter
    simp [head] at letter
  have uncut : Text.cut? [Text.quote] (c :: chars ++ rest) = none := by
    rw [← List.append_nil (c :: chars ++ rest), Text.cut?_append_of_not_mem quote_free]
    rfl
  have unnamed : named? (c :: chars ++ rest) = none := by rw [named?, uncut]
  have unquoted : quoted? (c :: chars ++ rest) = none :=
    quoted?_eq_none (fun same => quote_free (by simp [same])) _
  rw [parse_ofList not_keyword, parseChars, unquoted, unnamed]

/-- A number with a suffix is read as the suffix demands. -/
theorem parse_suffixed {body : List Char} (numeric : Numeric body) {suffix : Char}
    (letter : suffix.isAlpha) :
    parse (String.ofList (body ++ [suffix])) =
      (suffixedKind (body ++ [suffix]) body suffix).map (⟨·, String.ofList body⟩) := by
  have cut : cutSuffix (body ++ [suffix]) = (body, some suffix) := by
    simp [cutSuffix, letter]
  have free : Text.quote ∉ [suffix] := by
    rintro hm
    rw [← List.mem_singleton.1 hm] at letter
    exact absurd letter (by decide)
  rw [parse_number numeric free, parseNumber]
  simp only [cut, numeric.shaped]
  rfl

/-! ## Integers without suffix -/

theorem isAlpha_of_isDigit {c : Char} (h : c.isDigit) : c.isAlpha = false := by
  have digit : (decide (48 ≤ c.val) && decide (c.val ≤ 57)) = true := h
  show (decide (65 ≤ c.val ∧ c.val ≤ 90) || (decide (97 ≤ c.val) && decide (c.val ≤ 122))) = false
  grind

/-- The least kind that holds an integer of any size. -/
def leastKind (z : Int) : Kind :=
  if -(bound 64 : Int) ≤ z ∧ z < (bound 64 : Int) then kindOfInteger z else .decimal

theorem leastKind_of_signed (n : Signed 64) : leastKind n.val = kindOfInteger n.val :=
  if_pos ⟨n.lower, n.upper⟩

section Integers

variable {body : List Char} {z : Int}

theorem numeric_of_sign_or_digit (nonempty : body ≠ [])
    (all : ∀ c ∈ body, c = '+' ∨ c = '-' ∨ c.isDigit) : Numeric body where
  nonempty := nonempty
  all := by
    intro c hc
    rcases all c hc with rfl | rfl | digit
    · decide
    · decide
    · simp [isNumeric, digit]

theorem numeric_of_integerText (h : IntegerText body z) : Numeric body :=
  numeric_of_sign_or_digit h.ne_nil fun _ hc => h.sign_or_digit hc

/-- Signs and digits are a number without suffix, or nothing at all. -/
theorem parse_of_sign_or_digit (nonempty : body ≠ [])
    (all : ∀ c ∈ body, c = '+' ∨ c = '-' ∨ c.isDigit) :
    parse (String.ofList body) = match unsuffixedKind? body with
      | some kind => .ok ⟨kind, String.ofList body⟩
      | none => .error (.malformed (String.ofList body)) := by
  have numeric := numeric_of_sign_or_digit nonempty all
  have cut : cutSuffix body = (body, none) := by
    have no_letter : (body.getLast nonempty).isAlpha = false := by
      rcases all _ (List.getLast_mem nonempty) with plus | minus | digit
      · rw [plus]
        rfl
      · rw [minus]
        rfl
      · exact isAlpha_of_isDigit digit
    simp [cutSuffix, List.getLast?_eq_some_getLast nonempty, no_letter]
  have read := parse_number numeric (List.not_mem_nil (a := Text.quote))
  rw [List.append_nil] at read
  rw [read, parseNumber]
  simp only [cut, numeric.shaped]
  cases unsuffixedKind? body <;> rfl

/-- Without point and exponent, what is no integer of 64 bits may still be a wide one. -/
theorem unsuffixedKind?_of_whole
    (whole : ∀ c ∈ body, c ≠ '.' ∧ Decimal.isExponentMark c = false) :
    unsuffixedKind? body = match (Signed.read body : Except IntegerFault (Signed 64)) with
      | .ok n => some (kindOfInteger n.val)
      | .error _ => decimalKind? body := by
  have no_mark : body.any Decimal.isExponentMark = false :=
    List.any_eq_false.2 fun c hc => by simp [(whole c hc).2]
  have no_point : body.contains '.' = false := by
    rw [List.contains_eq_mem, decide_eq_false_iff_not]
    exact fun hc => (whole _ hc).1 rfl
  rw [unsuffixedKind?, no_mark, no_point]
  rfl

/-- The kind of an integer is told by its value, not by its sign or the zeros in front of it. -/
theorem unsuffixedKind?_of_integerText (h : IntegerText body z) :
    unsuffixedKind? body = some (leastKind z) := by
  rw [unsuffixedKind?_of_whole h.whole, leastKind]
  split
  · rename_i n read
    obtain rfl := h.unique (.of_read read)
    rw [if_pos ⟨n.lower, n.upper⟩]
  · rename_i fault failed
    have wide : ¬(-(bound 64 : Int) ≤ z ∧ z < (bound 64 : Int)) := by
      rintro ⟨lower, upper⟩
      rw [h.read_eq lower upper] at failed
      cases failed
    rw [if_neg wide]
    exact decimalKind?_eq_some.2 ⟨⟨_, h.decimal_eq⟩, rfl⟩

/-- An integer without suffix is of the least kind that holds it. -/
theorem parse_integer (h : IntegerText body z) :
    parse (String.ofList body) = .ok ⟨leastKind z, String.ofList body⟩ := by
  rw [parse_of_sign_or_digit h.ne_nil fun _ hc => h.sign_or_digit hc,
    unsuffixedKind?_of_integerText h]

/-- Signs and digits that are parsed note an integer. -/
theorem integerText_of_parse {l : Literal} (all : ∀ c ∈ body, c = '+' ∨ c = '-' ∨ c.isDigit)
    (h : parse (String.ofList body) = .ok l) : ∃ z, IntegerText body z := by
  have nonempty : body ≠ [] := by
    rintro rfl
    cases h
  have whole : ∀ c ∈ body, c ≠ '.' ∧ Decimal.isExponentMark c = false :=
    fun c hc => whole_of_sign_or_digit (all c hc)
  have free : '_' ∉ body := fun hm => absurd (all _ hm) (by decide)
  rw [parse_of_sign_or_digit nonempty all, unsuffixedKind?_of_whole whole] at h
  cases read : (Signed.read body : Except IntegerFault (Signed 64)) with
  | ok n => exact ⟨n.val, .of_read read⟩
  | error fault =>
    cases wide : readInteger body with
    | ok z => exact ⟨z, .of_readInteger free wide⟩
    | error fault =>
      simp [read, decimalKind?, Decimal.read_of_whole nonempty whole, wide] at h

end Integers

/-- Integers that are rendered without a suffix are those of at most 32 bits. -/
theorem render_kindOfInteger (z : Int) (text : String) :
    kindOfInteger z = .int64 ∨ render (kindOfInteger z) text = text := by
  unfold kindOfInteger
  split_ifs
  · exact .inr rfl
  · exact .inr rfl
  · exact .inr rfl
  · exact .inr rfl
  · exact .inl rfl

/-! ## Rendering and parsing -/

/-- A number is read from its rendering if its suffix demands its kind. -/
theorem parse_append_suffix (suffix : Char) (letter : suffix.isAlpha) {body : List Char}
    (numeric : Numeric body) {kind : Kind}
    (demands : suffixedKind (body ++ [suffix]) body suffix = .ok kind) :
    parse (String.ofList body ++ String.singleton suffix) = .ok ⟨kind, String.ofList body⟩ := by
  have text_eq : String.ofList body ++ String.singleton suffix = String.ofList (body ++ [suffix]) :=
    by simp
  rw [text_eq, parse_suffixed numeric letter, demands]
  rfl

/-- An integer of at most 64 bits may have the suffix of the widest kind. -/
theorem parse_wide {body : List Char} (n : Signed 64) (noted : IntegerText body n.val) :
    parse (render .int64 (String.ofList body)) = .ok ⟨.int64, String.ofList body⟩ := by
  apply parse_append_suffix 'L' (by decide) (numeric_of_integerText noted)
  exact expect_eq_ok.2 ⟨⟨n, noted.read_eq n.lower n.upper⟩, rfl⟩

/-- A text in quotes is read from its rendering if the name in front of it stands for its kind. -/
theorem parse_append_quoted (name : List Char) (nonempty : name ≠ [])
    (free : Text.quote ∉ name) {inner : List Char} {kind : Kind}
    (stands : ∀ literal, kindOfName literal name inner = .ok kind) :
    parse (String.ofList (name ++ [Text.quote]) ++ String.ofList inner ++ "'") =
      .ok ⟨kind, String.ofList inner⟩ := by
  have text_eq : String.ofList (name ++ [Text.quote]) ++ String.ofList inner ++ "'" =
      String.ofList (name ++ Text.quote :: inner ++ [Text.quote]) := by
    simp [Text.quote, ← String.toList_inj]
  rw [text_eq, parse_named nonempty free, stands]
  rfl

/-- A string is rendered in quotes, with every quote in it written twice. -/
theorem render_string (text : String) :
    render .string text =
      String.ofList (Text.quote :: Text.double text.toList ++ [Text.quote]) := by
  show "'" ++ String.ofList (Text.double text.toList) ++ "'" = _
  simp [Text.quote, ← String.toList_inj]

/-- A string is parsed from its rendering, with any quotes in it. -/
theorem parse_render_string (text : String) :
    parse (render .string text) = .ok ⟨.string, text⟩ := by
  rw [render_string, parse_ofList (ne_keyword_of_quote (by simp)), parseChars, quoted?_quotes]
  show Except.ok (⟨.string, String.ofList (Text.undouble (Text.double text.toList))⟩ : Literal) = _
  rw [Text.undouble_double, String.ofList_toList]

/-- What is well-formed is parsed from its rendering. -/
theorem Wellformed.parse_render {l : Literal} (h : l.Wellformed) :
    parse (render l.kind l.text) = .ok l := by
  cases h with
  | null => rfl
  | boolean keyword => rcases keyword with rfl | rfl <;> rfl
  | string text => exact parse_render_string text
  | binary read =>
    apply parse_append_quoted "X".toList (by decide) (by decide)
    exact fun _ => expect_eq_ok.2 ⟨⟨_, read⟩, rfl⟩
  | dateTime read =>
    apply parse_append_quoted "datetime".toList (by decide) (by decide)
    exact fun _ => map_eq_ok.2 ⟨_, read, rfl⟩
  | dateTimeOffset read =>
    apply parse_append_quoted "datetimeoffset".toList (by decide) (by decide)
    exact fun _ => map_eq_ok.2 ⟨_, read, rfl⟩
  | time read =>
    apply parse_append_quoted "time".toList (by decide) (by decide)
    exact fun _ => map_eq_ok.2 ⟨_, read, rfl⟩
  | guid read =>
    apply parse_append_quoted "guid".toList (by decide) (by decide)
    exact fun _ => expect_eq_ok.2 ⟨⟨_, read⟩, rfl⟩
  | integer n noted =>
    rcases render_kindOfInteger n.val _ with wide | same
    · rw [wide]
      exact parse_wide n noted
    · rw [same, parse_integer noted, leastKind_of_signed]
  | int64 n noted => exact parse_wide n noted
  | decimal numeric read =>
    apply parse_append_suffix 'M' (by decide) numeric
    exact expect_eq_ok.2 ⟨⟨_, read⟩, rfl⟩
  | double numeric read =>
    apply parse_append_suffix 'D' (by decide) numeric
    exact expect_eq_ok.2 ⟨⟨_, read⟩, rfl⟩
  | single numeric read =>
    apply parse_append_suffix 'F' (by decide) numeric
    exact expect_eq_ok.2 ⟨⟨_, read⟩, rfl⟩

/-- **Rendering undoes parsing.** Whatever form a literal has, the parser finds the same kind and
the same plain text in its rendering; and it finds any text in the rendering of that text as a
string. -/
theorem parse_render_of_parse :
    (∀ {text : String} {l : Literal}, parse text = .ok l → parse (render l.kind l.text) = .ok l) ∧
      ∀ text : String, parse (render .string text) = .ok ⟨.string, text⟩ := by
  constructor
  · intro text l h
    exact (wellformed_of_parse h).parse_render
  · intro text
    exact (Wellformed.string text).parse_render

set_option maxRecDepth 8000 in
/-- An integer of more than 64 bits gets a suffix, and the kind of octets its shorter name. -/
theorem parse_render_of_wide_integer :
    (parse "9223372036854775808" = .ok ⟨.decimal, "9223372036854775808"⟩ ∧
        parse "9223372036854775808M" = .ok ⟨.decimal, "9223372036854775808"⟩) ∧
      (parse "BINARY'0aFF'" = .ok ⟨.binary, "0aFF"⟩ ∧ parse "X'0aFF'" = .ok ⟨.binary, "0aFF"⟩) ∧
      parse "'it''s'" = .ok ⟨.string, "it's"⟩ := by
  have wide : parse "9223372036854775808" = .ok ⟨.decimal, "9223372036854775808"⟩ := rfl
  have named : parse "BINARY'0aFF'" = .ok ⟨.binary, "0aFF"⟩ := rfl
  exact ⟨⟨wide, parse_render_of_parse.1 wide⟩, ⟨named, parse_render_of_parse.1 named⟩,
    parse_render_of_parse.2 "it's"⟩

end Literal

end EntityQuery
