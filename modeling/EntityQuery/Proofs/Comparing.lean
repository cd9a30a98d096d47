import EntityQuery.Proofs.Agreement
import EntityQuery.Query.Key

/-!
# Keys and filters of one property

A value can be asked for by a key or by a filter that compares the property with `eq`. Both encode
the text of a literal, but they come to that text by ways of their own. A key takes off a pair of
quotes, reads `null` as no value even where it stood in quotes, and asks for the native type of the
property. A filter parses its literal, and asks for the native type of the kind that the literal
declares, whatever the property is mapped to.

## Main definitions

* `Expression.equality`: the filter that compares a property with a literal
* `NativeType.valueOf?`: an integer as a value of a native type
* `Kind.integral`, `NativeType.integral`: the kinds and the native types of integers

## Main results

* `over_equality_eq_ok`, `over_simpleKeyText_eq_ok`: what filters and keys of one property come to
* `encode_integral_eq_ok`: which value an integer becomes
* `Scope.keyName_of_unmapped`: the name that keys have for a property without mapping
* `stringKey_agrees`: the same text in a key and in a filter
* `mappedKey_agrees_iff`: the same integer in a key and in a filter
-/

namespace EntityQuery

/-- The filter that compares a property with a literal. -/
def Expression.equality (p : Property) (literal : String) (kind : Kind) : Expression :=
  .binary .eq (.property p) (.literal literal kind)

/-- Ledgers with one more value differ in that value. -/
theorem Ledger.bind_inj {ledger : Ledger} {v w : Value} :
    ledger.bind v = ledger.bind w ↔ v = w := by
  refine ⟨fun same => ?_, fun same => congrArg ledger.bind same⟩
  have shown := congrArg (fun next : Ledger => next.registry.find? ledger.nextIndex) same
  simp only [Ledger.find?_bind, if_pos] at shown
  exact Option.some.inj shown

variable {scope : Scope} {p : Property} {literal : String} {kind : Kind} {ledger after : Ledger}

/-! ## What filters and keys bind -/

/-- A text of a kind that has values is placed if it is encoded, and binds its value. -/
theorem over_encodeText_of_valued (valued : kind.family ≠ .other) {marker text placed : String}
    {native : Option NativeType} :
    (encodeText marker text kind native).over ledger = (.ok placed, after) ↔
      ∃ v, encode text kind native = .ok (.value v) ∧
        placeholder marker ledger.nextIndex = placed ∧ ledger.bind v = after := by
  rw [over_encodeText_eq_ok]
  constructor
  · rintro ⟨encoded, encodes, rfl, rfl⟩
    obtain ⟨v, rfl⟩ := encode_eq_value valued encodes
    exact ⟨v, encodes, rfl, rfl⟩
  · rintro ⟨v, encodes, rfl, rfl⟩
    exact ⟨_, encodes, rfl, rfl⟩

theorem over_literalText_eq_ok (valued : kind.family ≠ .other) :
    (∃ placed, (literalText scope literal kind).over ledger = (.ok placed, after)) ↔
      ∃ l v, Literal.parse literal = .ok l ∧ encode l.text kind none = .ok (.value v) ∧
        ledger.bind v = after := by
  unfold literalText
  cases parsed : Literal.parse literal with
  | error e => simp
  | ok l =>
    simp only [over_encodeText_of_valued valued, Except.ok.injEq, exists_and_left, exists_eq_left']
    constructor
    · rintro ⟨_, v, encodes, rfl, rfl⟩
      exact ⟨v, encodes, rfl⟩
    · rintro ⟨v, encodes, rfl⟩
      exact ⟨_, v, encodes, rfl, rfl⟩

theorem isNullLiteral_of_valued (valued : kind.family ≠ .other) :
    (Expression.literal literal kind).isNullLiteral = false := by
  rw [Expression.isNullLiteral, beq_eq_false_iff_ne]
  rintro rfl
  exact valued rfl

/-- A stored property is compared with a literal if that is parsed and encoded, in the native type
of the kind that the literal declares. -/
theorem over_equality_eq_ok (simple : p.isComposite = false) (stored : p.isVirtual = false)
    (valued : kind.family ≠ .other) :
    (∃ test, (filterText scope (.equality p literal kind)).over ledger = (.ok test, after)) ↔
      ∃ l v, Literal.parse literal = .ok l ∧ encode l.text kind none = .ok (.value v) ∧
        ledger.bind v = after := by
  have not_composite : compositeProperty? (.property p) = none := by
    simp [compositeProperty?, simple]
  have column : scope.columnText p = .ok (qualify scope.alias? p.queryName) :=
    Scope.columnText_eq_ok.2 ⟨stored, rfl⟩
  rw [← over_literalText_eq_ok valued]
  constructor
  · rintro ⟨test, h⟩
    obtain ⟨lhs, middle, rhs, left, right, -⟩ := (over_binary_eq_ok not_composite rfl).1 h
    rw [filterText, Compile.over_liftM, column] at left
    obtain ⟨-, rfl⟩ := Prod.mk.inj left
    exact ⟨rhs, by rwa [filterText] at right⟩
  · rintro ⟨rhs, right⟩
    have whole : ((Expression.literal literal kind).isNullLiteral && p.isEmbedded) = false := by
      rw [isNullLiteral_of_valued valued, Bool.false_and]
    have compared := comparison_property whole .eq (qualify scope.alias? p.queryName) rhs
    rw [plainComparison] at compared
    refine ⟨_, (over_binary_eq_ok not_composite rfl).2 ⟨_, ledger, rhs, ?_, ?_, compared⟩⟩
    · rw [filterText, Compile.over_liftM, column]
    · rwa [filterText]

/-- Without a mapping a property has one name, whether an alias stands in front of it or not. -/
theorem Scope.keyName_of_unmapped (scope : Scope) (unmapped : p.mapping = none) :
    scope.keyName p = .ok (qualify scope.alias? p.name) := by
  have stored_name : p.storedName = p.name := by
    rw [Property.storedName, unmapped]
    rfl
  have query_name : p.queryName = p.name := by
    rw [Property.queryName, stored_name, unmapped]
    rfl
  refine Scope.keyName_eq_ok.2 ⟨?_, ?_⟩
  · rw [Property.isVirtual, unmapped]
    rfl
  · rw [stored_name, query_name, ite_self]

/-- The text `null` tests a stored property for having no value. Any other text compares it with the
value that the text is encoded to, in the native type of the property. -/
theorem over_simpleKeyText_eq_ok (kind_eq : p.kind? = some kind) (valued : kind.family ≠ .other)
    {text condition : String} :
    (simpleKeyText scope p text).over ledger = (.ok condition, after) ↔
      ∃ target, scope.keyName p = .ok target ∧
        if text = "null" then target ++ " IS null" = condition ∧ ledger = after
        else ∃ v, encode text kind p.native? = .ok (.value v) ∧
          target ++ " = " ++ placeholder scope.settings.marker ledger.nextIndex = condition ∧
          ledger.bind v = after := by
  rw [simpleKeyText, Compile.over_bind, Compile.over_liftM]
  cases named : scope.keyName p with
  | error e => simp
  | ok target =>
    simp only [Except.ok.injEq, exists_eq_left']
    by_cases null : text = "null"
    · rw [if_pos null, if_pos null]
      exact Compile.over_pure_eq_ok
    · rw [if_neg null, if_neg null, kind_eq]
      simp only [Compile.over_bind_eq_ok, Compile.over_pure_eq_ok,
        over_encodeText_of_valued valued]
      constructor
      · rintro ⟨_, _, ⟨v, encodes, rfl, rfl⟩, rfl, rfl⟩
        exact ⟨v, encodes, rfl, rfl⟩
      · rintro ⟨v, encodes, rfl, rfl⟩
        exact ⟨_, _, ⟨v, encodes, rfl, rfl⟩, rfl, rfl⟩

/-- A key of one property compiles as the condition of that property, with its text taken out of the
quotes. -/
theorem over_singleKey_eq_ok (simple : p.isComposite = false) {condition? : Option String} :
    (keyCondition? scope [⟨p, literal⟩]).over ledger = (.ok condition?, after) ↔
      ∃ condition, condition? = some condition ∧
        (simpleKeyText scope p (Text.unquote literal)).over ledger = (.ok condition, after) := by
  rw [keyCondition?_singleton, keyText_of_simple simple, Compile.over_map]
  rcases (simpleKeyText scope p (Text.unquote literal)).over ledger with ⟨e | condition, next⟩
  · simp [Except.map]
  · constructor
    · rintro ⟨⟩
      exact ⟨condition, rfl, rfl⟩
    · rintro ⟨_, rfl, ⟨⟩⟩
      rfl

/-! ## Strings -/

/-- A key takes the quotes off, and leaves what they enclose as it is written there. -/
theorem unquote_render_string (s : String) :
    Text.unquote (Literal.render .string s) = String.ofList (Text.double s.toList) := by
  exact Text.unquote_quotes _

/-- Only `null` is written as `null`. -/
theorem double_eq_null {s : String} :
    String.ofList (Text.double s.toList) = "null" ↔ s = "null" := by
  have free : Text.quote ∉ "null".toList := by decide
  constructor
  · intro same
    have chars : Text.double s.toList = Text.double "null".toList := by
      rw [Text.double_eq_self free, ← same, String.toList_ofList]
    have read := congrArg Text.undouble chars
    rw [Text.undouble_double, Text.undouble_double] at read
    exact String.toList_inj.1 read
  · rintro rfl
    rw [Text.double_eq_self free, String.ofList_toList]

/-- **A key and a filter ask for the same string.** For a property without mapping, a filter that
compares it with a rendered string binds that string as one value. So does a key, if the string has
no quotes in it; but the string `null` is no value for a key, in quotes or not: the property is
tested for `null`, and nothing is bound. -/
theorem stringKey_agrees (simple : p.isComposite = false) (unmapped : p.mapping = none)
    (kind_eq : p.kind? = some .string) (s : String) :
    (∃ test, (filterText scope (.equality p (Literal.render .string s) .string)).over ledger =
        (.ok test, ledger.bind (.string (Text.escape s)))) ∧
      (s = "null" → (keyCondition? scope [⟨p, Literal.render .string s⟩]).over ledger =
        (.ok (some (qualify scope.alias? p.name ++ " IS null")), ledger)) ∧
      (s ≠ "null" → ∃ text, (keyCondition? scope [⟨p, Literal.render .string s⟩]).over ledger =
          (.ok (some (qualify scope.alias? p.name ++ " = " ++
            placeholder scope.settings.marker ledger.nextIndex)), ledger.bind (.string text)) ∧
        (Text.quote ∉ s.toList → text = Text.escape s)) := by
  have stored : p.isVirtual = false := by rw [Property.isVirtual, unmapped]; rfl
  have no_native : p.native? = none := by rw [Property.native?, unmapped]; rfl
  have valued : Kind.string.family ≠ .other := nofun
  have named := scope.keyName_of_unmapped unmapped
  refine ⟨?filter, ?absent, ?given⟩
  case filter =>
    exact (over_equality_eq_ok simple stored valued).2
      ⟨_, _, Literal.parse_render_string s, rfl, rfl⟩
  case absent =>
    intro null
    refine (over_singleKey_eq_ok simple).2 ⟨_, rfl, ?_⟩
    refine (over_simpleKeyText_eq_ok kind_eq valued).2 ⟨_, named, ?_⟩
    rw [if_pos (by rw [unquote_render_string, double_eq_null.2 null])]
    exact ⟨rfl, rfl⟩
  case given =>
    intro not_null
    have not_null' : Text.unquote (Literal.render .string s) ≠ "null" := by
      rwa [unquote_render_string, Ne, double_eq_null]
    refine ⟨Text.escape (Text.unquote (Literal.render .string s)), ?_, fun free => ?_⟩
    · refine (over_singleKey_eq_ok simple).2 ⟨_, rfl, ?_⟩
      refine (over_simpleKeyText_eq_ok kind_eq valued).2 ⟨_, named, ?_⟩
      rw [if_neg not_null', no_native]
      exact ⟨_, rfl, rfl, rfl⟩
    · rw [unquote_render_string, Text.double_eq_self free, String.ofList_toList]

/-- The property of a code, without mapping. -/
def codeProperty : Property := ⟨"Code", .simple .string, none, []⟩

/-- A key and a filter ask for the same code, wildcards and all, and a key that is `null` for
none. -/
theorem stringKey_agrees_of_wildcards :
    (∃ test, (filterText ⟨some "t", {}⟩ (.equality codeProperty "'A_1'" .string)).over {} =
        (.ok test, ({} : Ledger).bind (.string "A\\_1"))) ∧
      (keyCondition? ⟨some "t", {}⟩ [⟨codeProperty, "'A_1'"⟩]).over {} =
        (.ok (some "t.Code = ?1"), ({} : Ledger).bind (.string "A\\_1")) ∧
      (keyCondition? ⟨some "t", {}⟩ [⟨codeProperty, "'null'"⟩]).over {} =
        (.ok (some "t.Code IS null"), {}) := by
  have unmapped : codeProperty.mapping = none := rfl
  obtain ⟨filter, -, given⟩ := stringKey_agrees rfl unmapped rfl "A_1"
  obtain ⟨text, key, same⟩ := given (by decide)
  rw [same (by decide)] at key
  obtain ⟨-, absent, -⟩ := stringKey_agrees rfl unmapped rfl "null"
  exact ⟨filter, key, absent rfl⟩

/-- **A key may ask for another string than a filter.** The string `null` in quotes is no value for
a key, and a quote that is written twice stays twice. -/
theorem stringKey_differs :
    ((filterText ⟨some "t", {}⟩
            (.equality codeProperty (Literal.render .string "null") .string)).over {} =
          (.ok "(t.Code = ?1)", ({} : Ledger).bind (.string "null")) ∧
        (keyCondition? ⟨some "t", {}⟩ [⟨codeProperty, Literal.render .string "null"⟩]).over {} =
          (.ok (some "t.Code IS null"), {}) ∧
        ({} : Ledger).bind (.string "null") ≠ {}) ∧
      (filterText ⟨some "t", {}⟩
            (.equality codeProperty (Literal.render .string "it's") .string)).over {} =
          (.ok "(t.Code = ?1)", ({} : Ledger).bind (.string "it''s")) ∧
        (keyCondition? ⟨some "t", {}⟩ [⟨codeProperty, Literal.render .string "it's"⟩]).over {} =
          (.ok (some "t.Code = ?1"), ({} : Ledger).bind (.string "it''''s")) ∧
        ({} : Ledger).bind (.string "it''s") ≠ ({} : Ledger).bind (.string "it''''s") := by
  refine ⟨⟨rfl, rfl, by decide⟩, rfl, rfl, ?_⟩
  rw [Ne, Ledger.bind_inj]
  decide

/-! ## Integers -/

/-- The kinds of integers. -/
def Kind.integral : List Kind := [.byte, .sbyte, .int16, .int32, .int64]

/-- The native types that hold integers as they are. -/
def NativeType.integral : List NativeType := [.byte, .short, .int, .long, .decimal, .bigInteger]

/-- An integer in a fixed width, if it fits. -/
def Signed.ofInt? {width : Nat} (z : Int) : Option (Signed width) :=
  if fits : -(bound width : Int) ≤ z ∧ z < (bound width : Int) then some ⟨z, fits.1, fits.2⟩
  else none

/-- An integer as a value of a native type, if that type holds it. -/
def NativeType.valueOf? (native : NativeType) (z : Int) : Option Value :=
  match native with
  | .byte => (Signed.ofInt? z).map .byte
  | .short => (Signed.ofInt? z).map .short
  | .int => (Signed.ofInt? z).map .int
  | .long => (Signed.ofInt? z).map .long
  | .decimal => some (.decimal ⟨z, 0⟩)
  | .bigInteger => some (.bigInteger z)
  | _ => none

theorem Signed.ofInt?_eq_some {width : Nat} {z : Int} {n : Signed width} :
    Signed.ofInt? z = some n ↔ n.val = z := by
  unfold Signed.ofInt?
  constructor
  · intro h
    split at h
    · rw [← Option.some.inj h]
    · cases h
  · rintro rfl
    rw [dif_pos ⟨n.lower, n.upper⟩]

/-- A value of a native type tells both the type and the integer. -/
theorem NativeType.valueOf?_eq_some {native : NativeType} {z : Int} {v : Value}
    (h : native.valueOf? z = some v) : v.native = native ∧ v.integer? = some z := by
  cases native
  all_goals simp only [valueOf?, Option.map_eq_some_iff, Option.some.injEq, reduceCtorEq] at h
  case byte | short | int | long =>
    obtain ⟨n, value, rfl⟩ := h
    exact ⟨rfl, congrArg some (Signed.ofInt?_eq_some.1 value)⟩
  case decimal | bigInteger =>
    subst h
    exact ⟨rfl, rfl⟩

theorem readAs_eq_ok {α ε : Type} {text : String} {native : NativeType} {wrap : α → Value}
    {fault : ε → Fault} {read : Except ε α} {v : Value} :
    Encoding.readAs text native wrap fault read = .ok v ↔ ∃ a, read = .ok a ∧ wrap a = v := by
  cases read <;> simp [Encoding.readAs]

section Integers

variable {text : String} {z : Int}

/-- A reader of a fixed width reads the integers that fit. -/
theorem read_eq_ok_iff (noted : IntegerText text.toList z) {width : Nat} {n : Signed width} :
    Signed.read text.toList = .ok n ↔ Signed.ofInt? z = some n := by
  rw [Signed.ofInt?_eq_some]
  constructor
  · intro read
    exact IntegerText.unique (.of_read read) noted
  · rintro rfl
    exact noted.read_eq n.lower n.upper

/-- An integer is encoded as the value that it has in the native type asked for, or else in that of
its kind. -/
theorem encode_integral_eq_ok (numeric : kind.family = .numeric) {native : Option NativeType}
    {target : NativeType} (asked : native.or kind.native? = some target)
    (integral : target ∈ NativeType.integral) (noted : IntegerText text.toList z) {v : Value} :
    encode text kind native = .ok (.value v) ↔ target.valueOf? z = some v := by
  rw [encode, numeric]
  simp only [map_eq_ok, Encoded.value.injEq, exists_eq_right]
  rw [Encoding.numericValue, asked]
  simp only [NativeType.integral, List.mem_cons, List.not_mem_nil, or_false] at integral
  rcases integral with rfl | rfl | rfl | rfl | rfl | rfl
  all_goals simp only [readAs_eq_ok, NativeType.valueOf?, Option.map_eq_some_iff]
  iterate 4 simp only [read_eq_ok_iff noted]
  · simp [noted.decimal_eq]
  · simp [noted.readInteger_eq]

/-- A key leaves the text of an integer as it is. -/
theorem unquote_of_integerText (noted : IntegerText text.toList z) : Text.unquote text = text := by
  apply Text.unquote_eq_self
  intro c hc
  rcases noted.sign_or_digit hc with rfl | rfl | digit
  · rfl
  · rfl
  · rw [Text.isQuote, Bool.or_eq_false_iff, beq_eq_false_iff_ne, beq_eq_false_iff_ne]
    refine ⟨?_, ?_⟩ <;> rintro rfl <;> exact absurd digit (by decide)

theorem ne_null_of_integerText (noted : IntegerText text.toList z) : text ≠ "null" := by
  rintro rfl
  have letter : ¬('n' = '+' ∨ 'n' = '-' ∨ 'n'.isDigit) := by decide
  exact letter (noted.sign_or_digit (by decide))

end Integers

/-- The native types of the kinds of integers hold integers. -/
theorem Kind.native?_of_integral {kind : Kind} (integral : kind ∈ Kind.integral) :
    kind.family = .numeric ∧
      ∃ native, kind.native? = some native ∧ native ∈ NativeType.integral := by
  simp only [Kind.integral, List.mem_cons, List.not_mem_nil, or_false] at integral
  rcases integral with rfl | rfl | rfl | rfl | rfl <;> exact ⟨rfl, _, rfl, by decide⟩

/-- A filter that compares a stored property with an integer binds the value that the integer has in
the native type of the kind declared for it. What the property is mapped to plays no part. -/
theorem over_equality_integer_eq_ok (simple : p.isComposite = false)
    (stored : p.isVirtual = false) (integral : kind ∈ Kind.integral) {z : Int}
    (noted : IntegerText literal.toList z) :
    (∃ test, (filterText scope (.equality p literal kind)).over ledger = (.ok test, after)) ↔
      ∃ native w, kind.native? = some native ∧ native.valueOf? z = some w ∧
        ledger.bind w = after := by
  obtain ⟨numeric, native, native_eq, target⟩ := Kind.native?_of_integral integral
  have valued : kind.family ≠ .other := by rw [numeric]; exact nofun
  have parsed := Literal.parse_integer noted
  rw [String.ofList_toList] at parsed
  have asked : (none : Option NativeType).or kind.native? = some native := native_eq
  rw [over_equality_eq_ok simple stored valued]
  simp [parsed, native_eq, encode_integral_eq_ok numeric asked target noted]

/-- **A key honours the native type of its property, and a filter does not.** If a property of an
integer kind is mapped to a native type of integers, then a key that compiles binds the integer as a
value of that type. A filter binds it in the native type of the kind, if that holds it: the two
agree if and only if the mapped type is the one that the kind has anyway. -/
theorem mappedKey_agrees_iff (simple : p.isComposite = false) (kind_eq : p.kind? = some kind)
    (integral : kind ∈ Kind.integral) {native : NativeType} (mapped : p.native? = some native)
    (target : native ∈ NativeType.integral) {z : Int} (noted : IntegerText literal.toList z)
    {condition : Option String}
    (h : (keyCondition? scope [⟨p, literal⟩]).over ledger = (.ok condition, after)) :
    ∃ v, after = ledger.bind v ∧ native.valueOf? z = some v ∧ v.native = native ∧
      v.integer? = some z ∧
      (∀ after', (∃ test, (filterText scope (.equality p literal kind)).over ledger =
          (.ok test, after')) ↔
        ∃ plain w, kind.native? = some plain ∧ plain.valueOf? z = some w ∧
          ledger.bind w = after') ∧
      ((∃ test, (filterText scope (.equality p literal kind)).over ledger = (.ok test, after)) ↔
        kind.native? = some native) := by
  obtain ⟨numeric, -⟩ := Kind.native?_of_integral integral
  have valued : kind.family ≠ .other := by rw [numeric]; exact nofun
  obtain ⟨text, -, compiled⟩ := (over_singleKey_eq_ok simple).1 h
  obtain ⟨name, named, binds⟩ := (over_simpleKeyText_eq_ok kind_eq valued).1 compiled
  have stored := (Scope.keyName_eq_ok.1 named).1
  rw [unquote_of_integerText noted, if_neg (ne_null_of_integerText noted), mapped] at binds
  obtain ⟨v, encodes, -, rfl⟩ := binds
  have value := (encode_integral_eq_ok numeric rfl target noted).1 encodes
  obtain ⟨native_eq, integer⟩ := NativeType.valueOf?_eq_some value
  refine ⟨v, rfl, value, native_eq, integer, ?filter, ?agree⟩
  case filter =>
    intro after'
    exact over_equality_integer_eq_ok simple stored integral noted
  case agree =>
    rw [over_equality_integer_eq_ok simple stored integral noted]
    constructor
    · rintro ⟨plain, w, plain_eq, plain_value, same⟩
      obtain rfl := Ledger.bind_inj.1 same
      rw [plain_eq, ← native_eq, (NativeType.valueOf?_eq_some plain_value).1]
    · intro same
      exact ⟨native, v, same, value, rfl⟩

/-- The property of a number of 32 bits that is stored in 64. -/
def wideProperty : Property := ⟨"Id", .simple .int32, some { native := some .long }, []⟩

/-- The key of a wide property binds its number in 64 bits, and the filter in 32. -/
theorem mappedKey_agrees_iff_of_wideProperty :
    (keyCondition? ⟨some "t", {}⟩ [⟨wideProperty, "+07"⟩]).over {} =
        (.ok (some "t.Id = ?1"), ({} : Ledger).bind (.long ⟨7, by decide, by decide⟩)) ∧
      ¬∃ test, (filterText ⟨some "t", {}⟩ (.equality wideProperty "+07" .int32)).over {} =
        (.ok test, ({} : Ledger).bind (.long ⟨7, by decide, by decide⟩)) := by
  have noted : IntegerText "+07".toList 7 :=
    IntegerText.plus (by decide) (List.all_eq_true.1 rfl)
  have key : (keyCondition? ⟨some "t", {}⟩ [⟨wideProperty, "+07"⟩]).over {} =
      (.ok (some "t.Id = ?1"), ({} : Ledger).bind (.long ⟨7, by decide, by decide⟩)) := rfl
  refine ⟨key, ?_⟩
  have kind_eq : wideProperty.kind? = some .int32 := rfl
  obtain ⟨v, -, -, -, -, -, agree⟩ :=
    mappedKey_agrees_iff rfl kind_eq (by decide) rfl (by decide) noted key
  rw [agree]
  decide

/-- **The filter leaves the mapped type out.** It binds a number of 32 bits, and not the one of 64
bits that the property is mapped to and that its key binds. -/
theorem equality_ignores_native :
    (keyCondition? ⟨some "t", {}⟩ [⟨wideProperty, "7"⟩]).over {} =
        (.ok (some "t.Id = ?1"), ({} : Ledger).bind (.long ⟨7, by decide, by decide⟩)) ∧
      (filterText ⟨some "t", {}⟩ (.equality wideProperty "7" .int32)).over {} =
        (.ok "(t.Id = ?1)", ({} : Ledger).bind (.int ⟨7, by decide, by decide⟩)) ∧
      ({} : Ledger).bind (.int ⟨7, by decide, by decide⟩) ≠
        ({} : Ledger).bind (.long ⟨7, by decide, by decide⟩) := by
  refine ⟨rfl, rfl, ?_⟩
  rw [Ne, Ledger.bind_inj]
  exact nofun

end EntityQuery
