import EntityQuery.Proofs.CompositeKeys

/-!
# Ranges of the kinds of integers

The data model declares a range for each kind of integers. Two places decide by it. The encoder
knows a kind by its native type only, which has the declared range for every kind but the unsigned
octet: that one needs the wider type, and with it takes the wider range. The parser looks at the
integer itself, and takes the first kind whose range holds it.

## Main definitions

* `Kind.range?`, `Kind.holds`: the range that is declared for a kind of integers

## Main results

* `exists_valueOf?_iff`: which integers the native type of a kind holds
* `encodeText_integer_iff`: which texts are placed in a query as integers of a kind
* `Literal.leastKind_eq_find?`: the kinds of integers in order
* `Literal.parse_integer_by_range`: the kind of an integer without suffix
-/

namespace EntityQuery

/-! ## Ranges -/

/-- The least and the greatest integer of a kind of integers. -/
def Kind.range? : Kind → Option (Int × Int)
  | .byte => some (0, 255)
  | .sbyte => some (-128, 127)
  | .int16 => some (-32768, 32767)
  | .int32 => some (-2147483648, 2147483647)
  | .int64 => some (-9223372036854775808, 9223372036854775807)
  | _ => none

/-- Whether a kind of integers holds an integer. -/
def Kind.holds (kind : Kind) (z : Int) : Bool :=
  kind.range?.any fun range => range.1 ≤ z && z ≤ range.2

theorem Kind.holds_iff {kind : Kind} {z : Int} :
    kind.holds z ↔ ∃ range, kind.range? = some range ∧ range.1 ≤ z ∧ z ≤ range.2 := by
  simp [holds, Option.any_eq_true]

/-- A text notes one integer, so a kind that does not hold it holds none that the text notes. -/
theorem IntegerText.not_held {text : List Char} {z : Int} (noted : IntegerText text z) {kind : Kind}
    (outside : kind.holds z = false) : ¬∃ z, IntegerText text z ∧ kind.holds z := by
  rintro ⟨z', noted', held⟩
  obtain rfl := noted'.unique noted
  rw [outside] at held
  cases held

theorem bound_8 : (bound 8 : Int) = 128 := rfl

theorem bound_16 : (bound 16 : Int) = 32768 := rfl

theorem bound_32 : (bound 32 : Int) = 2147483648 := rfl

theorem bound_64 : (bound 64 : Int) = 9223372036854775808 := rfl

/-! ## Encoding -/

section Encoding

variable {kind : Kind} {text : String} {z : Int}

theorem exists_ofInt?_map_iff {width : Nat} {wrap : Signed width → Value} :
    (∃ v, (Signed.ofInt? z).map wrap = some v) ↔
      -(bound width : Int) ≤ z ∧ z < (bound width : Int) := by
  unfold Signed.ofInt?
  split <;> simp [*]

/-- The native type of a kind of integers holds what the kind holds; that of the unsigned octet
holds all integers of 16 bits. -/
theorem exists_valueOf?_iff (integral : kind ∈ Kind.integral) {native : NativeType}
    (native_eq : kind.native? = some native) :
    (∃ v, native.valueOf? z = some v) ↔
      kind.holds z ∨ kind = .byte ∧ Kind.int16.holds z := by
  simp only [Kind.integral, List.mem_cons, List.not_mem_nil, or_false] at integral
  rcases integral with rfl | rfl | rfl | rfl | rfl
  all_goals
    obtain rfl := Option.some.inj native_eq
    simp only [NativeType.valueOf?, exists_ofInt?_map_iff, bound_8, bound_16, bound_32, bound_64,
      Kind.holds_iff, Kind.range?, Option.some.injEq, exists_eq_left', reduceCtorEq, true_and,
      false_and, or_false]
    omega

/-- A text is encoded as an integer if it notes one that the native type of the kind holds. -/
theorem encode_integer_iff (integral : kind ∈ Kind.integral) {v : Value} :
    encode text kind none = .ok (.value v) ↔
      ∃ z native, IntegerText text.toList z ∧ kind.native? = some native ∧
        native.valueOf? z = some v := by
  obtain ⟨numeric, native, native_eq, target⟩ := Kind.native?_of_integral integral
  have asked : (none : Option NativeType).or kind.native? = some native := native_eq
  constructor
  · intro encodes
    obtain ⟨z, noted⟩ := integerText_of_encode integral encodes
    exact ⟨z, native, noted, native_eq, (encode_integral_eq_ok numeric asked target noted).1 encodes⟩
  · rintro ⟨z, native', noted, native_eq', value⟩
    obtain rfl : native = native' := Option.some.inj (native_eq.symm.trans native_eq')
    exact (encode_integral_eq_ok numeric asked target noted).2 value

/-- **A kind of integers takes the range of its native type.** A text is placed in a query as an
integer of a kind if and only if it is an optional sign and one digit or more, for an integer in the
range that is declared for the kind; but for the unsigned octet every integer of 16 bits is taken,
which is the range of the native type that it is bound in. What is bound is the integer itself, in
the native type of the kind. -/
theorem encodeText_integer_iff (integral : kind ∈ Kind.integral) (marker text : String)
    (ledger : Ledger) :
    ((∃ placed after, (encodeText marker text kind none).over ledger = (.ok placed, after)) ↔
        ∃ z, IntegerText text.toList z ∧
          (kind.holds z ∨ kind = .byte ∧ Kind.int16.holds z)) ∧
      ∀ {placed : String} {after : Ledger},
        (encodeText marker text kind none).over ledger = (.ok placed, after) →
        ∃ z v, IntegerText text.toList z ∧ after = ledger.bind v ∧
          kind.native? = some v.native ∧ v.integer? = some z := by
  obtain ⟨numeric, native, native_eq, -⟩ := Kind.native?_of_integral integral
  have valued : kind.family ≠ .other := by rw [numeric]; exact nofun
  constructor
  · constructor
    · rintro ⟨placed, after, h⟩
      obtain ⟨v, encodes, -, -⟩ := (over_encodeText_of_valued valued).1 h
      obtain ⟨z, native', noted, native_eq', value⟩ := (encode_integer_iff integral).1 encodes
      exact ⟨z, noted, (exists_valueOf?_iff integral native_eq').1 ⟨v, value⟩⟩
    · rintro ⟨z, noted, held⟩
      obtain ⟨v, value⟩ := (exists_valueOf?_iff integral native_eq).2 held
      have encodes := (encode_integer_iff integral).2 ⟨z, native, noted, native_eq, value⟩
      exact ⟨_, _, (over_encodeText_of_valued valued).2 ⟨v, encodes, rfl, rfl⟩⟩
  · intro placed after h
    obtain ⟨v, encodes, -, rfl⟩ := (over_encodeText_of_valued valued).1 h
    obtain ⟨z, native', noted, native_eq', value⟩ := (encode_integer_iff integral).1 encodes
    obtain ⟨rfl, integer⟩ := NativeType.valueOf?_eq_some value
    exact ⟨z, v, noted, rfl, native_eq', integer⟩

/-- A signed octet takes its least integer, with zeros in front, and refuses the next one. -/
theorem encodeText_integer_iff_of_sbyte :
    (∃ placed after, (encodeText "?" "-00128" .sbyte none).over {} = (.ok placed, after)) ∧
      ¬∃ placed after, (encodeText "?" "-00129" .sbyte none).over {} = (.ok placed, after) := by
  have least : IntegerText "-00128".toList (-128) :=
    IntegerText.minus (by decide) (List.all_eq_true.1 rfl)
  have beyond : IntegerText "-00129".toList (-129) :=
    IntegerText.minus (by decide) (List.all_eq_true.1 rfl)
  have integral : Kind.sbyte ∈ Kind.integral := by decide
  refine ⟨(encodeText_integer_iff integral "?" "-00128" {}).1.2 ⟨_, least, .inl rfl⟩, ?_⟩
  intro taken
  obtain ⟨z, noted, held⟩ := (encodeText_integer_iff integral "?" "-00129" {}).1.1 taken
  obtain rfl := noted.unique beyond
  revert held
  decide

/-- **An unsigned octet is bound out of its range**, above it and below zero. -/
theorem encodeText_exceeds_octet :
    ((encodeText "?" "256" .byte none).over {} =
          (.ok "?1", ({} : Ledger).bind (.short ⟨256, by decide, by decide⟩)) ∧
        ¬∃ z, IntegerText "256".toList z ∧ Kind.byte.holds z) ∧
      (encodeText "?" "-1" .byte none).over {} =
          (.ok "?1", ({} : Ledger).bind (.short ⟨-1, by decide, by decide⟩)) ∧
        ¬∃ z, IntegerText "-1".toList z ∧ Kind.byte.holds z := by
  have above : IntegerText "256".toList 256 :=
    IntegerText.unsigned (by decide) (List.all_eq_true.1 rfl)
  have below : IntegerText "-1".toList (-1) :=
    IntegerText.minus (by decide) (List.all_eq_true.1 rfl)
  exact ⟨⟨rfl, above.not_held rfl⟩, rfl, below.not_held rfl⟩

end Encoding

/-! ## Parsing -/

namespace Literal

/-- The first element that passes a test, or a default, as a chain of tests. -/
theorem getD_find?_cons {α : Type} (p : α → Bool) (a : α) (rest : List α) (default : α) :
    ((a :: rest).find? p).getD default = if p a then a else (rest.find? p).getD default := by
  rw [List.find?_cons]
  split <;> simp [*]

/-- The least kind that holds an integer is the first of the kinds of integers that does, and that
of decimal numbers if none does. -/
theorem leastKind_eq_find? (z : Int) :
    leastKind z = (Kind.integral.find? (·.holds z)).getD .decimal := by
  have half := bound_16
  have word := bound_32
  have wide := bound_64
  unfold leastKind kindOfInteger
  simp only [Kind.integral, getD_find?_cons, List.find?_nil, Option.getD_none, Kind.holds_iff,
    Kind.range?, Option.some.injEq, exists_eq_left']
  -- Both sides are chains of tests, and where their branches differ the tests contradict.
  split_ifs <;> first | rfl | omega

/-- **An integer without suffix is of the first kind that holds it.** An optional sign and one digit
or more are parsed, whatever the number of digits and of zeros in front: the text stays as it is,
and its kind is told by the integer alone, as the first of the kinds of integers whose range holds
it, or that of decimal numbers if it is wider than 64 bits. Signs and digits that note no integer
are refused, and not taken for a wide one. -/
theorem parse_integer_by_range :
    (∀ {text : String} {z : Int}, IntegerText text.toList z →
        parse text = .ok ⟨(Kind.integral.find? (·.holds z)).getD .decimal, text⟩) ∧
      ∀ {text : String} {l : Literal}, (∀ c ∈ text.toList, c = '+' ∨ c = '-' ∨ c.isDigit) →
        parse text = .ok l → ∃ z, IntegerText text.toList z := by
  constructor
  · intro text z noted
    have parsed := parse_integer noted
    rwa [String.ofList_toList, leastKind_eq_find?] at parsed
  · intro text l all h
    rw [← String.ofList_toList (s := text)] at h
    exact integerText_of_parse all h

set_option maxRecDepth 8000 in
/-- One step beyond a range the next kind is taken, zeros in front or not, and two signs are
refused. -/
theorem parse_integer_by_range_of_boundaries :
    parse "-00129" = .ok ⟨.int16, "-00129"⟩ ∧
      parse "-9223372036854775808" = .ok ⟨.int64, "-9223372036854775808"⟩ ∧
      parse "9223372036854775808" = .ok ⟨.decimal, "9223372036854775808"⟩ ∧
      ¬∃ l, parse "+-7" = .ok l := by
  have octet : IntegerText "-00129".toList (-129) :=
    IntegerText.minus (by decide) (List.all_eq_true.1 rfl)
  have least : IntegerText "-9223372036854775808".toList (-9223372036854775808) :=
    IntegerText.minus (by decide) (List.all_eq_true.1 rfl)
  have wide : IntegerText "9223372036854775808".toList 9223372036854775808 :=
    IntegerText.unsigned (by decide) (List.all_eq_true.1 rfl)
  refine ⟨parse_integer_by_range.1 octet, parse_integer_by_range.1 least,
    parse_integer_by_range.1 wide, ?_⟩
  rintro ⟨l, parsed⟩
  have all : ∀ c ∈ "+-7".toList, c = '+' ∨ c = '-' ∨ c.isDigit := by simp
  obtain ⟨z, noted⟩ := parse_integer_by_range.2 all parsed
  cases noted.readInteger_eq

end Literal

end EntityQuery
