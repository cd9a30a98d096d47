import EntityQuery.Proofs.Comparing
import EntityQuery.Proofs.Expansion
import EntityQuery.Proofs.Marks

/-!
# Composite keys and composite filters

A composite property can be given by a key or compared by a filter. Both split the same text among
the parts, and have nothing else in common. A key encodes a component as it stands. A filter renders
it as a literal of the kind of the part, parses that literal again, and encodes what the parser
found, whatever kind the parser took it for. For most kinds every text that is encoded is found
again, and then the two bind the same values at the same indexes.

## Main definitions

* `Kind.reread`: the kinds whose texts are found again
* `KeyTest`: the test of one column by a key, between two ledgers

## Main results

* `parse_render_of_encode`: a text that is encoded is parsed from its rendering
* `over_compositeKey_eq_ok`: a composite key compiles where its conditions do, in a row
* `partText_of_keyText`: a part is compared by a filter as by a key
* `compositeKey_agrees`: composite keys and composite filters agree
-/

namespace EntityQuery

/-! ## Texts that are found again -/

/-- The kinds whose texts are parsed from their rendering if they are encoded. The parser refuses
some texts of the others that are encoded, such as a boolean in upper case, a GUID that is not one,
or a number that is not finite. -/
def Kind.reread : List Kind :=
  [.string, .byte, .sbyte, .int16, .int32, .int64, .binary, .dateTime, .dateTimeOffset, .time]

theorem Kind.family_of_reread {kind : Kind} (reread : kind ∈ Kind.reread) :
    kind.family ≠ .other := by
  revert kind
  decide

section Reread

variable {kind : Kind} {text : String} {encoded : Encoded}

/-- A text of a kind of numbers or octets that is encoded is read by the reader of its native
type. -/
theorem read_of_encode {α ε : Type} (reader : List Char → Except ε α) {native : NativeType}
    {wrap : α → Value} {fault : ε → Fault} (family : kind.family = .numeric)
    (reads : ∀ text, Encoding.numericValue text kind none =
      Encoding.readAs text native wrap fault (reader text.toList))
    (h : encode text kind none = .ok encoded) : ∃ a, reader text.toList = .ok a := by
  rw [encode, family] at h
  obtain ⟨v, value, -⟩ := map_eq_ok.1 h
  rw [reads] at value
  obtain ⟨a, read, -⟩ := readAs_eq_ok.1 value
  exact ⟨a, read⟩

/-- The text of a moment that is encoded is read as one. -/
theorem readMoment_of_encode (h : encode text .dateTime none = .ok encoded) :
    ∃ moment, Temporal.readMoment text = .ok moment := by
  cases read : Temporal.readMoment text with
  | ok moment => exact ⟨moment, rfl⟩
  | error fault =>
    simp only [encode, Kind.family, Encoding.instantValue, read] at h
    cases h

theorem readOffsetMoment_of_encode (h : encode text .dateTimeOffset none = .ok encoded) :
    ∃ moment, Temporal.readOffsetMoment text = .ok moment := by
  cases read : Temporal.readOffsetMoment text with
  | ok moment => exact ⟨moment, rfl⟩
  | error fault =>
    simp only [encode, Kind.family, Encoding.instantValue, read] at h
    cases h

theorem readClock_of_encode (h : encode text .time none = .ok encoded) :
    ∃ clock, Temporal.readClock text = .ok clock := by
  cases read : Temporal.readClock text with
  | ok clock => exact ⟨clock, rfl⟩
  | error fault =>
    simp only [encode, Kind.family, Encoding.timeValue, read] at h
    cases h

/-- A text that is rendered with a suffix or in quotes is well-formed if it is encoded. -/
theorem wellformed_of_encode
    (marked : kind ∈ [Kind.string, .int64, .binary, .dateTime, .dateTimeOffset, .time])
    {chars : List Char} (h : encode (String.ofList chars) kind none = .ok encoded) :
    Literal.Wellformed ⟨kind, String.ofList chars⟩ := by
  simp only [List.mem_cons, List.not_mem_nil, or_false] at marked
  rcases marked with rfl | rfl | rfl | rfl | rfl | rfl
  · exact .string _
  · obtain ⟨n, read⟩ := read_of_encode (@Signed.read 64) rfl (fun _ => rfl) h
    rw [String.toList_ofList] at read
    exact .int64 n (.of_read read)
  · obtain ⟨data, read⟩ := read_of_encode Hex.decode rfl (fun _ => rfl) h
    rw [String.toList_ofList] at read
    exact .binary read
  · obtain ⟨moment, read⟩ := readMoment_of_encode h
    exact .dateTime read
  · obtain ⟨moment, read⟩ := readOffsetMoment_of_encode h
    exact .dateTimeOffset read
  · obtain ⟨clock, read⟩ := readClock_of_encode h
    exact .time read

/-- A kind of integers has the texts of integers. -/
theorem integerText_of_encode (integral : kind ∈ Kind.integral)
    (h : encode text kind none = .ok encoded) : ∃ z, IntegerText text.toList z := by
  simp only [Kind.integral, List.mem_cons, List.not_mem_nil, or_false] at integral
  rcases integral with rfl | rfl | rfl | rfl | rfl
  all_goals
    obtain ⟨n, read⟩ := read_of_encode Signed.read rfl (fun _ => rfl) h
    exact ⟨n.val, .of_read read⟩

/-- A text that is encoded is parsed from its rendering, though not always as the same kind: an
integer is taken for the least kind that holds it. -/
theorem parse_render_of_encode (reread : kind ∈ Kind.reread)
    (h : encode text kind none = .ok encoded) :
    ∃ l, Literal.parse (Literal.render kind text) = .ok l ∧ l.text = text := by
  have forms : ∀ kind ∈ Kind.reread, kind ∈ [Kind.byte, .sbyte, .int16, .int32] ∨
      kind ∈ [Kind.string, .int64, .binary, .dateTime, .dateTimeOffset, .time] := by decide
  rcases forms kind reread with narrow | marked
  · have integral : kind ∈ Kind.integral := List.mem_of_mem_take (i := 4) narrow
    obtain ⟨z, noted⟩ := integerText_of_encode integral h
    have parsed := Literal.parse_integer noted
    rw [String.ofList_toList] at parsed
    have same : Literal.render kind text = text := by
      simp only [List.mem_cons, List.not_mem_nil, or_false] at narrow
      rcases narrow with rfl | rfl | rfl | rfl <;> rfl
    exact ⟨_, by rw [same, parsed], rfl⟩
  · rw [← String.ofList_toList (s := text)] at h ⊢
    exact ⟨_, (wellformed_of_encode marked h).parse_render, rfl⟩

end Reread

/-! ## Parts that are named as they are -/

/-- A part that has no parts and no mapping of its own, and texts that are found again. -/
structure PlainPart (part : Property) : Prop where
  simple : part.isComposite = false
  unmapped : part.mapping = none
  reread : ∃ kind ∈ Kind.reread, part.kind? = some kind

variable {scope : Scope} {p owner part : Property} {before next ledger after : Ledger}
  {condition : String}

namespace PlainPart

theorem columnText_eq (plain : PlainPart part) :
    scope.columnText part = .ok (qualify scope.alias? part.name) := by
  refine Scope.columnText_eq_ok.2 ⟨?_, ?_⟩
  · rw [Property.isVirtual, plain.unmapped]
    rfl
  · rw [Property.queryName, Property.storedName, plain.unmapped]
    rfl

theorem keyName_eq (plain : PlainPart part) :
    scope.keyName part = .ok (qualify scope.alias? part.name) :=
  scope.keyName_of_unmapped plain.unmapped

theorem native?_eq (plain : PlainPart part) : part.native? = none := by
  rw [Property.native?, plain.unmapped]
  rfl

theorem isEmbedded_eq (plain : PlainPart part) : part.isEmbedded = false := by
  rw [Property.isEmbedded, plain.unmapped]
  rfl

theorem nullTarget_eq (plain : PlainPart part) :
    nullTarget scope part = .ok (qualify scope.alias? part.name) := by
  rw [nullTarget, plain.columnText_eq]
  show leftText (.property part) .nullLiteral _ = _
  simp only [leftText, plain.isEmbedded_eq, Bool.and_false]
  rfl

end PlainPart

/-! ## Tests of one column -/

/-- The test of the column of a part by a key, over one ledger, and the ledger after it. -/
inductive KeyTest (scope : Scope) (part : Property) (ledger : Ledger) : String → Ledger → Prop
  /-- The column has no value, and nothing is bound. -/
  | absent : KeyTest scope part ledger (qualify scope.alias? part.name ++ " IS null") ledger
  /-- The column has the value that is bound at the next index. -/
  | given (v : Value) :
    KeyTest scope part ledger
      (qualify scope.alias? part.name ++ " = "
        ++ placeholder scope.settings.marker ledger.nextIndex)
      (ledger.bind v)

/-- A part is tested for `null` by a key without a component, and else a component that is not in
quotes is encoded as it stands. -/
theorem over_keyText_eq_ok (plain : PlainPart part) {kind : Kind} (reread : kind ∈ Kind.reread)
    (kind_eq : part.kind? = some kind) {token : String} (bare : Text.unquote token = token)
    (h : (keyText scope part token).over before = (.ok condition, next)) :
    if token = "null" then qualify scope.alias? part.name ++ " IS null" = condition ∧ before = next
    else ∃ v, encode token kind none = .ok (.value v) ∧
      qualify scope.alias? part.name ++ " = "
        ++ placeholder scope.settings.marker before.nextIndex = condition ∧
      before.bind v = next := by
  rw [keyText_of_simple plain.simple, bare] at h
  obtain ⟨target, named, outcome⟩ :=
    (over_simpleKeyText_eq_ok kind_eq (Kind.family_of_reread reread)).1 h
  obtain rfl := Except.ok.inj (plain.keyName_eq.symm.trans named)
  rwa [plain.native?_eq] at outcome

/-- **A part is compared by a filter as by a key.** The filter puts the test in parentheses. -/
theorem partText_of_keyText (plain : PlainPart part) {slot : Option String}
    (given : ∀ token, slot = some token →
      token ≠ "null" ∧ ∀ c ∈ token.toList, Text.isQuote c = false)
    (h : (keyText scope part (slot.getD "null")).over before = (.ok condition, next)) :
    KeyTest scope part before condition next ∧
      (partText scope .eq owner part slot).over before = (.ok ("(" ++ condition ++ ")"), next) := by
  obtain ⟨kind, reread, kind_eq⟩ := plain.reread
  cases slot with
  | none =>
    have outcome := over_keyText_eq_ok plain reread kind_eq (by decide) h
    rw [Option.getD_none, if_pos rfl] at outcome
    obtain ⟨rfl, rfl⟩ := outcome
    refine ⟨.absent, partText_eq_ok.2 ⟨_, rfl, ?_⟩⟩
    rw [over_directText_null, plain.nullTarget_eq]
    show (plainComparison .eq _ "null", before) = _
    rw [plainComparison_null rfl]
    simp [nullTest, ← String.toList_inj]
  | some token =>
    obtain ⟨not_null, free⟩ := given token rfl
    have outcome := over_keyText_eq_ok plain reread kind_eq (Text.unquote_eq_self free) h
    rw [if_neg not_null] at outcome
    obtain ⟨v, encodes, rfl, rfl⟩ := outcome
    refine ⟨.given v, partText_eq_ok.2 ⟨_, congrArg (Option.map _) kind_eq, ?_⟩⟩
    obtain ⟨l, parsed, text_eq⟩ := parse_render_of_encode reread encodes
    have placed : (filterText scope (.literal (Literal.render kind token) kind)).over before =
        (.ok (placeholder scope.settings.marker before.nextIndex), before.bind v) := by
      rw [filterText, literalText, parsed]
      simp only [text_eq]
      exact over_encodeText_eq_ok.2 ⟨_, encodes, rfl, rfl⟩
    have compared : plainComparison .eq (qualify scope.alias? part.name)
        (placeholder scope.settings.marker before.nextIndex) =
          .ok ("(" ++ (qualify scope.alias? part.name ++ " = "
            ++ placeholder scope.settings.marker before.nextIndex) ++ ")") := by
      refine plainComparison_eq_ok.2 ⟨"=", rfl, ?_⟩
      rw [tokenBefore, if_neg (placeholder_ne_null _ _)]
      simp [← String.toList_inj]
    refine over_directText_property_eq_ok.2 ⟨_, _, plain.columnText_eq, placed, ?_⟩
    rw [comparison_property (by rw [plain.isEmbedded_eq, Bool.and_false]), compared]

/-! ## Composite properties -/

theorem keyPartTexts_eq_ok {parts : List Property} {slots : List (Option String)}
    {conditions : List String} :
    (keyPartTexts scope parts slots).over ledger = (.ok conditions, after) ↔
      Successive (fun entry => keyText scope entry.1 (entry.2.getD "null")) ledger
        (parts.zip slots) conditions after := by
  refine Successive.of_loop ?stop (fun _ _ _ _ => by rw [keyPartTexts]) parts slots
  case stop =>
    intro parts slots ended
    rw [keyPartTexts]
    rintro part parts' slot slots' rfl rfl
    simp at ended

/-- A key of one composite property compiles where its conditions do, in a row. -/
theorem over_compositeKey_eq_ok (composite : p.isComposite = true) {literal : String}
    {condition? : Option String} :
    (keyCondition? scope [⟨p, literal⟩]).over ledger = (.ok condition?, after) ↔
      ∃ conditions, Successive (fun entry => keyText scope entry.1 (entry.2.getD "null")) ledger
          (p.parts.zip (slots scope.settings.separator (Text.unquote literal) p.parts.length))
          conditions after ∧
        condition? = some ("(" ++ conjunction conditions ++ ")") := by
  rw [keyCondition?_singleton, map_eq_pure_bind, keyText_of_composite composite]
  simp only [Compile.over_bind_eq_ok, Compile.over_pure_eq_ok, keyPartTexts_eq_ok]
  constructor
  · rintro ⟨_, _, ⟨conditions, _, row, rfl, rfl⟩, rfl, rfl⟩
    exact ⟨conditions, row, rfl⟩
  · rintro ⟨conditions, row, rfl⟩
    exact ⟨_, after, ⟨conditions, after, row, rfl, rfl⟩, rfl, rfl⟩

/-- The composite text of a string without quotes is that string. -/
theorem compositeValue_quotes {text : String} (free : ∀ c ∈ text.toList, Text.isQuote c = false) :
    compositeValue ("'" ++ text ++ "'") = text := by
  have single : Text.quote ∉ text.toList := by
    intro quoted
    exact absurd (free _ quoted) (by decide)
  have rendered : "'" ++ text ++ "'" = Literal.render .string text := by
    show _ = "'" ++ String.ofList (Text.double text.toList) ++ "'"
    rw [Text.double_eq_self single, String.ofList_toList]
  rw [compositeValue, rendered, Literal.parse_render_string]

/-- **Composite keys and composite filters agree.** For parts of most kinds that have no mapping, a
string without quotes that compiles as a key compiles as a filter as well, whatever kind is declared
for it. The two bind the same values at the same indexes, and the conjuncts of the filter are the
conditions of the key in parentheses, in the order of the parts: a column that is `null`, or the
placeholder of the value that is bound for it. -/
theorem compositeKey_agrees (composite : p.isComposite = true)
    (plain : ∀ part ∈ p.parts, PlainPart part) {text : String}
    (free : ∀ c ∈ text.toList, Text.isQuote c = false) (declared : Kind)
    {condition? : Option String}
    (h : (keyCondition? scope [⟨p, "'" ++ text ++ "'"⟩]).over ledger = (.ok condition?, after)) :
    ∃ conditions, condition? = some ("(" ++ conjunction conditions ++ ")") ∧
      (filterText scope (.equality p ("'" ++ text ++ "'") declared)).over ledger =
        (.ok ("(" ++ conjunction (conditions.map fun condition => "(" ++ condition ++ ")") ++ ")"),
          after) ∧
      conditions.length = p.parts.length ∧
      ∃ ledgers : Nat → Ledger, ledgers 0 = ledger ∧ ledgers p.parts.length = after ∧
        ∀ (i : Nat) (part : Property), p.parts[i]? = some part → ∃ condition,
          conditions[i]? = some condition ∧
            KeyTest scope part (ledgers i) condition (ledgers (i + 1)) := by
  obtain ⟨conditions, row, rfl⟩ := (over_compositeKey_eq_ok composite).1 h
  rw [Text.unquote_quotes] at row
  have step : ∀ part ∈ p.parts, ∀ slot ∈ slots scope.settings.separator text p.parts.length,
      ∀ {condition before next},
        (keyText scope part (slot.getD "null")).over before = (.ok condition, next) →
        KeyTest scope part before condition next ∧
          (partText scope .eq p part slot).over before = (.ok ("(" ++ condition ++ ")"), next) := by
    intro part part_mem slot slot_mem condition before next run
    refine partText_of_keyText (plain part part_mem) ?_ run
    rintro token rfl
    obtain ⟨component, not_null⟩ := mem_slots slot_mem
    exact ⟨not_null, fun c hc => free c (Text.mem_of_mem_split component hc)⟩
  refine ⟨conditions, rfl, ?filter, ?tests⟩
  case filter =>
    rw [Expression.equality, filterText_composite composite]
    refine compositeText_eq_ok.2 ⟨_, ?_, rfl⟩
    rw [compositeValue_quotes free]
    refine row.map fun entry mem _ _ _ run => ?_
    obtain ⟨part_mem, slot_mem⟩ := List.of_mem_zip (a := entry.1) (b := entry.2) mem
    exact (step _ part_mem _ slot_mem run).2
  case tests =>
    obtain ⟨length_eq, ledgers, first, last, each⟩ := row.exists_ledgers_of_slots
    refine ⟨length_eq, ledgers, first, last, ?_⟩
    intro i part part_eq
    obtain ⟨condition, condition_eq, run⟩ := each i part part_eq
    obtain ⟨inside, -⟩ := List.getElem?_eq_some_iff.1 part_eq
    have slot_mem : component? (Text.split scope.settings.separator text) i ∈
        slots scope.settings.separator text p.parts.length := by
      rw [slots_eq_map]
      exact List.mem_map.2 ⟨i, List.mem_range.2 inside, rfl⟩
    exact ⟨condition, condition_eq, (step part (List.mem_of_getElem? part_eq) _ slot_mem run).1⟩

/-- The key of a batch: its number, its code and the moment at which it was made. -/
def batchKey : Property :=
  ⟨"Key", .simple .string, none, [⟨"Batch", .simple .int64, none, []⟩,
    ⟨"Code", .simple .string, none, []⟩, ⟨"Made", .simple .dateTime, none, []⟩]⟩

/-- The ledger of the number and the code of a batch. -/
def batchLedger : Ledger :=
  ({} : Ledger).bindAll [.long ⟨-7, by decide, by decide⟩, .string "A\\_1"]

theorem plain_batchKey : ∀ part ∈ batchKey.parts, PlainPart part := by
  have parts_eq : batchKey.parts = [⟨"Batch", .simple .int64, none, []⟩,
    ⟨"Code", .simple .string, none, []⟩, ⟨"Made", .simple .dateTime, none, []⟩] := rfl
  intro part mem
  simp only [parts_eq, List.mem_cons, List.not_mem_nil, or_false] at mem
  rcases mem with rfl | rfl | rfl
  · exact ⟨rfl, rfl, .int64, by decide, rfl⟩
  · exact ⟨rfl, rfl, .string, by decide, rfl⟩
  · exact ⟨rfl, rfl, .dateTime, by decide, rfl⟩

/-- A batch without a moment, as a key and as a filter. The number is written with a zero in front,
and the filter gives it a suffix before it is parsed. -/
theorem compositeKey_agrees_of_batchKey :
    (keyCondition? ⟨some "t", {}⟩ [⟨batchKey, "'" ++ "-07;A_1" ++ "'"⟩]).over {} =
      (.ok (some "(t.Batch = ?1 AND t.Code = ?2 AND t.Made IS null)"), batchLedger) ∧
    ∃ conditions, some "(t.Batch = ?1 AND t.Code = ?2 AND t.Made IS null)" =
        some ("(" ++ conjunction conditions ++ ")") ∧
      (filterText ⟨some "t", {}⟩ (.equality batchKey ("'" ++ "-07;A_1" ++ "'") .null)).over {} =
        (.ok ("(" ++ conjunction (conditions.map fun condition => "(" ++ condition ++ ")") ++ ")"),
          batchLedger) ∧
      conditions.length = 3 := by
  have given : slots ";" "-07;A_1" 3 = [some "-07", some "A_1", none] := rfl
  have key : (keyCondition? ⟨some "t", {}⟩ [⟨batchKey, "'" ++ "-07;A_1" ++ "'"⟩]).over {} =
      (.ok (some "(t.Batch = ?1 AND t.Code = ?2 AND t.Made IS null)"), batchLedger) := by
    refine (over_compositeKey_eq_ok rfl).2
      ⟨["t.Batch = ?1", "t.Code = ?2", "t.Made IS null"], ?_, rfl⟩
    show Successive _ _ (List.zip _ (slots ";" _ 3)) _ _
    rw [Text.unquote_quotes, given]
    exact .cons rfl (.cons rfl (.cons rfl .nil))
  have free : ∀ c ∈ "-07;A_1".toList, Text.isQuote c = false := by
    have none_quoted : "-07;A_1".toList.all (fun c => !Text.isQuote c) = true := rfl
    intro c hc
    exact Bool.not_eq_eq_eq_not.1 (List.all_eq_true.1 none_quoted c hc)
  obtain ⟨conditions, text_eq, filter, length_eq, -⟩ :=
    compositeKey_agrees rfl plain_batchKey free .null key
  exact ⟨key, conditions, text_eq, filter, length_eq⟩

end EntityQuery
