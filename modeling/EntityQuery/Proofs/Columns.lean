import EntityQuery.Proofs.CompositeKeys
import EntityQuery.Proofs.Keys

/-!
# Keys column by column

Whatever composite properties a key is made of, its condition has one test for each column that is
stored for them. A composite property splits its text among its parts, which may split theirs again;
a part without a component is compiled as if it were given the text `null`, which is unquoted and
split like any other. By columns there is no such text: a column is given a text or none, and has
none if one of the properties around it has none.

## Main definitions

* `givenText?`: the text that a literal of a key gives, if any
* `Property.assigned`, `keyColumns`: the columns of a property and of a key, each with the text that
  it is given
* `ColumnYields`: the test of one column, and the values it binds
* `Grouped`: the tests of columns inside the parentheses of composite properties

## Main results

* `Property.assigned_getD`: to be given `null` is to be given nothing, at every depth
* `KeyYields.by_column`: what a property of a key comes to, its columns come to in turn
* `keyCondition?_by_column`: a key that compiles is one test for each column, and a column that is
  not stored makes it fail
-/

namespace EntityQuery

/-! ## Texts of columns -/

/-- The text that a literal of a key gives, without its quotes; `null` gives none. -/
def givenText? (literal? : Option String) : Option String :=
  (literal?.map Text.unquote).filter (· != "null")

/-- What the parts of a composite property are given: their components of its text, and nothing if
it has none itself. -/
def partLiterals (separator : String) (count : Nat) : Option String → List (Option String)
  | some text => slots separator text count
  | none => List.replicate count none

mutual

/-- The columns of a property from left to right, each with the text that it is given by a literal of
the property. -/
def Property.assigned (separator : String) :
    Property → Option String → List (Property × Option String)
  | ⟨name, type, mapping, parts⟩, literal? =>
    if parts.isEmpty then [(⟨name, type, mapping, parts⟩, givenText? literal?)]
    else partsAssigned separator parts (partLiterals separator parts.length (givenText? literal?))

/-- The columns of parts with what each part is given. -/
def partsAssigned (separator : String) :
    List Property → List (Option String) → List (Property × Option String)
  | part :: parts, literal? :: literals =>
    part.assigned separator literal? ++ partsAssigned separator parts literals
  | _, _ => []

end

/-- The columns of a key from left to right, each with the text that it is given. -/
def keyColumns (separator : String) (predicates : List KeyPredicate) :
    List (Property × Option String) :=
  predicates.flatMap fun predicate => predicate.property.assigned separator predicate.literal

section Assigned

variable {separator : String} {p : Property}

theorem Property.assigned_of_simple (simple : p.isComposite = false) (literal? : Option String) :
    p.assigned separator literal? = [(p, givenText? literal?)] := by
  obtain ⟨name, type, mapping, parts⟩ := p
  have empty : parts.isEmpty = true := by simpa [Property.isComposite] using simple
  rw [Property.assigned, if_pos empty]

theorem Property.assigned_of_composite (composite : p.isComposite = true)
    (literal? : Option String) :
    p.assigned separator literal? =
      partsAssigned separator p.parts
        (partLiterals separator p.parts.length (givenText? literal?)) := by
  obtain ⟨name, type, mapping, parts⟩ := p
  have given : ¬parts.isEmpty = true := by simpa [Property.isComposite] using composite
  rw [Property.assigned, if_neg given]

theorem partsAssigned_eq_flatMap (parts : List Property) (literals : List (Option String)) :
    partsAssigned separator parts literals =
      (parts.zip literals).flatMap fun entry => entry.1.assigned separator entry.2 := by
  induction parts generalizing literals with
  | nil => simp [partsAssigned]
  | cons part parts ih =>
    cases literals with
    | nil => simp [partsAssigned]
    | cons literal? literals => rw [partsAssigned, ih, List.zip_cons_cons, List.flatMap_cons]

/-- To be given `null` is to be given nothing, at every depth. -/
theorem Property.assigned_getD (p : Property) (literal? : Option String) :
    p.assigned separator (some (literal?.getD "null")) = p.assigned separator literal? := by
  have same : givenText? (some (literal?.getD "null")) = givenText? literal? := by
    cases literal? with
    | none => rfl
    | some literal => rfl
  obtain ⟨name, type, mapping, parts⟩ := p
  rw [Property.assigned, Property.assigned, same]

theorem length_partLiterals (count : Nat) (text? : Option String) :
    (partLiterals separator count text?).length = count := by
  cases text? with
  | none => exact List.length_replicate
  | some text => exact length_slots separator text count

mutual

/-- Every column has its place, whatever the texts are. -/
theorem Property.map_fst_assigned :
    ∀ (p : Property) (literal? : Option String),
      (p.assigned separator literal?).map Prod.fst = p.columns
  | ⟨name, type, mapping, parts⟩, literal? => by
    rw [Property.assigned, Property.columns]
    split
    · rfl
    · exact map_fst_partsAssigned parts _ (length_partLiterals _ _)

theorem map_fst_partsAssigned :
    ∀ (parts : List Property) (literals : List (Option String)),
      literals.length = parts.length →
      (partsAssigned separator parts literals).map Prod.fst = partColumns parts
  | [], literals, _ => by simp [partsAssigned, partColumns]
  | part :: parts, [], short => by cases short
  | part :: parts, literal? :: literals, same => by
    rw [partsAssigned, partColumns, List.map_append, part.map_fst_assigned,
      map_fst_partsAssigned parts literals (Nat.succ.inj same)]

end

mutual

/-- A property that is given no text gives none to any of its columns, at whatever depth. -/
theorem Property.assigned_of_absent :
    ∀ (p : Property) {literal? : Option String}, givenText? literal? = none →
      p.assigned separator literal? = p.columns.map (·, none)
  | ⟨name, type, mapping, parts⟩, literal?, absent => by
    rw [Property.assigned, Property.columns, absent]
    split
    · rfl
    · exact partsAssigned_none parts

theorem partsAssigned_none :
    ∀ parts : List Property,
      partsAssigned separator parts (partLiterals separator parts.length none) =
        (partColumns parts).map (·, none)
  | [] => by simp [partsAssigned, partColumns]
  | part :: parts => by
    have others := partsAssigned_none parts
    rw [partLiterals] at others ⊢
    rw [List.length_cons, List.replicate_succ, partsAssigned, partColumns, List.map_append,
      part.assigned_of_absent rfl, others]

end

/-- A composite property that is given `null` splits that text in vain. -/
theorem slots_unquote (free : ¬separator.toList <:+: "null".toList) (literal : String)
    (count : Nat) :
    slots separator (Text.unquote literal) count =
      partLiterals separator count (givenText? (some literal)) := by
  rw [givenText?, Option.map_some]
  by_cases null : Text.unquote literal = "null"
  · rw [null, slots_null free]
    rfl
  · rw [Option.filter_some_pos (by simpa using null)]
    rfl

end Assigned

theorem map_fst_keyColumns (separator : String) (predicates : List KeyPredicate) :
    (keyColumns separator predicates).map Prod.fst =
      predicates.flatMap (·.property.columns) := by
  rw [keyColumns, List.map_flatMap]
  simp only [Property.map_fst_assigned]

/-! ## Tests of columns -/

/-- The test of a column that is given a text or none, and the values it binds. -/
inductive ColumnYields (scope : Scope) (start : Nat) :
    Property × Option String → String → List Value → Prop
  | absent {p : Property} {target : String} (named : scope.keyName p = .ok target) :
      ColumnYields scope start (p, none) (target ++ " IS null") []
  | keyword {p : Property} {target text word : String} (named : scope.keyName p = .ok target)
      (boolean : p.kind? = some .boolean) (written : word = "true" ∨ word = "false") :
      ColumnYields scope start (p, some text) (target ++ " = " ++ word) []
  | value {p : Property} {target text : String} {kind : Kind} {v : Value}
      (named : scope.keyName p = .ok target) (kind_eq : p.kind? = some kind)
      (valued : kind ≠ .boolean) (encodes : encode text kind p.native? = .ok (.value v)) :
      ColumnYields scope start (p, some text)
        (target ++ " = " ++ placeholder scope.settings.marker start) [v]

/-- The texts of properties whose columns have these tests: a composite property has those of its
columns in parentheses of their own. -/
inductive Grouped : List Property → List String → List String → Prop
  | nil : Grouped [] [] []
  | column {p : Property} {test : String} {ps : List Property} {tests texts : List String}
      (simple : p.isComposite = false) (others : Grouped ps tests texts) :
      Grouped (p :: ps) (test :: tests) (test :: texts)
  | composite {p : Property} {ps : List Property} {inner tests innerTexts texts : List String}
      (composite : p.isComposite = true) (parts : Grouped p.parts inner innerTexts)
      (others : Grouped ps tests texts) :
      Grouped (p :: ps) (inner ++ tests) (("(" ++ conjunction innerTexts ++ ")") :: texts)

variable {scope : Scope} {start : Nat}

/-- A column that is tested is stored. -/
theorem ColumnYields.stored {entry : Property × Option String} {test : String}
    {values : List Value} (h : ColumnYields scope start entry test values) :
    entry.1.isVirtual = false := by
  have of_named {p : Property} {target : String} (named : scope.keyName p = .ok target) :
      p.isVirtual = false := by
    obtain ⟨column, column_eq, -⟩ := map_eq_ok.1 named
    exact (columnName_eq_ok.1 column_eq).1
  cases h with
  | absent named | keyword named | value named => exact of_named named

/-- Tests of a property in front of those of others. -/
theorem Grouped.append_one {p : Property} {ps : List Property} {inner tests texts : List String}
    {text : String} (head : Grouped [p] inner [text]) (tail : Grouped ps tests texts) :
    Grouped (p :: ps) (inner ++ tests) (text :: texts) := by
  cases head with
  | column simple none_left =>
    cases none_left
    exact .column simple tail
  | composite composite parts none_left =>
    cases none_left
    rw [List.append_nil]
    exact .composite composite parts tail

/-! ## Keys that compile -/

/-- What properties come to in turn, their columns come to in turn. -/
theorem inTurn_columns {separator : String} {entries : List (Property × String)}
    {texts : List String} {values : List Value}
    (h : InTurn (fun start entry text values => ∃ tests,
      InTurn (ColumnYields scope) start (entry.1.assigned separator (some entry.2)) tests values ∧
        Grouped [entry.1] tests [text]) start entries texts values) :
    ∃ tests, InTurn (ColumnYields scope) start
        (entries.flatMap fun entry => entry.1.assigned separator (some entry.2)) tests values ∧
      Grouped (entries.map Prod.fst) tests texts := by
  induction h with
  | nil => exact ⟨[], .nil, .nil⟩
  | cons head _ ih =>
    obtain ⟨inner, first, group⟩ := head
    obtain ⟨tests, others, groups⟩ := ih
    exact ⟨inner ++ tests, first.append others, group.append_one groups⟩

/-- A column that is given a text is compared with what the text is encoded to. -/
theorem columnYields_of_given {p : Property} {target text : String} {kind : Kind}
    {encoded : Encoded} (named : scope.keyName p = .ok target) (not_null : text ≠ "null")
    (kind_eq : p.kind? = some kind) (encodes : encode text kind p.native? = .ok encoded) :
    ColumnYields scope start (p, some text)
      (target ++ " = " ++ encoded.written scope.settings.marker start) encoded.values := by
  by_cases valued : kind.family = .other
  · rcases encode_eq_keyword valued encodes with ⟨rfl, rfl | rfl⟩ | ⟨rfl, -⟩
    · exact .keyword named kind_eq (.inl rfl)
    · exact .keyword named kind_eq (.inr rfl)
    · simp [encode, Kind.family, Encoding.keyword, not_null] at encodes
  · obtain ⟨v, rfl⟩ := encode_eq_value valued encodes
    refine .value named kind_eq ?_ encodes
    rintro rfl
    exact valued rfl

theorem map_fst_keyParts (p : Property) (literal : String) :
    (keyParts scope p literal).map Prod.fst = p.parts := by
  apply List.map_fst_zip
  simp [length_slots]

/-- The columns of a composite property are those of its parts. -/
theorem flatMap_keyParts (free : ¬scope.settings.separator.toList <:+: "null".toList)
    {p : Property} (composite : p.isComposite = true) (literal : String) :
    ((keyParts scope p literal).flatMap fun entry =>
        entry.1.assigned scope.settings.separator (some entry.2)) =
      p.assigned scope.settings.separator (some literal) := by
  rw [Property.assigned_of_composite composite, partsAssigned_eq_flatMap, keyParts,
    List.zip_map_right, List.flatMap_map, slots_unquote free]
  simp only [Prod.map_fst, Prod.map_snd, id_eq, Property.assigned_getD]

/-- What a property of a key comes to, its columns come to in turn. -/
theorem KeyYields.by_column (free : ¬scope.settings.separator.toList <:+: "null".toList)
    {entry : Property × String} {text : String} {values : List Value}
    (h : KeyYields scope start entry text values) :
    ∃ tests, InTurn (ColumnYields scope) start
        (entry.1.assigned scope.settings.separator (some entry.2)) tests values ∧
      Grouped [entry.1] tests [text] := by
  refine KeyYields.induct (motive := fun start entry text values =>
    ∃ tests, InTurn (ColumnYields scope) start
        (entry.1.assigned scope.settings.separator (some entry.2)) tests values ∧
      Grouped [entry.1] tests [text]) ?absent ?given ?composite h
  case absent =>
    intro start p literal target simple named null
    have none_given : givenText? (some literal) = none := by
      rw [givenText?, Option.map_some, null]
      rfl
    have test : ColumnYields scope start (p, none) (target ++ " IS null") [] := .absent named
    rw [Property.assigned_of_simple simple, none_given]
    exact ⟨_, .cons test .nil, .column simple .nil⟩
  case given =>
    intro start p literal target kind encoded simple named not_null kind_eq encodes
    have given : givenText? (some literal) = some (Text.unquote literal) :=
      Option.filter_some_pos (by simpa using not_null)
    rw [Property.assigned_of_simple simple, given]
    have test : ColumnYields scope start (p, some (Text.unquote literal))
        (target ++ " = " ++ encoded.written scope.settings.marker start) encoded.values :=
      columnYields_of_given named not_null kind_eq encodes
    have tests := InTurn.cons test .nil
    rw [List.append_nil] at tests
    exact ⟨_, tests, .column simple .nil⟩
  case composite =>
    intro start p literal texts values composite conditions
    obtain ⟨tests, columns, groups⟩ := inTurn_columns conditions
    rw [flatMap_keyParts free composite] at columns
    rw [map_fst_keyParts] at groups
    have grouped := Grouped.composite composite groups .nil
    rw [List.append_nil] at grouped
    exact ⟨tests, columns, grouped⟩

/-- **A key is one test for each column.** The separator may be any text that does not occur in
`null`, so it is not empty. A key that compiles is the conjunction of the tests of its columns, in
order, those of every composite property in parentheses. A column that is given no text is tested
for `null` and binds nothing; any other is compared with a keyword if it is boolean, and else with
the one value that it binds at the next index. A column is given no text if a property around it is
given none, and a column that is not stored makes the whole key fail. -/
theorem keyCondition?_by_column (free : ¬scope.settings.separator.toList <:+: "null".toList)
    {predicates : List KeyPredicate} (nonempty : predicates ≠ []) (ledger : Ledger) :
    (∀ {condition? : Option String} {after : Ledger},
        (keyCondition? scope predicates).over ledger = (.ok condition?, after) →
        ∃ texts tests values, condition? = some (conjunction texts) ∧
          Grouped (predicates.map (·.property)) tests texts ∧
          InTurn (ColumnYields scope) ledger.nextIndex
            (keyColumns scope.settings.separator predicates) tests values ∧
          after = ledger.bindAll values) ∧
      (keyColumns scope.settings.separator predicates).map Prod.fst =
        predicates.flatMap (·.property.columns) ∧
      (∀ (p : Property) {literal? : Option String}, givenText? literal? = none →
        p.assigned scope.settings.separator literal? = p.columns.map (·, none)) ∧
      ((∃ p ∈ predicates.flatMap (·.property.columns), p.isVirtual = true) →
        ∃ e after, (keyCondition? scope predicates).over ledger = (.error e, after)) := by
  have compiled : ∀ {condition? : Option String} {after : Ledger},
      (keyCondition? scope predicates).over ledger = (.ok condition?, after) →
      ∃ texts tests values, condition? = some (conjunction texts) ∧
        Grouped (predicates.map (·.property)) tests texts ∧
        InTurn (ColumnYields scope) ledger.nextIndex
          (keyColumns scope.settings.separator predicates) tests values ∧
        after = ledger.bindAll values := by
    intro condition? after h
    obtain ⟨texts, values, conditions, rfl, rfl⟩ := keyYields_of_keyCondition? h
    have by_column := conditions.imp fun h => h.by_column free
    obtain ⟨tests, columns, groups⟩ := inTurn_columns by_column
    rw [List.flatMap_map] at columns
    rw [List.map_map] at groups
    refine ⟨texts, tests, values, ?_, groups, columns, rfl⟩
    rw [if_neg (by simpa using nonempty)]
  refine ⟨compiled, map_fst_keyColumns _ _, fun p _ absent => p.assigned_of_absent absent, ?_⟩
  rintro ⟨p, column, virtual⟩
  cases run : (keyCondition? scope predicates).over ledger with
  | mk result after =>
    cases result with
    | error e => exact ⟨e, after, rfl⟩
    | ok condition? =>
      obtain ⟨texts, tests, values, -, -, columns, -⟩ := compiled run
      rw [← map_fst_keyColumns scope.settings.separator] at column
      obtain ⟨entry, mem, rfl⟩ := List.mem_map.1 column
      obtain ⟨_, _, _, yields⟩ := columns.exists_of_mem mem
      rw [yields.stored] at virtual
      cases virtual

/-- The key of a shipment: its number, its place in two columns, and whether it is urgent. -/
def shipmentKey : Property :=
  ⟨"Key", .simple .string, none, [⟨"Number", .simple .int64, none, []⟩,
    ⟨"Place", .simple .string, none, [⟨"Region", .simple .string, none, []⟩,
      ⟨"Zone", .simple .string, none, []⟩]⟩,
    ⟨"Urgent", .simple .boolean, none, []⟩]⟩

/-- The key of a shipment whose zone is not stored. -/
def unzonedKey : Property :=
  ⟨"Key", .simple .string, none, [⟨"Number", .simple .int64, none, []⟩,
    ⟨"Place", .simple .string, none, [⟨"Zone", .simple .string, some { virtual := true }, []⟩]⟩]⟩

/-- The ledger of the number and the region of a shipment. -/
def shipmentLedger : Ledger :=
  ({} : Ledger).bindAll [.long ⟨9, by decide, by decide⟩, .string "EU"]

/-- A shipment has four columns, of which the zone is given no text. The key of a shipment fails if
the zone is not stored, although no text is given for it. -/
theorem keyCondition?_by_column_of_shipmentKey :
    (keyCondition? ⟨some "t", {}⟩ [⟨shipmentKey, "'9;EU;true'"⟩]).over {} =
        (.ok (some "(t.Number = ?1 AND (t.Region = ?2 AND t.Zone IS null) AND t.Urgent = true)"),
          shipmentLedger) ∧
      (∃ texts tests values,
        some "(t.Number = ?1 AND (t.Region = ?2 AND t.Zone IS null) AND t.Urgent = true)" =
            some (conjunction texts) ∧
          Grouped [shipmentKey] tests texts ∧
          InTurn (ColumnYields ⟨some "t", {}⟩) 1
            (keyColumns ";" [⟨shipmentKey, "'9;EU;true'"⟩]) tests values ∧
          shipmentLedger = ({} : Ledger).bindAll values) ∧
      ∃ e after,
        (keyCondition? ⟨some "t", {}⟩ [⟨unzonedKey, "'9'"⟩]).over {} = (.error e, after) := by
  have free : ¬";".toList <:+: "null".toList := by decide
  have given : slots ";" (Text.unquote "'9;EU;true'") 3 = [some "9", some "EU", some "true"] := rfl
  have key : (keyCondition? ⟨some "t", {}⟩ [⟨shipmentKey, "'9;EU;true'"⟩]).over {} =
      (.ok (some "(t.Number = ?1 AND (t.Region = ?2 AND t.Zone IS null) AND t.Urgent = true)"),
        shipmentLedger) := by
    refine (over_compositeKey_eq_ok rfl).2
      ⟨["t.Number = ?1", "(t.Region = ?2 AND t.Zone IS null)", "t.Urgent = true"], ?_, rfl⟩
    show Successive _ _ (List.zip _ (slots ";" _ 3)) _ _
    rw [given]
    exact .cons rfl (.cons rfl (.cons rfl .nil))
  have virtual : ∃ p ∈ [KeyPredicate.mk unzonedKey "'9'"].flatMap (·.property.columns),
      p.isVirtual = true :=
    ⟨⟨"Zone", .simple .string, some { virtual := true }, []⟩,
      by simp [unzonedKey, Property.columns, partColumns], rfl⟩
  refine ⟨key, ?compiles, ?fails⟩
  case compiles =>
    exact (@keyCondition?_by_column ⟨some "t", {}⟩ free _ (List.cons_ne_nil _ _) {}).1 key
  case fails =>
    exact (@keyCondition?_by_column ⟨some "t", {}⟩ free _ (List.cons_ne_nil _ _) {}).2.2.2 virtual

end EntityQuery
