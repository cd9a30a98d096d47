import EntityQuery.Binding.Encoding

/-!
# Values bound in a row

A ledger that grows only by binding values keeps its entries and puts the new ones after them, under
consecutive indices. Placing an encoded text binds at most one value.

## Main definitions

* `Ledger.bindAll`: a ledger with several more values, in order
* `Encoded.written`, `Encoded.values`: what an encoded text shows at an index, and what it binds

## Main results

* `Ledger.entries_bindAll`, `Ledger.find?_bindAll`: the entries of values bound in a row
* `over_encodeText`: what the encoding of a plain text does to a ledger
* `encode_eq_value`, `encode_eq_keyword`: booleans and `null` become keywords, all else values
* `encode_cases`: what a plain text can become, whatever its kind
-/

namespace EntityQuery

namespace Ledger

/-! ## One value -/

@[simp] theorem nextIndex_bind (ledger : Ledger) (value : Value) :
    (ledger.bind value).nextIndex = ledger.nextIndex + 1 := rfl

@[simp] theorem substringCompared_bind (ledger : Ledger) (value : Value) :
    (ledger.bind value).substringCompared = ledger.substringCompared := rfl

/-- A value is bound after all that are there. -/
theorem entries_bind (ledger : Ledger) (value : Value) :
    (ledger.bind value).registry.entries = ledger.registry.entries ++ [(ledger.nextIndex, value)] :=
  Registry.insertEntry_eq_append ledger.fresh

/-- The next index shows nothing, and neither does any above it. -/
theorem find?_eq_none (ledger : Ledger) {index : Nat} (h : ledger.nextIndex ≤ index) :
    ledger.registry.find? index = none := by
  rw [Registry.find?, List.lookup_eq_none_iff]
  intro entry hm
  have taken := ledger.fresh entry hm
  exact bne_iff_ne.2 (by omega)

theorem find?_bind (ledger : Ledger) (value : Value) (index : Nat) :
    (ledger.bind value).registry.find? index =
      if index = ledger.nextIndex then some value else ledger.registry.find? index := by
  show (ledger.registry.register ledger.nextIndex value).find? index = _
  rw [Registry.find?_register, ledger.find?_eq_none (Nat.le_refl _), Option.none_or]

/-! ## Several values -/

/-- A ledger with several more values, in order. -/
def bindAll (ledger : Ledger) (values : List Value) : Ledger := values.foldl bind ledger

@[simp] theorem bindAll_nil (ledger : Ledger) : ledger.bindAll [] = ledger := rfl

theorem bindAll_cons (ledger : Ledger) (value : Value) (values : List Value) :
    ledger.bindAll (value :: values) = (ledger.bind value).bindAll values := rfl

theorem bindAll_append (ledger : Ledger) (values more : List Value) :
    ledger.bindAll (values ++ more) = (ledger.bindAll values).bindAll more :=
  List.foldl_append

@[simp] theorem nextIndex_bindAll (ledger : Ledger) (values : List Value) :
    (ledger.bindAll values).nextIndex = ledger.nextIndex + values.length := by
  induction values generalizing ledger with
  | nil => rfl
  | cons value values ih =>
    rw [bindAll_cons, ih, nextIndex_bind, List.length_cons]
    omega

@[simp] theorem substringCompared_bindAll (ledger : Ledger) (values : List Value) :
    (ledger.bindAll values).substringCompared = ledger.substringCompared := by
  induction values generalizing ledger with
  | nil => rfl
  | cons value values ih => rw [bindAll_cons, ih, substringCompared_bind]

/-- The entries that are there stay as they are, and the new ones follow them. -/
theorem entries_bindAll (ledger : Ledger) (values : List Value) :
    (ledger.bindAll values).registry.entries =
      ledger.registry.entries ++ (List.range' ledger.nextIndex values.length).zip values := by
  induction values generalizing ledger with
  | nil => simp
  | cons value values ih =>
    rw [bindAll_cons, ih, entries_bind, List.append_assoc]
    simp [List.range'_succ]

/-- An index below the next one shows what it showed before. -/
theorem find?_bindAll_of_lt (ledger : Ledger) (values : List Value) {index : Nat}
    (h : index < ledger.nextIndex) :
    (ledger.bindAll values).registry.find? index = ledger.registry.find? index := by
  induction values generalizing ledger with
  | nil => rfl
  | cons value values ih =>
    rw [bindAll_cons, ih _ (by simp only [nextIndex_bind]; omega), find?_bind, if_neg (by omega)]

/-- The values stand under consecutive indices, in order. -/
theorem find?_bindAll (ledger : Ledger) (values : List Value) (i : Nat) :
    (ledger.bindAll values).registry.find? (ledger.nextIndex + i) = values[i]? := by
  induction values generalizing ledger i with
  | nil => simpa using ledger.find?_eq_none (Nat.le_add_right _ i)
  | cons value values ih =>
    rw [bindAll_cons]
    cases i with
    | zero =>
      rw [find?_bindAll_of_lt _ _ (by simp), find?_bind]
      simp
    | succ i =>
      have later := ih (ledger.bind value) i
      rwa [nextIndex_bind, Nat.add_assoc, Nat.add_comm 1 i] at later

end Ledger

/-! ## Encoded texts -/

namespace Encoded

/-- What stands in the query for an encoded text whose value would be bound at an index. -/
def written (marker : String) (index : Nat) : Encoded → String
  | keyword word => word
  | value _ => placeholder marker index

/-- The values that an encoded text binds. -/
def values : Encoded → List Value
  | keyword _ => []
  | value v => [v]

theorem over_place (marker : String) (encoded : Encoded) (ledger : Ledger) :
    (encoded.place marker).over ledger =
      (.ok (encoded.written marker ledger.nextIndex), ledger.bindAll encoded.values) := by
  cases encoded with
  | keyword word => rfl
  | value v => simp [place, Compile.over_bind, written, values, Ledger.bindAll_cons, Except.map]

end Encoded

/-- The encoding of a plain text fails with the ledger as it was, or else binds what it encodes
to. -/
theorem over_encodeText (marker text : String) (kind : Kind) (native : Option NativeType)
    (ledger : Ledger) :
    (encodeText marker text kind native).over ledger = match encode text kind native with
      | .ok encoded =>
        (.ok (encoded.written marker ledger.nextIndex), ledger.bindAll encoded.values)
      | .error e => (.error e, ledger) := by
  rw [encodeText, Compile.over_bind, Compile.over_liftM]
  cases encode text kind native with
  | error e => rfl
  | ok encoded => exact encoded.over_place marker ledger

theorem over_encodeText_eq_ok {marker text placed : String} {kind : Kind}
    {native : Option NativeType} {ledger after : Ledger} :
    (encodeText marker text kind native).over ledger = (.ok placed, after) ↔
      ∃ encoded, encode text kind native = .ok encoded ∧
        encoded.written marker ledger.nextIndex = placed ∧
        ledger.bindAll encoded.values = after := by
  rw [over_encodeText]
  cases encode text kind native <;> simp

/-! ## Keywords and values -/

/-- Booleans and `null` have no values. -/
theorem Kind.family_eq_other {kind : Kind} :
    kind.family = .other ↔ kind = .boolean ∨ kind = .null := by
  cases kind <;> simp [family]

/-- The keywords that stand for booleans and for `null`. -/
theorem Encoding.keyword_eq_ok {text : String} {kind : Kind} {encoded : Encoded}
    (h : Encoding.keyword text kind = .ok encoded) :
    (kind = .boolean ∧ (encoded = .keyword "true" ∨ encoded = .keyword "false")) ∨
      (kind ≠ .boolean ∧ encoded = .keyword "null") := by
  by_cases hk : kind = .boolean
  · subst hk
    simp only [Encoding.keyword] at h
    split at h
    · rename_i hw
      simp only [Except.ok.injEq] at h
      subst h
      exact .inl ⟨rfl, hw.imp (congrArg _) (congrArg _)⟩
    · cases h
  · refine .inr ⟨hk, ?_⟩
    rw [Encoding.keyword] at h
    · split at h
      · rename_i hw
        rw [← hw]
        exact (Except.ok.inj h).symm
      · cases h
    · exact hk

/-- A kind other than boolean and `null` has one value. -/
theorem encode_eq_value {text : String} {kind : Kind} {native : Option NativeType}
    {encoded : Encoded} (hk : kind.family ≠ .other) (h : encode text kind native = .ok encoded) :
    ∃ v, encoded = .value v := by
  have of_map {result : Except QueryError Value} (h : result.map Encoded.value = .ok encoded) :
      ∃ v, encoded = .value v := by
    cases result with
    | error e => cases h
    | ok v => exact ⟨v, (Except.ok.inj h).symm⟩
  rw [encode] at h
  cases hf : kind.family with
  | other => exact absurd hf hk
  | text | instant | time | numeric =>
    rw [hf] at h
    exact of_map h

/-- Booleans and `null` become keywords. -/
theorem encode_eq_keyword {text : String} {kind : Kind} {native : Option NativeType}
    {encoded : Encoded} (hk : kind.family = .other) (h : encode text kind native = .ok encoded) :
    (kind = .boolean ∧ (encoded = .keyword "true" ∨ encoded = .keyword "false")) ∨
      (kind = .null ∧ encoded = .keyword "null") := by
  rw [encode, hk] at h
  rcases Encoding.keyword_eq_ok h with hw | ⟨hb, hw⟩
  · exact .inl hw
  · exact .inr ⟨(Kind.family_eq_other.1 hk).resolve_left hb, hw⟩

/-- A plain text becomes a value or one of three keywords. -/
theorem encode_cases {text : String} {kind : Kind} {native : Option NativeType}
    {encoded : Encoded} (h : encode text kind native = .ok encoded) :
    (∃ v, encoded = .value v) ∨ ∃ word ∈ ["true", "false", "null"], encoded = .keyword word := by
  by_cases hk : kind.family = .other
  · refine .inr ?_
    rcases encode_eq_keyword hk h with ⟨-, rfl | rfl⟩ | ⟨-, rfl⟩ <;> exact ⟨_, by simp, rfl⟩
  · exact .inl (encode_eq_value hk h)

end EntityQuery
