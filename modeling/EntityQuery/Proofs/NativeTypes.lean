import EntityQuery.Proofs.Comparing

/-!
# Native types of bound values

Each family of kinds has a builder of its own for its values, which heeds the native type asked for
in its own way: texts heed it if it is one of characters, moments and times of day never, and
numbers always, so that they refuse what is not numeric. Which native type a value has is told by
its kind and by the type asked for, and not by its text. Nothing is bound on the way to a refusal.

## Main definitions

* `Kind.boundAs`: the native type in which a kind is bound

## Main results

* `native_of_encode`: a value has the native type in which its kind is bound
* `encode_of_not_numeric`: numbers are refused in a native type that is not numeric
* `encodeText_atomic`: a text is refused, written as a keyword, or bound as one value
-/

namespace EntityQuery

/-- The native type in which a kind is bound, whether one is asked for or not. Booleans and `null`
are not bound at all. -/
def Kind.boundAs (kind : Kind) (native : Option NativeType) : Option NativeType :=
  match kind with
  | .string | .guid =>
    if native = some .char ∨ native = some .charArray then native else some .string
  | .dateTime => some .timestamp
  | .dateTimeOffset => some .timestampWithOffset
  | .time => some .time
  | .boolean | .null => none
  | _ => native.or kind.native?

variable {text : String} {kind : Kind} {native : Option NativeType} {v : Value}

/-- The kinds of one family heed the native type asked for in one way. -/
theorem Kind.boundAs_eq : kind.boundAs native = match kind.family with
    | .text => if native = some .char ∨ native = some .charArray then native else some .string
    | .instant => kind.native?
    | .time => some .time
    | .numeric => native.or kind.native?
    | .other => none := by
  cases kind <;> rfl

/-! ## Values of each family -/

theorem native_of_textValue (h : Encoding.textValue text native = .ok v) :
    (if native = some .char ∨ native = some .charArray then native else some .string) =
      some v.native := by
  unfold Encoding.textValue at h
  simp only at h
  split at h
  · split at h
    · obtain rfl := Except.ok.inj h
      rfl
    · cases h
  · obtain rfl := Except.ok.inj h
    rfl
  · rename_i not_char not_chars
    obtain rfl := Except.ok.inj h
    exact if_neg (not_or.2 ⟨not_char, not_chars⟩)

theorem native_of_instantValue (family : kind.family = .instant)
    (h : Encoding.instantValue text kind = .ok v) : kind.native? = some v.native := by
  have instants : kind = .dateTime ∨ kind = .dateTimeOffset := by
    revert family
    cases kind <;> decide
  have read := mapError_eq_ok.1 h
  rcases instants with rfl | rfl
  · obtain ⟨moment, -, rfl⟩ := map_eq_ok.1 read
    rfl
  · obtain ⟨moment, -, rfl⟩ := map_eq_ok.1 read
    rfl

theorem native_of_timeValue (h : Encoding.timeValue text = .ok v) : v.native = .time := by
  unfold Encoding.timeValue at h
  split at h
  · obtain rfl := Except.ok.inj h
    rfl
  · cases h

/-- What is read as a value of a native type is one. -/
theorem native_of_readAs {α ε : Type} {target : NativeType} {wrap : α → Value} {fault : ε → Fault}
    {read : Except ε α} (h : Encoding.readAs text target wrap fault read = .ok v)
    (wraps : ∀ a, (wrap a).native = target) : v.native = target := by
  obtain ⟨a, -, rfl⟩ := readAs_eq_ok.1 h
  exact wraps a

theorem native_of_numericValue (h : Encoding.numericValue text kind native = .ok v) :
    native.or kind.native? = some v.native := by
  unfold Encoding.numericValue at h
  simp only at h
  split at h
  case h_9 asked =>
    rw [asked]
    split at h
    · rw [native_of_readAs h fun _ => rfl]
    · rw [← Except.ok.inj h]
      rfl
  case h_10 => cases h
  all_goals
    rename_i asked
    rw [asked, native_of_readAs h fun _ => rfl]

/-- A number is refused in a native type that is not numeric, whatever its text is. -/
theorem numericValue_of_not_numeric {target : NativeType}
    (asked : native.or kind.native? = some target) (other : target.isNumeric = false) :
    Encoding.numericValue text kind native = .error (.unmapped kind (some target)) := by
  rw [Encoding.numericValue, asked]
  cases target <;> first | rfl | cases other

/-! ## Encoded values -/

theorem map_value_eq_ok {result : Except QueryError Value} :
    result.map Encoded.value = .ok (.value v) ↔ result = .ok v := by
  simp [map_eq_ok]

/-- A value has the native type in which its kind is bound. -/
theorem native_of_encode (h : encode text kind native = .ok (.value v)) :
    kind.boundAs native = some v.native := by
  rw [Kind.boundAs_eq]
  rw [encode] at h
  cases family : kind.family with
  | text =>
    rw [family] at h
    exact native_of_textValue (map_value_eq_ok.1 h)
  | instant =>
    rw [family] at h
    exact native_of_instantValue family (map_value_eq_ok.1 h)
  | time =>
    rw [family] at h
    exact congrArg some (native_of_timeValue (map_value_eq_ok.1 h)).symm
  | numeric =>
    rw [family] at h
    exact native_of_numericValue (map_value_eq_ok.1 h)
  | other =>
    rw [family] at h
    rcases Encoding.keyword_eq_ok h with ⟨-, same | same⟩ | ⟨-, same⟩ <;> cases same

/-- A kind of numbers is refused in a native type that is not numeric. -/
theorem encode_of_not_numeric {asked : NativeType} (family : kind.family = .numeric)
    (other : asked.isNumeric = false) :
    encode text kind (some asked) = .error (.unmapped kind (some asked)) := by
  rw [encode, family]
  simp only
  rw [numericValue_of_not_numeric rfl other]
  rfl

/-! ## Texts in a query -/

/-- **A plain text is refused, written as a keyword, or bound as one value.** What is refused leaves
the ledger as it was, and so do the keywords of booleans and of `null`. Any other text is bound
under the next index, behind all that is bound already, and nothing else changes. Which native type
its value has is told by its kind and by the native type asked for, and not by the text; a kind of
numbers is refused in a native type that is not numeric. -/
theorem encodeText_atomic (marker text : String) (kind : Kind) (native : Option NativeType)
    (ledger : Ledger) :
    ((∃ e, (encodeText marker text kind native).over ledger = (.error e, ledger)) ∨
        (∃ word, (encodeText marker text kind native).over ledger = (.ok word, ledger) ∧
          (kind = .boolean ∧ (word = "true" ∨ word = "false") ∨ kind = .null ∧ word = "null")) ∨
        ∃ v after, (encodeText marker text kind native).over ledger =
            (.ok (placeholder marker ledger.nextIndex), after) ∧
          kind.boundAs native = some v.native ∧
          after.nextIndex = ledger.nextIndex + 1 ∧
          after.registry.entries = ledger.registry.entries ++ [(ledger.nextIndex, v)] ∧
          after.substringCompared = ledger.substringCompared) ∧
      ∀ asked, native = some asked → kind.family = .numeric → asked.isNumeric = false →
        (encodeText marker text kind native).over ledger =
          (.error (.unmapped kind (some asked)), ledger) := by
  rw [over_encodeText]
  constructor
  · cases encodes : encode text kind native with
    | error e => exact .inl ⟨e, rfl⟩
    | ok encoded =>
      by_cases valued : kind.family = .other
      · refine .inr (.inl ?_)
        rcases encode_eq_keyword valued encodes with ⟨boolean, rfl | rfl⟩ | ⟨null, rfl⟩
        · exact ⟨_, rfl, .inl ⟨boolean, .inl rfl⟩⟩
        · exact ⟨_, rfl, .inl ⟨boolean, .inr rfl⟩⟩
        · exact ⟨_, rfl, .inr ⟨null, rfl⟩⟩
      · obtain ⟨v, rfl⟩ := encode_eq_value valued encodes
        exact .inr (.inr ⟨v, ledger.bind v, rfl, native_of_encode encodes, rfl,
          ledger.entries_bind v, rfl⟩)
  · rintro asked rfl family other
    rw [encode_of_not_numeric family other]

/-- The text of a number is refused as a moment, and the text of an identifier that is asked for as
characters is bound as such, after the value that is there. -/
theorem encodeText_atomic_of_characters :
    (encodeText "?" "42" .int32 (some .timestamp)).over {} =
        (.error (.unmapped .int32 (some .timestamp)), {}) ∧
      ∃ v after, (encodeText ":p" "a_b" .guid (some .charArray)).over
            (({} : Ledger).bind (.string "x")) = (.ok ":p2", after) ∧
        some NativeType.charArray = some v.native ∧
        after.registry.entries = [(1, .string "x"), (2, v)] := by
  refine ⟨(encodeText_atomic "?" "42" .int32 (some .timestamp) {}).2 _ rfl rfl rfl, ?_⟩
  rcases (encodeText_atomic ":p" "a_b" .guid (some .charArray)
    (({} : Ledger).bind (.string "x"))).1 with ⟨e, refused⟩ | ⟨word, written, -⟩ | bound
  · cases refused
  · cases written
  · obtain ⟨v, after, placed, typed, -, entries, -⟩ := bound
    exact ⟨v, after, placed, typed, entries⟩

end EntityQuery
