import EntityQuery.Proofs.Comparing

/-!
# Values of one character

A text that is asked for as a character is cut to its first one. It is cut after it was put into the
form of a pattern, so what is bound is the first character of the pattern: the character itself for
most texts, but the escape character for a text that starts with a wildcard. Keys that differ in
such a character ask for the same value.

## Main definitions

* `Text.leading`: what the pattern of a text starts with

## Main results

* `Text.leading_eq_self_iff`, `Text.leading_eq_leading_iff`: which characters are kept, and which are
  kept apart
* `over_keyText_char`: the value that a key of one character binds
* `characterKey_binds_leading`: it is the character that was given if and only if that is no wildcard
-/

namespace EntityQuery

/-! ## The first character of a pattern -/

namespace Text

/-- What the pattern of a text starts with, for the first character of the text. -/
def leading (c : Char) : Char := if isSpecial c then escapeMark else c

variable {c d : Char}

theorem isSpecial_iff : isSpecial c = true ↔ c = escapeMark ∨ c = '%' ∨ c = '_' := by
  simp [isSpecial, or_assoc]

/-- A character is written as a text that starts with its leading character. -/
theorem escapeChar_eq_cons (c : Char) : ∃ more, escapeChar c = leading c :: more := by
  unfold escapeChar
  split
  · rename_i is_quote
    rw [is_quote]
    exact ⟨[quote], rfl⟩
  · split
    · rename_i special
      exact ⟨[c], by rw [leading, if_pos special]⟩
    · rename_i plain
      exact ⟨[], by rw [leading, if_neg plain]⟩

theorem escaped_cons (c : Char) (rest : List Char) :
    ∃ more, escaped (c :: rest) = leading c :: more := by
  obtain ⟨more, written⟩ := escapeChar_eq_cons c
  refine ⟨more ++ escaped rest, ?_⟩
  rw [escaped, List.flatMap_cons, written]
  rfl

/-- A wildcard is hidden by the escape character. -/
theorem leading_eq_self_iff : leading c = c ↔ c ≠ '%' ∧ c ≠ '_' := by
  unfold leading
  split
  · rename_i special
    rcases isSpecial_iff.1 special with rfl | rfl | rfl <;> decide
  · rename_i plain
    have other := mt isSpecial_iff.2 plain
    exact ⟨fun _ => ⟨fun any => other (.inr (.inl any)), fun one => other (.inr (.inr one))⟩,
      fun _ => rfl⟩

/-- The characters that are escaped are led by the same character, and all others differ. -/
theorem leading_eq_leading_iff :
    leading c = leading d ↔ c = d ∨ isSpecial c = true ∧ isSpecial d = true := by
  constructor
  · intro same
    by_cases hc : isSpecial c = true <;> by_cases hd : isSpecial d = true
    · exact .inr ⟨hc, hd⟩
    · -- The escape character is escaped itself, so no other character leads like it.
      rw [leading, if_pos hc, leading, if_neg hd] at same
      exact absurd (isSpecial_iff.2 (.inl same.symm)) hd
    · rw [leading, if_neg hc, leading, if_pos hd] at same
      exact absurd (isSpecial_iff.2 (.inl same)) hc
    · rw [leading, if_neg hc, leading, if_neg hd] at same
      exact .inl same
  · rintro (rfl | ⟨hc, hd⟩)
    · rfl
    · rw [leading, if_pos hc, leading, if_pos hd]

end Text

/-! ## Encoded characters -/

variable {text literal : String} {kind : Kind} {c : Char}

theorem encode_char (textual : kind.family = .text) (first : text.toList.head? = some c) :
    encode text kind (some .char) = .ok (.value (.char (Text.leading c))) := by
  obtain ⟨rest, chars⟩ := List.head?_eq_some_iff.1 first
  obtain ⟨more, pattern⟩ := Text.escaped_cons c rest
  rw [encode, textual]
  simp only
  rw [Encoding.textValue, chars, pattern]
  rfl

theorem over_encodeText_char (textual : kind.family = .text) (first : text.toList.head? = some c)
    (marker : String) (ledger : Ledger) :
    (encodeText marker text kind (some .char)).over ledger =
      (.ok (placeholder marker ledger.nextIndex), ledger.bind (.char (Text.leading c))) :=
  over_encodeText_eq_ok.2 ⟨_, encode_char textual first, rfl, rfl⟩

/-! ## Keys -/

section Keys

variable {p : Property} {scope : Scope}

/-- A stored property has a name in keys. -/
theorem exists_keyName (scope : Scope) (stored : p.isVirtual = false) :
    ∃ target, scope.keyName p = .ok target :=
  ⟨_, Scope.keyName_eq_ok.2 ⟨stored, rfl⟩⟩

/-- A key of one character compares it, unless it reads as `null`. -/
theorem over_keyText_char (simple : p.isComposite = false) (kind_eq : p.kind? = some kind)
    (textual : kind.family = .text) (mapped : p.native? = some .char)
    (first : (Text.unquote literal).toList.head? = some c) {target : String}
    (named : scope.keyName p = .ok target) (ledger : Ledger) :
    (keyText scope p literal).over ledger =
      if Text.unquote literal = "null" then (.ok (target ++ " IS null"), ledger)
      else (.ok (target ++ " = " ++ placeholder scope.settings.marker ledger.nextIndex),
        ledger.bind (.char (Text.leading c))) := by
  have valued : kind.family ≠ .other := by
    rw [textual]
    exact nofun
  rw [keyText_of_simple simple]
  by_cases null : Text.unquote literal = "null"
  · rw [if_pos null]
    refine (over_simpleKeyText_eq_ok kind_eq valued).2 ⟨target, named, ?_⟩
    rw [if_pos null]
    exact ⟨rfl, rfl⟩
  · rw [if_neg null]
    refine (over_simpleKeyText_eq_ok kind_eq valued).2 ⟨target, named, ?_⟩
    rw [if_neg null, mapped]
    exact ⟨_, encode_char textual first, rfl, rfl⟩

/-- **A key of one character binds what its pattern starts with.** Let a property of a text or an
identifier be mapped to a character. A text that is not empty is encoded as its leading character,
and so is it in a key, wherever the property stands there; only `null` is no value for a key. That
character is the first one of the text if and only if the text does not start with a wildcard. Texts
with different first characters are bound as the same value if and only if both of these are
escaped. -/
theorem characterKey_binds_leading (simple : p.isComposite = false)
    (stored : p.isVirtual = false) (kind_eq : p.kind? = some kind)
    (textual : kind = .string ∨ kind = .guid) (mapped : p.native? = some .char)
    (first : text.toList.head? = some c) (scope : Scope) (ledger : Ledger) :
    (encodeText scope.settings.marker text kind p.native?).over ledger =
        (.ok (placeholder scope.settings.marker ledger.nextIndex),
          ledger.bind (.char (Text.leading c))) ∧
      (∀ literal, Text.unquote literal = text → ∃ target, scope.keyName p = .ok target ∧
        (keyText scope p literal).over ledger =
          if text = "null" then (.ok (target ++ " IS null"), ledger)
          else (.ok (target ++ " = " ++ placeholder scope.settings.marker ledger.nextIndex),
            ledger.bind (.char (Text.leading c)))) ∧
      (ledger.bind (.char (Text.leading c)) = ledger.bind (.char c) ↔ c ≠ '%' ∧ c ≠ '_') ∧
      ∀ d, ledger.bind (.char (Text.leading c)) = ledger.bind (.char (Text.leading d)) ↔
        c = d ∨ Text.isSpecial c = true ∧ Text.isSpecial d = true := by
  have family : kind.family = .text := by rcases textual with rfl | rfl <;> rfl
  refine ⟨?encoded, ?key, ?kept, ?apart⟩
  case encoded =>
    rw [mapped]
    exact over_encodeText_char family first _ ledger
  case key =>
    rintro literal rfl
    obtain ⟨target, named⟩ := exists_keyName scope stored
    exact ⟨target, named, over_keyText_char simple kind_eq family mapped first named ledger⟩
  case kept =>
    rw [Ledger.bind_inj, Value.char.injEq]
    exact Text.leading_eq_self_iff
  case apart =>
    intro d
    rw [Ledger.bind_inj, Value.char.injEq]
    exact Text.leading_eq_leading_iff

/-- The property of a mark that is stored as one character. -/
def markProperty : Property := ⟨"Mark", .simple .string, some { native := some .char }, []⟩

/-- Of a quoted text that starts with a quote the quote is bound, in a key after another one. -/
theorem characterKey_binds_leading_of_quoted :
    (keyText ⟨some "t", {}⟩ markProperty "''n'").over (({} : Ledger).bind (.string "x")) =
        (.ok "t.Mark = ?2", (({} : Ledger).bind (.string "x")).bind (.char '\'')) := by
  have bare : Text.unquote "''n'" = "'n" := rfl
  have kind_eq : markProperty.kind? = some .string := rfl
  have first : "'n".toList.head? = some '\'' := rfl
  obtain ⟨-, key, -⟩ := characterKey_binds_leading (p := markProperty) rfl rfl kind_eq (.inl rfl) rfl
    first ⟨some "t", {}⟩ (({} : Ledger).bind (.string "x"))
  obtain ⟨target, named, compiled⟩ := key "''n'" bare
  obtain rfl : "t.Mark" = target := Except.ok.inj named
  rw [compiled, if_neg (by decide)]
  rfl

/-- **Two wildcards are one key.** The keys `%` and `_` of one property ask for the escape character,
and neither of them for the character that it gives. -/
theorem characterKey_confuses_wildcards :
    (keyText ⟨some "t", {}⟩ markProperty "'%'").over {} =
        (.ok "t.Mark = ?1", ({} : Ledger).bind (.char '\\')) ∧
      (keyText ⟨some "t", {}⟩ markProperty "'_'").over {} =
        (.ok "t.Mark = ?1", ({} : Ledger).bind (.char '\\')) ∧
      ({} : Ledger).bind (.char '\\') ≠ ({} : Ledger).bind (.char '%') ∧
      ({} : Ledger).bind (.char '\\') ≠ ({} : Ledger).bind (.char '_') := by
  refine ⟨rfl, rfl, ?_, ?_⟩
  · rw [Ne, Ledger.bind_inj]
    decide
  · rw [Ne, Ledger.bind_inj]
    decide

end Keys

end EntityQuery
