import EntityQuery.Proofs.Binding
import EntityQuery.Proofs.Rendering

/-!
# Parser and encoder

The parser tells the kind of a literal and the encoder its value, by tables of their own: the parser
looks at ranges, names and suffixes, and the encoder at families of kinds and native types. They
agree. What the parser accepts is encoded in the native type of the kind that the parser found, and
an integer without suffix is bound as that integer, in a native type that is wide enough for it.

## Main definitions

* `Value.integer?`: the integer that a value stands for

## Main results

* `encode_integer`: integers keep their value
* `Literal.Wellformed.encode_eq`: what is well-formed is encoded
* `encodeText_of_parse`: what is parsed is placed in a query
-/

namespace EntityQuery

/-- The integer that a value stands for, if it is one. -/
def Value.integer? : Value → Option Int
  | byte n => some n.val
  | short n => some n.val
  | int n => some n.val
  | long n => some n.val
  | decimal d => if d.scale = 0 then some d.unscaled else none
  | bigInteger n => some n
  | _ => none

/-! ## Integers -/

/-- A kind of numbers is encoded as what the reader of its native type reads. -/
theorem encode_of_read {α ε : Type} (reader : List Char → Except ε α) {kind : Kind}
    {native : NativeType} {wrap : α → Value} {fault : ε → Fault} (family : kind.family = .numeric)
    (reads : ∀ text, Encoding.numericValue text kind none =
      Encoding.readAs text native wrap fault (reader text.toList))
    {body : List Char} {a : α} (read : reader body = .ok a) :
    encode (String.ofList body) kind none = .ok (.value (wrap a)) := by
  rw [encode, family]
  simp only
  rw [reads, String.toList_ofList, read]
  rfl

section Integers

variable {body : List Char} {z : Int}

/-- An integer of at most 64 bits is encoded in a native type that holds its kind. -/
theorem encode_kindOfInteger (noted : IntegerText body z) (lower : -(bound 64 : Int) ≤ z)
    (upper : z < (bound 64 : Int)) :
    ∃ v, encode (String.ofList body) (Literal.kindOfInteger z) none = .ok (.value v) ∧
      (Literal.kindOfInteger z).native? = some v.native ∧ v.integer? = some z := by
  have bound_8 : (bound 8 : Int) = 128 := rfl
  have bound_16 : (bound 16 : Int) = 32768 := rfl
  unfold Literal.kindOfInteger
  split_ifs with unsigned octet half word
  · have read : Signed.read body = .ok (⟨z, by omega, by omega⟩ : Signed 16) := noted.read_eq _ _
    exact ⟨_, encode_of_read Signed.read rfl (fun _ => rfl) read, rfl, rfl⟩
  · have read : Signed.read body = .ok (⟨z, by omega, by omega⟩ : Signed 8) := noted.read_eq _ _
    exact ⟨_, encode_of_read Signed.read rfl (fun _ => rfl) read, rfl, rfl⟩
  · have read := noted.read_eq half.1 half.2
    exact ⟨_, encode_of_read Signed.read rfl (fun _ => rfl) read, rfl, rfl⟩
  · have read := noted.read_eq word.1 word.2
    exact ⟨_, encode_of_read Signed.read rfl (fun _ => rfl) read, rfl, rfl⟩
  · have read := noted.read_eq lower upper
    exact ⟨_, encode_of_read Signed.read rfl (fun _ => rfl) read, rfl, rfl⟩

/-- An integer of any size is encoded as that integer. -/
theorem encode_integer (noted : IntegerText body z) :
    ∃ v, encode (String.ofList body) (Literal.leastKind z) none = .ok (.value v) ∧
      (Literal.leastKind z).native? = some v.native ∧ v.integer? = some z := by
  unfold Literal.leastKind
  split
  · rename_i fits
    exact encode_kindOfInteger noted fits.1 fits.2
  · exact ⟨_, encode_of_read Decimal.read rfl (fun _ => rfl) noted.decimal_eq, rfl, rfl⟩

end Integers

/-! ## Literals of all kinds -/

/-- What is well-formed is encoded: booleans and `null` as keywords, all else as a value of the
native type of its kind. -/
theorem Literal.Wellformed.encode_eq {l : Literal} (h : l.Wellformed) :
    (l.kind.family = .other ∧ encode l.text l.kind none = .ok (.keyword l.text)) ∨
      ∃ v, encode l.text l.kind none = .ok (.value v) ∧ l.kind.native? = some v.native := by
  cases h with
  | null => exact .inl ⟨rfl, rfl⟩
  | boolean keyword => rcases keyword with rfl | rfl <;> exact .inl ⟨rfl, rfl⟩
  | string text => exact .inr ⟨_, rfl, rfl⟩
  | guid => exact .inr ⟨_, rfl, rfl⟩
  | binary read => exact .inr ⟨_, encode_of_read Hex.decode rfl (fun _ => rfl) read, rfl⟩
  | @dateTime inner moment read =>
    refine .inr ⟨.timestamp moment, ?_, rfl⟩
    simp only [encode, Kind.family, Encoding.instantValue, read]
    rfl
  | @dateTimeOffset inner moment read =>
    refine .inr ⟨.timestampWithOffset moment, ?_, rfl⟩
    simp only [encode, Kind.family, Encoding.instantValue, read]
    rfl
  | @time inner clock read =>
    refine .inr ⟨.time clock.wholeSecond, ?_, rfl⟩
    simp only [encode, Kind.family, Encoding.timeValue, read]
    rfl
  | integer n noted =>
    obtain ⟨v, encodes, native, -⟩ := encode_kindOfInteger noted n.lower n.upper
    exact .inr ⟨v, encodes, native⟩
  | int64 n noted =>
    have read := noted.read_eq n.lower n.upper
    exact .inr ⟨_, encode_of_read Signed.read rfl (fun _ => rfl) read, rfl⟩
  | decimal _ read => exact .inr ⟨_, encode_of_read Decimal.read rfl (fun _ => rfl) read, rfl⟩
  | double _ read =>
    exact .inr ⟨_, encode_of_read (Floating.read .double) rfl (fun _ => rfl) read, rfl⟩
  | single _ read =>
    exact .inr ⟨_, encode_of_read (Floating.read .single) rfl (fun _ => rfl) read, rfl⟩

/-! ## Agreement -/

/-- **Parser and encoder agree.** What is parsed is placed in a query, whatever marker and ledger
that query has: a boolean or `null` as it is, with nothing bound, and all else as the placeholder of
one value, which has the native type of the kind that was parsed and the next index. In particular
an integer without suffix, with any sign and any number of zeros in front, is parsed as the least
kind that holds it, and encoded as that integer in the native type of that kind. -/
theorem encodeText_of_parse :
    (∀ {text : String} {l : Literal}, Literal.parse text = .ok l →
        ∀ (marker : String) (ledger : Ledger),
          if l.kind = .boolean ∨ l.kind = .null then
            (encodeText marker l.text l.kind none).over ledger = (.ok l.text, ledger)
          else
            ∃ v, l.kind.native? = some v.native ∧
              (encodeText marker l.text l.kind none).over ledger =
                (.ok (placeholder marker ledger.nextIndex), ledger.bind v)) ∧
      ∀ {body : List Char} {z : Int}, IntegerText body z →
        Literal.parse (String.ofList body) = .ok ⟨Literal.leastKind z, String.ofList body⟩ ∧
          ∃ v, encode (String.ofList body) (Literal.leastKind z) none = .ok (.value v) ∧
            (Literal.leastKind z).native? = some v.native ∧ v.integer? = some z := by
  constructor
  · intro text l h marker ledger
    have wellformed := Literal.wellformed_of_parse h
    rw [over_encodeText]
    rcases wellformed.encode_eq with ⟨family, encodes⟩ | ⟨v, encodes, native⟩
    · rw [if_pos (Kind.family_eq_other.1 family), encodes]
      rfl
    · have not_other : ¬(l.kind = .boolean ∨ l.kind = .null) := by
        intro other
        rcases encode_eq_keyword (Kind.family_eq_other.2 other) encodes with
          ⟨-, same | same⟩ | ⟨-, same⟩ <;> cases same
      rw [if_neg not_other, encodes]
      exact ⟨v, native, rfl⟩
  · intro body z noted
    exact ⟨Literal.parse_integer noted, encode_integer noted⟩

set_option maxRecDepth 8000 in
/-- Below the least integer of 16 bits the next kind is taken, zeros in front or not. -/
theorem encodeText_of_parse_of_narrow_integer :
    (∃ v, encode "-0032769" .int32 none = .ok (.value v) ∧
        Kind.int32.native? = some v.native ∧ v.integer? = some (-32769)) ∧
      ∃ v, Kind.byte.native? = some v.native ∧
        (encodeText "?" "+0255" .byte none).over {} =
          (.ok (placeholder "?" 1), ({} : Ledger).bind v) := by
  have noted : IntegerText "-0032769".toList (-32769) :=
    IntegerText.minus (by decide) (List.all_eq_true.1 rfl)
  have parsed : Literal.parse "+0255" = .ok ⟨.byte, "+0255"⟩ := rfl
  exact ⟨(encodeText_of_parse.2 noted).2, encodeText_of_parse.1 parsed "?" {}⟩

end EntityQuery
