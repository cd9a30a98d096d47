import EntityQuery.Binding.Encoding
import EntityQuery.Text.Search
import Mathlib.Data.List.TakeWhile

/-!
# Marks in a text

The placeholders that a text shows where their marker is `?`: every mark with the longest run of
digits that follows it. Texts are put together with separators between them, so that no digit comes
to stand after a placeholder that it does not belong to.

## Main definitions

* `markNumbers?`: the numbers after the marks of a text, in order
* `MarkFree`, `Separates`: texts without marks, and such texts that do not start with a digit
* `Marks`: a text with the numbers after its marks

## Main results

* `markNumbers?_append`: the marks of two texts, the second of which does not start with a digit
* `Marks.opened`, `Marks.closed`, `Marks.between`: marks of texts that are put together
* `Marks.substituteFirst`: marks of a text in which something is replaced
-/

namespace EntityQuery

/-! ## Numbers of marks -/

/-- The numbers after the marks `?` of a text, in order, each the longest run of digits there.
Missing if there is no digit after some mark. -/
def markNumbers? : List Char → Option (List Nat)
  | [] => some []
  | c :: rest =>
    if c = '?' then
      if (rest.takeWhile Char.isDigit).isEmpty then none
      else (markNumbers? rest).map (digitsValue (rest.takeWhile Char.isDigit) :: ·)
    else markNumbers? rest

theorem markNumbers?_cons_of_ne {c : Char} (h : c ≠ '?') (rest : List Char) :
    markNumbers? (c :: rest) = markNumbers? rest := by
  rw [markNumbers?, if_neg h]

/-- A text without marks can be left out in front. -/
theorem markNumbers?_append_of_free {front : List Char} (h : '?' ∉ front) (text : List Char) :
    markNumbers? (front ++ text) = markNumbers? text := by
  induction front with
  | nil => rfl
  | cons c front ih =>
    have head : c ≠ '?' := by
      rintro rfl
      exact h List.mem_cons_self
    have tail : '?' ∉ front := fun hm => h (List.mem_cons_of_mem c hm)
    rw [List.cons_append, markNumbers?_cons_of_ne head]
    exact ih tail

/-- A run of digits that reaches to the end of a text does not go on into another one, unless that
starts with a digit. -/
theorem takeWhile_isDigit_append {text more : List Char}
    (h : ∀ c ∈ more.head?, c.isDigit = false) :
    (text ++ more).takeWhile Char.isDigit = text.takeWhile Char.isDigit := by
  induction text with
  | nil =>
    cases more with
    | nil => rfl
    | cons c more => simp [h c rfl]
  | cons c text ih => simp only [List.cons_append, List.takeWhile_cons, ih]

/-- The marks of two texts, the second of which does not start with a digit. -/
theorem markNumbers?_append {more : List Char} (h : ∀ c ∈ more.head?, c.isDigit = false)
    (text : List Char) :
    markNumbers? (text ++ more) =
      (markNumbers? text).bind fun ns => (markNumbers? more).map (ns ++ ·) := by
  induction text with
  | nil => simp [markNumbers?]
  | cons c text ih =>
    rw [List.cons_append, markNumbers?, markNumbers?, takeWhile_isDigit_append h, ih]
    split
    · split
      · rfl
      · cases markNumbers? text <;> simp [Function.comp_def]
    · rfl

theorem isDigit_of_mem_toDigits {n : Nat} {c : Char} (h : c ∈ Nat.toDigits 10 n) : c.isDigit :=
  Nat.isDigit_of_mem_toDigits (by decide) (by decide) h

theorem mark_not_mem_toDigits (n : Nat) : '?' ∉ Nat.toDigits 10 n :=
  fun h => absurd (isDigit_of_mem_toDigits h) (by decide)

/-- The digits of a number are read as that number. -/
theorem digitsValue_toDigits (n : Nat) : digitsValue (Nat.toDigits 10 n) = n := by
  have := Nat.ofDigitChars_toDigits (b := 10) (n := n) (by decide) (by decide)
  rwa [Nat.ofDigitChars_eq_foldl] at this

theorem takeWhile_isDigit_toDigits (n : Nat) :
    (Nat.toDigits 10 n).takeWhile Char.isDigit = Nat.toDigits 10 n :=
  List.takeWhile_eq_self_iff.2 fun _ h => isDigit_of_mem_toDigits h

/-- A placeholder shows its index. -/
theorem markNumbers?_toDigits (n : Nat) : markNumbers? ('?' :: Nat.toDigits 10 n) = some [n] := by
  have rest : markNumbers? (Nat.toDigits 10 n) = some [] := by
    rw [← List.append_nil (Nat.toDigits 10 n),
      markNumbers?_append_of_free (mark_not_mem_toDigits n)]
    rfl
  rw [markNumbers?, if_pos rfl, takeWhile_isDigit_toDigits, if_neg (by simp [Nat.toDigits_ne_nil]),
    rest, digitsValue_toDigits]
  rfl

theorem toList_placeholder (n : Nat) :
    (placeholder "?" n).toList = '?' :: Nat.toDigits 10 n := by
  simp [placeholder]

/-- A placeholder ends with a digit. -/
theorem placeholder_ne_null (marker : String) (n : Nat) : placeholder marker n ≠ "null" := by
  intro same
  obtain ⟨c, rest, digits⟩ := List.exists_cons_of_ne_nil (Nat.toDigits_ne_nil (n := n) (b := 10))
  have digit : c.isDigit = true := by
    apply isDigit_of_mem_toDigits (n := n)
    rw [digits]
    exact List.mem_cons_self
  have shown : c ∈ (placeholder marker n).toList := by simp [placeholder, digits]
  rw [same] at shown
  have letters : "null".toList.all (fun c => !c.isDigit) = true := rfl
  have letter := List.all_eq_true.1 letters c shown
  rw [digit] at letter
  cases letter

/-! ## Texts without marks -/

/-- A text without marks. -/
def MarkFree (text : String) : Prop := '?' ∉ text.toList

instance (text : String) : Decidable (MarkFree text) :=
  inferInstanceAs (Decidable ('?' ∉ text.toList))

theorem MarkFree.append {a b : String} (ha : MarkFree a) (hb : MarkFree b) :
    MarkFree (a ++ b) := by
  simp only [MarkFree, String.toList_append, List.mem_append, not_or]
  exact ⟨ha, hb⟩

/-- What holds of the empty text, and of two texts with a separator between them if it holds of
both, holds of texts with separators between them. -/
theorem intercalate_induct {P : String → Prop} {separator : String} {texts : List String}
    (empty : P "") (join : ∀ a b, P a → P b → P (a ++ separator ++ b))
    (h : ∀ text ∈ texts, P text) : P (String.intercalate separator texts) := by
  induction texts with
  | nil =>
    rw [String.intercalate_nil]
    exact empty
  | cons text texts ih =>
    have first : P text := h text List.mem_cons_self
    cases texts with
    | nil =>
      rw [String.intercalate_singleton]
      exact first
    | cons next texts =>
      rw [String.intercalate_cons_cons]
      exact join _ _ first (ih fun t ht => h t (List.mem_cons_of_mem _ ht))

theorem MarkFree.intercalate {separator : String} {texts : List String}
    (hs : MarkFree separator) (h : ∀ text ∈ texts, MarkFree text) :
    MarkFree (String.intercalate separator texts) :=
  intercalate_induct (by decide) (fun _ _ ha hb => (ha.append hs).append hb) h

theorem MarkFree.upToLast? {mark : Char} {text front : String} (h : MarkFree text)
    (cut : Text.upToLast? mark text = some front) : MarkFree front := by
  obtain ⟨⟨before, after⟩, hc, rfl⟩ := Option.map_eq_some_iff.1 cut
  intro hm
  rw [String.toList_ofList] at hm
  rw [MarkFree, (Text.eq_of_cutLast? hc).1] at h
  exact h (List.mem_append_left after hm)

/-- A text without marks that does not start with a digit, and so ends the run of digits in front of
it. -/
def Separates (text : String) : Prop :=
  MarkFree text ∧ text.toList.head?.any (!·.isDigit) = true

instance (text : String) : Decidable (Separates text) :=
  inferInstanceAs (Decidable (MarkFree text ∧ _ = true))

theorem Separates.head {text : String} (h : Separates text) (more : List Char) :
    ∀ c ∈ (text.toList ++ more).head?, c.isDigit = false := by
  obtain ⟨d, hd, hn⟩ := (Option.any_eq_true _ _).1 h.2
  intro c hc
  rw [List.head?_append, hd] at hc
  simpa [Option.mem_some.1 hc] using hn

/-! ## Marks of texts -/

/-- A text with the numbers after its marks. -/
def Marks (text : String) (numbers : List Nat) : Prop := markNumbers? text.toList = some numbers

namespace Marks

variable {a b s : String} {xs ys : List Nat}

/-- The marks of a text are determined. -/
theorem unique (h : Marks a xs) (h' : Marks a ys) : xs = ys := Option.some.inj (h.symm.trans h')

/-- A text without marks has no numbers. -/
theorem of_free (h : MarkFree s) : Marks s [] := by
  rw [Marks, ← List.append_nil s.toList, markNumbers?_append_of_free h]
  rfl

/-- The placeholder of an index shows it. -/
theorem placeholder (n : Nat) : Marks (placeholder "?" n) [n] := by
  rw [Marks, toList_placeholder]
  exact markNumbers?_toDigits n

/-- A text without marks may stand in front. -/
theorem opened (hs : MarkFree s) (ha : Marks a xs) : Marks (s ++ a) xs := by
  rw [Marks, String.toList_append, markNumbers?_append_of_free hs]
  exact ha

/-- A separator may stand behind. -/
theorem closed (ha : Marks a xs) (hs : Separates s) : Marks (a ++ s) xs := by
  have head := hs.head []
  rw [List.append_nil] at head
  rw [Marks, String.toList_append, markNumbers?_append head, ha, of_free hs.1]
  simp

/-- Two texts may stand with a separator between them. -/
theorem between (ha : Marks a xs) (hs : Separates s) (hb : Marks b ys) :
    Marks (a ++ s ++ b) (xs ++ ys) := by
  rw [Marks, String.append_assoc, String.toList_append, String.toList_append,
    markNumbers?_append (hs.head _), ha, markNumbers?_append_of_free hs.1, hb]
  rfl

/-- One of two texts without marks may stand for the other, unless it starts with a digit where the
other does not. -/
theorem substituteFirst {pattern replacement : String} (hp : Separates pattern)
    (hr : Separates replacement) (ha : Marks a xs) :
    Marks (Text.substituteFirst pattern replacement a) xs := by
  rw [Marks, Text.substituteFirst, String.toList_ofList, Text.replaceFirst]
  cases hc : Text.cut? pattern.toList a.toList with
  | none => exact ha
  | some cut =>
    obtain ⟨before, after⟩ := cut
    rw [Marks, Text.eq_of_cut? hc, List.append_assoc, markNumbers?_append (hp.head after),
      markNumbers?_append_of_free hp.1] at ha
    show markNumbers? (before ++ replacement.toList ++ after) = some xs
    rw [List.append_assoc, markNumbers?_append (hr.head after), markNumbers?_append_of_free hr.1]
    exact ha

end Marks

end EntityQuery
