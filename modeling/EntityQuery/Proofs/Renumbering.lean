import EntityQuery.Proofs.Marks

/-!
# Renumbering placeholders

A text with other numbers after its marks `?`, and all else as it was. Renumbering goes through
texts that are put together with separators between them, and finds the same places in a text as
before: what is searched for has no marks, so it is neither hidden nor made up by other numbers,
whatever their length.

## Main definitions

* `renumber`: the characters of a text with the numbers after its marks changed
* `shiftMarks`: a text with the numbers after its marks shifted

## Main results

* `renumber_append`: renumbering of two texts, the second of which does not start with a digit
* `cut?_renumber`: the first occurrence of a pattern without marks and digits stays where it is
* `shiftMarks_append`, `shiftMarks_between`: shifting goes through texts with separators between
  them
* `shiftMarks_placeholder`: the placeholder of an index becomes that of the shifted one
-/

namespace EntityQuery

/-! ## Characters -/

variable (f : Nat → Nat)

/-- The digits of another number for the digits of a number; nothing for no digit. -/
def renumberDigits (digits : List Char) : List Char :=
  if digits.isEmpty then [] else Nat.toDigits 10 (f (digitsValue digits))

/-- The characters of a text, in which the number after every mark `?` is changed. The number is the
longest run of digits there, which is still what the rest starts with when its own marks are
renumbered. -/
def renumber : List Char → List Char
  | [] => []
  | c :: rest =>
    if c = '?' then
      '?' :: (renumberDigits f (rest.takeWhile Char.isDigit) ++
        (renumber rest).dropWhile Char.isDigit)
    else c :: renumber rest

theorem renumber_cons_of_ne {c : Char} (h : c ≠ '?') (rest : List Char) :
    renumber f (c :: rest) = c :: renumber f rest := by
  rw [renumber, if_neg h]

theorem renumber_mark (rest : List Char) :
    renumber f ('?' :: rest) = '?' :: (renumberDigits f (rest.takeWhile Char.isDigit) ++
      (renumber f rest).dropWhile Char.isDigit) := by
  rw [renumber, if_pos rfl]

/-- A text without marks in front stays as it is. -/
theorem renumber_append_of_free {front : List Char} (h : '?' ∉ front) (text : List Char) :
    renumber f (front ++ text) = front ++ renumber f text := by
  induction front with
  | nil => rfl
  | cons c front ih =>
    obtain ⟨head, tail⟩ := not_or.1 (mt List.mem_cons.2 h)
    rw [List.cons_append, renumber_cons_of_ne f (Ne.symm head), ih tail, List.cons_append]

theorem renumber_of_free {text : List Char} (h : '?' ∉ text) : renumber f text = text := by
  rw [← List.append_nil text, renumber_append_of_free f h]
  rfl

theorem head?_renumber (text : List Char) : (renumber f text).head? = text.head? := by
  cases text with
  | nil => rfl
  | cons c rest =>
    rw [renumber]
    split
    · rename_i mark
      rw [mark]
      rfl
    · rfl

/-- A text that does not start with a digit ends a run of digits in front of it. -/
theorem dropWhile_isDigit_append {text more : List Char}
    (h : ∀ c ∈ more.head?, c.isDigit = false) :
    (text ++ more).dropWhile Char.isDigit = text.dropWhile Char.isDigit ++ more := by
  induction text with
  | nil =>
    cases more with
    | nil => rfl
    | cons c more => simp [h c rfl]
  | cons c text ih =>
    simp only [List.cons_append, List.dropWhile_cons, ih]
    split <;> rfl

/-- The renumbering of two texts, the second of which does not start with a digit. -/
theorem renumber_append {more : List Char} (h : ∀ c ∈ more.head?, c.isDigit = false)
    (text : List Char) : renumber f (text ++ more) = renumber f text ++ renumber f more := by
  induction text with
  | nil => rfl
  | cons c text ih =>
    by_cases hc : c = '?'
    · subst hc
      have head : ∀ c ∈ (renumber f more).head?, c.isDigit = false := by
        rw [head?_renumber]
        exact h
      rw [List.cons_append, renumber_mark, renumber_mark, takeWhile_isDigit_append h, ih,
        dropWhile_isDigit_append head, List.cons_append, List.append_assoc]
    · rw [List.cons_append, renumber_cons_of_ne f hc, renumber_cons_of_ne f hc, ih,
        List.cons_append]

theorem mem_renumber_iff {text : List Char} : '?' ∈ renumber f text ↔ '?' ∈ text := by
  induction text with
  | nil => rfl
  | cons c rest ih =>
    by_cases h : c = '?'
    · subst h
      simp [renumber_mark]
    · rw [renumber_cons_of_ne f h, List.mem_cons, List.mem_cons, ih]

/-- A placeholder shows the other number. -/
theorem renumber_toDigits (n : Nat) :
    renumber f ('?' :: Nat.toDigits 10 n) = '?' :: Nat.toDigits 10 (f n) := by
  have no_rest : (Nat.toDigits 10 n).dropWhile Char.isDigit = [] :=
    List.dropWhile_eq_nil_iff.2 fun _ h => isDigit_of_mem_toDigits h
  rw [renumber_mark, renumber_of_free f (mark_not_mem_toDigits n), takeWhile_isDigit_toDigits,
    no_rest, renumberDigits, if_neg (by simp [Nat.toDigits_ne_nil]), digitsValue_toDigits,
    List.append_nil]

theorem isDigit_of_mem_renumberDigits {digits : List Char} {c : Char}
    (h : c ∈ renumberDigits f digits) : c.isDigit := by
  rw [renumberDigits] at h
  split at h
  · cases h
  · exact isDigit_of_mem_toDigits h

/-- A mark with its number, before a text that does not start with a digit. -/
theorem renumber_number {digits rest : List Char} (all : ∀ d ∈ digits, d.isDigit)
    (head : ∀ c ∈ rest.head?, c.isDigit = false) :
    renumber f ('?' :: (digits ++ rest)) = '?' :: (renumberDigits f digits ++ renumber f rest) := by
  have free : '?' ∉ digits := fun h => absurd (all _ h) (by decide)
  have head' : ∀ c ∈ (renumber f rest).head?, c.isDigit = false := by
    rw [head?_renumber]
    exact head
  rw [renumber_mark, takeWhile_isDigit_append head, List.takeWhile_eq_self_iff.2 all,
    renumber_append_of_free f free, dropWhile_isDigit_append head',
    List.dropWhile_eq_nil_iff.2 all, List.nil_append]

/-- Induction over a text: a mark comes with the whole number after it. -/
theorem marks_induct {motive : List Char → Prop} (nil : motive [])
    (char : ∀ c rest, c ≠ '?' → motive rest → motive (c :: rest))
    (mark : ∀ digits rest, (∀ d ∈ digits, d.isDigit) → (∀ c ∈ rest.head?, c.isDigit = false) →
      motive rest → motive ('?' :: (digits ++ rest)))
    (text : List Char) : motive text :=
  match text with
  | [] => nil
  | c :: rest => by
    by_cases h : c = '?'
    · subst h
      rw [← List.takeWhile_append_dropWhile (p := Char.isDigit) (l := rest)]
      refine mark _ _ (fun d => List.mem_takeWhile_imp) ?_ (marks_induct nil char mark _)
      intro d hd
      simpa [Option.mem_def.1 hd] using List.head?_dropWhile_not Char.isDigit rest
    · exact char c rest h (marks_induct nil char mark rest)
termination_by text.length
decreasing_by
  · exact Nat.lt_succ_of_le (List.length_dropWhile_le Char.isDigit rest)
  · exact Nat.lt_succ_self _

/-! ## Searching -/

section Searching

variable {pattern : List Char}

/-- A pattern without marks starts a text if and only if it starts the renumbered one. -/
theorem isPrefixOf_renumber (free : '?' ∉ pattern) (text : List Char) :
    pattern.isPrefixOf (renumber f text) = pattern.isPrefixOf text := by
  induction pattern generalizing text with
  | nil => simp
  | cons p pattern ih =>
    obtain ⟨head, tail⟩ := not_or.1 (mt List.mem_cons.2 free)
    cases text with
    | nil => rfl
    | cons c rest =>
      by_cases h : c = '?'
      · subst h
        have differs : (p == '?') = false := beq_eq_false_iff_ne.2 (Ne.symm head)
        simp [renumber_mark, List.isPrefixOf, differs]
      · rw [renumber_cons_of_ne f h, List.isPrefixOf, List.isPrefixOf, ih tail]

/-- The first occurrence of a pattern without marks and digits stays where it is. -/
theorem cut?_renumber {p : Char} (free : '?' ∉ p :: pattern) (not_digit : p.isDigit = false)
    (text : List Char) :
    Text.cut? (p :: pattern) (renumber f text) =
      (Text.cut? (p :: pattern) text).map fun (before, after) =>
        (renumber f before, renumber f after) := by
  -- Neither a mark nor its number can hide the first character of the pattern.
  have passes {digits : List Char} (all : ∀ d ∈ digits, d.isDigit) : p ∉ '?' :: digits := by
    have not_mark : p ≠ '?' := fun hp => free (hp ▸ List.mem_cons_self)
    have no_digit : p ∉ digits := fun hm => absurd (all p hm) (by simp [not_digit])
    simp [not_mark, no_digit]
  induction text using marks_induct with
  | nil => rfl
  | char c rest h ih =>
    have starts_eq := isPrefixOf_renumber f free (c :: rest)
    rw [renumber_cons_of_ne f h] at starts_eq ⊢
    rw [Text.cut?, Text.cut?, starts_eq]
    split
    · rename_i starts
      obtain ⟨tail, tail_eq⟩ := List.isPrefixOf_iff_prefix.1 starts
      rw [← renumber_cons_of_ne f h, ← tail_eq, renumber_append_of_free f free]
      simp [renumber]
    · rw [ih]
      simp [Function.comp_def, renumber_cons_of_ne f h]
  | mark digits rest all head ih =>
    rw [renumber_number f all head, ← List.cons_append, ← List.cons_append,
      Text.cut?_append_of_not_mem (passes fun d => isDigit_of_mem_renumberDigits f), ih,
      Text.cut?_append_of_not_mem (passes all)]
    cases found : Text.cut? (p :: pattern) rest with
    | none => rfl
    | some cut =>
      obtain ⟨before, after⟩ := cut
      have before_head : ∀ c ∈ before.head?, c.isDigit = false := by
        intro c hc
        apply head c
        rw [Text.eq_of_cut? found, List.append_assoc, List.head?_append, hc]
        rfl
      simp [renumber_number f all before_head]

end Searching

/-- A replacement is made where it was. -/
theorem replaceFirst_renumber {p : Char} (free : '?' ∉ p :: pattern)
    (not_digit : p.isDigit = false) {replacement : List Char} (replacement_free : '?' ∉ replacement)
    (replacement_head : ∀ text, ∀ c ∈ (replacement ++ text).head?, c.isDigit = false)
    (text : List Char) :
    Text.replaceFirst (p :: pattern) replacement (renumber f text) =
      renumber f (Text.replaceFirst (p :: pattern) replacement text) := by
  rw [Text.replaceFirst, Text.replaceFirst, cut?_renumber f free not_digit]
  cases Text.cut? (p :: pattern) text with
  | none => rfl
  | some cut =>
    obtain ⟨before, after⟩ := cut
    simp only [Option.map_some]
    rw [List.append_assoc, List.append_assoc, renumber_append f (replacement_head after),
      renumber_append_of_free f replacement_free]

/-! ## Texts -/

/-- A text in which the numbers after marks are shifted. -/
def shiftMarks (d : Int) (text : String) : String :=
  String.ofList (renumber (fun n => (n + d).toNat) text.toList)

section Texts

variable (d : Int) {a b s : String}

/-- A text without marks stays as it is. -/
theorem shiftMarks_of_free (h : MarkFree s) : shiftMarks d s = s := by
  rw [shiftMarks, renumber_of_free _ h, String.ofList_toList]

/-- Shifting makes no text of a text with marks that has none. -/
theorem shiftMarks_eq_iff (h : MarkFree s) : shiftMarks d a = s ↔ a = s := by
  constructor
  · rintro rfl
    have free : MarkFree a := by
      rw [MarkFree, shiftMarks, String.toList_ofList, mem_renumber_iff] at h
      exact h
    exact (shiftMarks_of_free d free).symm
  · rintro rfl
    exact shiftMarks_of_free d h

theorem shiftMarks_append_of_free (h : MarkFree s) (a : String) :
    shiftMarks d (s ++ a) = s ++ shiftMarks d a := by
  rw [shiftMarks, String.toList_append, renumber_append_of_free _ h, String.ofList_append,
    String.ofList_toList, shiftMarks]

theorem shiftMarks_append (h : Separates s) (a : String) :
    shiftMarks d (a ++ s) = shiftMarks d a ++ s := by
  have head := h.head []
  rw [List.append_nil] at head
  rw [shiftMarks, String.toList_append, renumber_append _ head, renumber_of_free _ h.1,
    String.ofList_append, String.ofList_toList, shiftMarks]

theorem shiftMarks_between (h : Separates s) (a b : String) :
    shiftMarks d (a ++ s ++ b) = shiftMarks d a ++ s ++ shiftMarks d b := by
  rw [shiftMarks, String.append_assoc, String.toList_append, String.toList_append,
    renumber_append _ (h.head _), renumber_append_of_free _ h.1, String.ofList_append,
    String.ofList_append, String.ofList_toList, String.append_assoc]
  rfl

/-- The placeholder of an index becomes that of the shifted one. -/
theorem shiftMarks_placeholder (n : Nat) :
    shiftMarks d (placeholder "?" n) = placeholder "?" (n + d).toNat := by
  rw [shiftMarks, toList_placeholder, renumber_toDigits, ← toList_placeholder,
    String.ofList_toList]

/-- One of two texts without marks stands for the other where it did, unless it starts with a
digit. -/
theorem substituteFirst_shiftMarks {pattern replacement : String} (hp : Separates pattern)
    (hr : Separates replacement) (a : String) :
    Text.substituteFirst pattern replacement (shiftMarks d a) =
      shiftMarks d (Text.substituteFirst pattern replacement a) := by
  obtain ⟨p, hpattern, not_digit⟩ := (Option.any_eq_true _ _).1 hp.2
  obtain ⟨rest, pattern_eq⟩ := List.head?_eq_some_iff.1 hpattern
  have free := hp.1
  rw [MarkFree, pattern_eq] at free
  rw [Text.substituteFirst, Text.substituteFirst, shiftMarks, shiftMarks, String.toList_ofList,
    String.toList_ofList, pattern_eq,
    replaceFirst_renumber _ free (by simpa using not_digit) hr.1 hr.head]

end Texts

end EntityQuery
