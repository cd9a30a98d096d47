/-!
# Searching in text

Finding a pattern in a text and cutting the text there. The functions work on lists of characters;
their counterparts on strings carry the same names.

## Main definitions

* `cut?`: the text before and after the first occurrence of a pattern
* `replaceFirst`: one replacement at the first occurrence
* `pieces`: the pieces of a text between the occurrences of a separator
* `cutLast?`: the text before the last mark, and the text from it on

## Main results

* `eq_of_cut?`: cutting loses only the pattern
* `cut?_append_of_not_mem`: a text that the pattern does not start in is passed over
* `cut?_eq_none`, `cut?_append_of_some`, `cut?_append_cons_of_none`: which occurrence is the first
* `pieces_eq_singleton`: a text in which a separator does not occur is one piece
* `mem_of_mem_pieces`, `mem_of_mem_split`: pieces have only characters of the text
* `eq_of_cutLast?`, `cutLast?_append`: the cut is at a mark, and no mark follows it
-/

namespace EntityQuery.Text

/-! ## First occurrence -/

/-- The text before and after the first occurrence of `pattern`. -/
def cut? (pattern : List Char) : List Char → Option (List Char × List Char)
  | [] => if pattern.isEmpty then some ([], []) else none
  | c :: rest =>
    if pattern.isPrefixOf (c :: rest) then some ([], (c :: rest).drop pattern.length)
    else (cut? pattern rest).map fun (before, after) => (c :: before, after)

/-- Cutting loses only the pattern. -/
theorem eq_of_cut? {pattern text before after : List Char}
    (h : cut? pattern text = some (before, after)) : text = before ++ pattern ++ after := by
  induction text generalizing before after with
  | nil =>
    simp only [cut?] at h
    split at h
    · simp_all
    · simp at h
  | cons c rest ih =>
    simp only [cut?] at h
    split at h
    · rename_i hp
      obtain ⟨tail, ht⟩ := List.isPrefixOf_iff_prefix.1 hp
      simp only [Option.some.injEq, Prod.mk.injEq] at h
      obtain ⟨rfl, rfl⟩ := h
      simp [← ht]
    · obtain ⟨⟨b, a⟩, hb, hp⟩ := Option.map_eq_some_iff.1 h
      simp only [Prod.mk.injEq] at hp
      obtain ⟨rfl, rfl⟩ := hp
      simp [ih hb]

/-- A text without the first character of a pattern can be passed over in front. -/
theorem cut?_append_of_not_mem {p : Char} {pattern front : List Char} (h : p ∉ front)
    (text : List Char) :
    cut? (p :: pattern) (front ++ text) =
      (cut? (p :: pattern) text).map fun (before, after) => (front ++ before, after) := by
  induction front with
  | nil => simp
  | cons c front ih =>
    obtain ⟨head, tail⟩ := not_or.1 (mt List.mem_cons.2 h)
    have differs : (p == c) = false := beq_eq_false_iff_ne.2 head
    rw [List.cons_append, cut?, ih tail]
    simp [List.isPrefixOf, differs, Function.comp_def]

/-- A pattern is found wherever it occurs. -/
theorem cut?_eq_none {pattern text : List Char} :
    cut? pattern text = none ↔ ¬pattern <:+: text := by
  induction text with
  | nil => cases pattern <;> simp [cut?]
  | cons c rest ih =>
    rw [cut?, List.infix_cons_iff]
    by_cases starts : pattern <+: c :: rest
    · simp [starts]
    · simp [starts, ih]

/-- An occurrence is the first one however the text goes on. -/
theorem cut?_append_of_some {pattern front before after : List Char}
    (h : cut? pattern front = some (before, after)) (text : List Char) :
    cut? pattern (front ++ text) = some (before, after ++ text) := by
  induction front generalizing before with
  | nil =>
    simp only [cut?] at h
    split at h
    · rename_i empty
      obtain ⟨rfl, rfl⟩ := Prod.mk.inj (Option.some.inj h)
      rw [List.isEmpty_iff.1 empty]
      cases text <;> rfl
    · cases h
  | cons c rest ih =>
    rw [List.cons_append, cut?]
    rw [cut?] at h
    by_cases starts : pattern <+: c :: rest
    · rw [if_pos (List.isPrefixOf_iff_prefix.2 starts)] at h
      obtain ⟨rfl, rfl⟩ := Prod.mk.inj (Option.some.inj h)
      have further : pattern <+: c :: (rest ++ text) :=
        starts.trans (List.prefix_append (c :: rest) text)
      rw [if_pos (List.isPrefixOf_iff_prefix.2 further), ← List.cons_append,
        List.drop_append_of_le_length starts.length_le]
    · rw [if_neg (mt List.isPrefixOf_iff_prefix.1 starts)] at h
      obtain ⟨⟨b, a⟩, found, same⟩ := Option.map_eq_some_iff.1 h
      obtain ⟨rfl, rfl⟩ := Prod.mk.inj same
      -- The occurrence in the rest leaves no room for an earlier one that ends in the new text.
      have room : pattern.length ≤ rest.length := by
        rw [eq_of_cut? found]
        simp only [List.length_append]
        omega
      have later : ¬pattern <+: c :: (rest ++ text) := by
        intro further
        refine starts (List.prefix_of_prefix_length_le further
          (List.prefix_append (c :: rest) text) ?_)
        rw [List.length_cons]
        omega
      rw [if_neg (mt List.isPrefixOf_iff_prefix.1 later), ih found]
      rfl

/-- A pattern that does not occur in front of a character that it does not contain is found after
it. -/
theorem cut?_append_cons_of_none {pattern front : List Char} (h : cut? pattern front = none)
    {c : Char} (barrier : c ∉ pattern) (text : List Char) :
    cut? pattern (front ++ c :: text) =
      (cut? pattern (c :: text)).map fun (before, after) => (front ++ before, after) := by
  induction front with
  | nil => simp
  | cons d front ih =>
    obtain ⟨starts, rest⟩ := not_or.1 (mt List.infix_cons_iff.2 (cut?_eq_none.1 h))
    have later : ¬pattern <+: d :: (front ++ c :: text) := by
      intro further
      -- An occurrence that does not end in front contains the character after it.
      have upTo : d :: front ++ [c] <+: d :: (front ++ c :: text) := ⟨text, by simp⟩
      have barrier_mem : c ∈ d :: front ++ [c] := by simp
      rcases List.prefix_or_prefix_of_prefix further upTo with inside | beyond
      · rcases List.prefix_concat_iff.1 inside with rfl | inside
        · exact barrier barrier_mem
        · exact starts inside
      · exact barrier (beyond.subset barrier_mem)
    rw [List.cons_append, cut?, if_neg (mt List.isPrefixOf_iff_prefix.1 later),
      ih (cut?_eq_none.2 rest)]
    simp [Function.comp_def]

/-- `text` with the first occurrence of `pattern` replaced. -/
def replaceFirst (pattern replacement text : List Char) : List Char :=
  match cut? pattern text with
  | some (before, after) => before ++ replacement ++ after
  | none => text

/-! ## Pieces -/

/-- Puts a character in front of the first piece. -/
def growFirst (c : Char) : List (List Char) → List (List Char)
  | [] => [[c]]
  | piece :: rest => (c :: piece) :: rest

/-- The pieces between occurrences of a nonempty separator, found from left to right without
overlap; `skip` counts the characters of an occurrence that are still to be passed over. -/
def piecesFrom (separator : List Char) (skip : Nat) : List Char → List (List Char)
  | [] => [[]]
  | c :: rest =>
    match skip with
    | skip + 1 => piecesFrom separator skip rest
    | 0 =>
      if separator.isPrefixOf (c :: rest) then
        [] :: piecesFrom separator (separator.length - 1) rest
      else growFirst c (piecesFrom separator 0 rest)

/-- The pieces of a text between the occurrences of a separator. An empty separator occurs between
any two characters and at both ends. -/
def pieces (separator text : List Char) : List (List Char) :=
  if separator.isEmpty then [] :: text.map ([·]) ++ [[]] else piecesFrom separator 0 text

theorem piecesFrom_eq_singleton {separator text : List Char} (free : ¬separator <:+: text) :
    piecesFrom separator 0 text = [text] := by
  induction text with
  | nil => rfl
  | cons c rest ih =>
    obtain ⟨starts, later⟩ := not_or.1 (mt List.infix_cons_iff.2 free)
    rw [piecesFrom, if_neg (mt List.isPrefixOf_iff_prefix.1 starts), ih later]
    rfl

/-- A text in which a separator does not occur is one piece. -/
theorem pieces_eq_singleton {separator text : List Char} (free : ¬separator <:+: text) :
    pieces separator text = [text] := by
  have nonempty : separator.isEmpty = false := by
    rw [List.isEmpty_eq_false_iff]
    rintro rfl
    exact free List.nil_infix
  rw [pieces, nonempty]
  exact piecesFrom_eq_singleton free

theorem mem_growFirst {c : Char} {ps : List (List Char)} {piece : List Char}
    (h : piece ∈ growFirst c ps) : piece ∈ ps ∨ piece = [c] ∨ ∃ front ∈ ps, piece = c :: front := by
  cases ps with
  | nil => exact .inr (.inl (List.mem_singleton.1 h))
  | cons front ps =>
    rcases List.mem_cons.1 h with grown | later
    · exact .inr (.inr ⟨front, List.mem_cons_self, grown⟩)
    · exact .inl (List.mem_cons_of_mem front later)

theorem mem_of_mem_piecesFrom {separator text : List Char} {skip : Nat} {piece : List Char}
    (hp : piece ∈ piecesFrom separator skip text) {c : Char} (hc : c ∈ piece) : c ∈ text := by
  induction text generalizing skip piece with
  | nil =>
    rw [piecesFrom, List.mem_singleton] at hp
    rwa [hp] at hc
  | cons d rest ih =>
    cases skip with
    | succ skip => exact List.mem_cons_of_mem d (ih hp hc)
    | zero =>
      simp only [piecesFrom] at hp
      split at hp
      · rcases List.mem_cons.1 hp with rfl | later
        · cases hc
        · exact List.mem_cons_of_mem d (ih later hc)
      · rcases mem_growFirst hp with later | rfl | ⟨front, first, rfl⟩
        · exact List.mem_cons_of_mem d (ih later hc)
        · exact List.mem_cons.2 (.inl (List.mem_singleton.1 hc))
        · exact List.mem_cons.2 ((List.mem_cons.1 hc).imp_right (ih first))

/-- A piece has only characters of the text. -/
theorem mem_of_mem_pieces {separator text piece : List Char} (hp : piece ∈ pieces separator text)
    {c : Char} (hc : c ∈ piece) : c ∈ text := by
  unfold pieces at hp
  split at hp
  · simp only [List.mem_append, List.mem_cons, List.mem_map, List.not_mem_nil, or_false] at hp
    rcases hp with (rfl | ⟨d, hd, rfl⟩) | rfl
    · cases hc
    · rwa [List.mem_singleton.1 hc]
    · cases hc
  · exact mem_of_mem_piecesFrom hp hc

/-! ## Last occurrence -/

/-- The text before the last mark, and the text from that mark on. -/
def cutLast? (isMark : Char → Bool) : List Char → Option (List Char × List Char)
  | [] => none
  | c :: rest =>
    match cutLast? isMark rest with
    | some (before, after) => some (c :: before, after)
    | none => if isMark c then some ([], c :: rest) else none

theorem cutLast?_eq_none {isMark : Char → Bool} {text : List Char} :
    cutLast? isMark text = none ↔ ∀ c ∈ text, isMark c = false := by
  induction text with
  | nil => simp [cutLast?]
  | cons c rest ih =>
    simp only [cutLast?, List.forall_mem_cons, ← ih]
    cases cutLast? isMark rest <;> simp

/-- The cut is at a mark, and no mark follows it. -/
theorem eq_of_cutLast? {isMark : Char → Bool} {text before after : List Char}
    (h : cutLast? isMark text = some (before, after)) :
    text = before ++ after ∧
      ∃ c rest, after = c :: rest ∧ isMark c = true ∧ ∀ d ∈ rest, isMark d = false := by
  induction text generalizing before with
  | nil => simp [cutLast?] at h
  | cons c rest ih =>
    simp only [cutLast?] at h
    split at h
    · rename_i b a hb
      simp only [Option.some.injEq, Prod.mk.injEq] at h
      obtain ⟨rfl, rfl⟩ := h
      obtain ⟨hr, ha⟩ := ih hb
      exact ⟨by simp [hr], ha⟩
    · rename_i hn
      split at h
      · rename_i hc
        simp only [Option.some.injEq, Prod.mk.injEq] at h
        obtain ⟨rfl, rfl⟩ := h
        exact ⟨rfl, c, rest, rfl, hc, cutLast?_eq_none.1 hn⟩
      · simp at h

/-- The last mark is found whatever stands in front of it. -/
theorem cutLast?_append {isMark : Char → Bool} {c : Char} (mark : isMark c = true)
    {rest : List Char} (free : ∀ d ∈ rest, isMark d = false) (front : List Char) :
    cutLast? isMark (front ++ c :: rest) = some (front, c :: rest) := by
  induction front with
  | nil => simp [cutLast?, cutLast?_eq_none.2 free, mark]
  | cons d front ih => rw [List.cons_append, cutLast?, ih]

/-! ## Strings -/

/-- The pieces of a string between the occurrences of a separator. -/
def split (separator text : String) : List String :=
  (pieces separator.toList text.toList).map String.ofList

/-- A string in which a separator does not occur is one piece. -/
theorem split_eq_singleton {separator text : String}
    (free : ¬separator.toList <:+: text.toList) : split separator text = [text] := by
  rw [split, pieces_eq_singleton free, List.map_singleton, String.ofList_toList]

/-- A piece of a string has only characters of that string. -/
theorem mem_of_mem_split {separator text piece : String} (hp : piece ∈ split separator text)
    {c : Char} (hc : c ∈ piece.toList) : c ∈ text.toList := by
  obtain ⟨chars, found, rfl⟩ := List.mem_map.1 hp
  rw [String.toList_ofList] at hc
  exact mem_of_mem_pieces found hc

/-- A string with the first occurrence of `pattern` replaced. -/
def substituteFirst (pattern replacement text : String) : String :=
  String.ofList (replaceFirst pattern.toList replacement.toList text.toList)

/-- The part of a string before the last occurrence of `mark`. -/
def upToLast? (mark : Char) (text : String) : Option String :=
  (cutLast? (· == mark) text.toList).map fun (before, _) => String.ofList before

theorem upToLast?_eq_none {mark : Char} {text : String} :
    upToLast? mark text = none ↔ mark ∉ text.toList := by
  rw [upToLast?, Option.map_eq_none_iff, cutLast?_eq_none]
  simp [List.forall_mem_ne']

/-- A string is cut at the mark that no other one follows. -/
theorem upToLast?_append {mark : Char} {rest : String} (free : mark ∉ rest.toList)
    (front : String) : upToLast? mark (front ++ String.singleton mark ++ rest) = some front := by
  have others : ∀ d ∈ rest.toList, (d == mark) = false := by
    intro d hd
    rw [beq_eq_false_iff_ne]
    rintro rfl
    exact free hd
  have cut : cutLast? (· == mark) (front.toList ++ mark :: rest.toList) =
      some (front.toList, mark :: rest.toList) := by
    apply cutLast?_append
    · exact beq_self_eq_true mark
    · exact others
  have chars : (front ++ String.singleton mark ++ rest).toList =
      front.toList ++ mark :: rest.toList := by simp
  rw [upToLast?, chars, cut]
  show some (String.ofList front.toList) = some front
  rw [String.ofList_toList]

end EntityQuery.Text
