import EntityQuery.Proofs.Reading

/-!
# Parentheses and the words outside of them

Where a text is cut at the blanks outside of all parentheses, a group in parentheses is one piece
with whatever touches it. These pieces are the words by which a reader sees how conditions are
joined: what stands inside of parentheses joins nothing outside of them.

## Main definitions

* `depthAfter?`, `Balanced`: how deep parentheses are open after a text
* `openWords`, `StandsOpen`: the words of a text, and texts that stand outside of parentheses
* `Runs`, `Guarded`: texts of one word, and texts among whose words certain ones are not
* `conjuncts`: the parts of a text that are joined by `AND`

## Main results

* `openWords_append_blank`: a blank outside of parentheses separates words
* `Runs.append`, `Balanced.runs`: one word put together from pieces and groups
* `Guarded.not_standsOpen`: a guarded text shows no such word outside of parentheses
* `conjuncts_append`: behind `AND` a guarded text is one part of the whole
-/

namespace EntityQuery

/-! ## Depth -/

/-- The depth of parentheses behind a character. -/
def depthBy (depth : Nat) (c : Char) : Nat :=
  if c = '(' then depth + 1 else if c = ')' then depth - 1 else depth

/-- The depth of parentheses behind a character, missing where it closes one that is not open. -/
def depthBy? (depth : Nat) (c : Char) : Option Nat :=
  if c = ')' ∧ depth = 0 then none else some (depthBy depth c)

/-- The depth of parentheses behind a text that starts at a depth, missing where one is closed that
is not open. -/
def depthAfter? (depth : Nat) (text : List Char) : Option Nat := text.foldlM depthBy? depth

theorem depthAfter?_append (depth : Nat) (a b : List Char) :
    depthAfter? depth (a ++ b) = (depthAfter? depth a).bind fun after => depthAfter? after b :=
  List.foldlM_append

theorem depthAfter?_cons_eq_some {depth after : Nat} {c : Char} {rest : List Char} :
    depthAfter? depth (c :: rest) = some after ↔
      ¬(c = ')' ∧ depth = 0) ∧ depthAfter? (depthBy depth c) rest = some after := by
  unfold depthAfter?
  rw [List.foldlM_cons, depthBy?]
  split <;> simp_all

/-- A character that closes only what is open does the same at a greater depth. -/
theorem depthBy_add {depth : Nat} {c : Char} (opened : ¬(c = ')' ∧ depth = 0)) (k : Nat) :
    depthBy (depth + k) c = depthBy depth c + k := by
  unfold depthBy
  split_ifs with opening closing
  · omega
  · have positive : depth ≠ 0 := fun zero => opened ⟨closing, zero⟩
    omega
  · rfl

/-- A text may stand deeper, and then ends as much deeper. -/
theorem depthAfter?_add {depth after : Nat} {text : List Char}
    (h : depthAfter? depth text = some after) (k : Nat) :
    depthAfter? (depth + k) text = some (after + k) := by
  induction text generalizing depth with
  | nil =>
    obtain rfl := Option.some.inj h
    rfl
  | cons c rest ih =>
    obtain ⟨opened, behind⟩ := depthAfter?_cons_eq_some.1 h
    rw [depthAfter?_cons_eq_some, depthBy_add opened]
    exact ⟨fun closed => opened ⟨closed.1, by omega⟩, ih behind⟩

theorem depthAfter?_of_not_mem {text : List Char} (opening : '(' ∉ text) (closing : ')' ∉ text)
    (depth : Nat) : depthAfter? depth text = some depth := by
  induction text with
  | nil => rfl
  | cons c rest ih =>
    obtain ⟨opening, opening_rest⟩ := not_or.1 (mt List.mem_cons.2 opening)
    obtain ⟨closing, closing_rest⟩ := not_or.1 (mt List.mem_cons.2 closing)
    have same : depthBy depth c = depth := by
      rw [depthBy, if_neg (Ne.symm opening), if_neg (Ne.symm closing)]
    rw [depthAfter?_cons_eq_some, same]
    exact ⟨fun closed => closing closed.1.symm, ih opening_rest closing_rest⟩

/-- A text that opens and closes its parentheses in order: the depth is never below zero, and zero
at the end. -/
def Balanced (text : String) : Prop := depthAfter? 0 text.toList = some 0

instance (text : String) : Decidable (Balanced text) :=
  inferInstanceAs (Decidable (depthAfter? 0 text.toList = some 0))

namespace Balanced

variable {a b s : String}

theorem append (ha : Balanced a) (hb : Balanced b) : Balanced (a ++ b) := by
  rw [Balanced, String.toList_append, depthAfter?_append, ha]
  exact hb

theorem intercalate {separator : String} {texts : List String} (hs : Balanced separator)
    (h : ∀ text ∈ texts, Balanced text) : Balanced (String.intercalate separator texts) :=
  intercalate_induct (by decide) (fun _ _ ha hb => (ha.append hs).append hb) h

/-- One of two texts without parentheses may stand for the other. -/
theorem substituteFirst {pattern replacement : String}
    (hp : '(' ∉ pattern.toList ∧ ')' ∉ pattern.toList)
    (hr : '(' ∉ replacement.toList ∧ ')' ∉ replacement.toList) (ha : Balanced a) :
    Balanced (Text.substituteFirst pattern replacement a) := by
  rw [Balanced, Text.substituteFirst, String.toList_ofList, Text.replaceFirst]
  cases hc : Text.cut? pattern.toList a.toList with
  | none => exact ha
  | some cut =>
    obtain ⟨before, after⟩ := cut
    have flat (t : List Char) (ht : '(' ∉ t ∧ ')' ∉ t) (d : Nat) :
        depthAfter? d t = some d := depthAfter?_of_not_mem ht.1 ht.2 d
    rw [Balanced, Text.eq_of_cut? hc] at ha
    simp only [depthAfter?_append, Option.bind_assoc, flat _ hp, flat _ hr] at ha ⊢
    exact ha

end Balanced

/-! ## Words outside of parentheses -/

/-- The words of a text that starts at a depth of parentheses: what stands between blanks outside
of all parentheses. -/
def openWords (depth : Nat) : List Char → List (List Char)
  | [] => [[]]
  | c :: rest =>
    if c = ' ' ∧ depth = 0 then [] :: openWords 0 rest
    else (openWords (depthBy depth c) rest).modifyHead (c :: ·)

theorem openWords_ne_nil (depth : Nat) (text : List Char) : openWords depth text ≠ [] := by
  induction text generalizing depth with
  | nil => simp [openWords]
  | cons c rest ih =>
    rw [openWords]
    split
    · simp
    · simpa using ih _

/-- A blank outside of parentheses separates words. -/
theorem openWords_append_blank {depth : Nat} {a : List Char} (h : depthAfter? depth a = some 0)
    (b : List Char) : openWords depth (a ++ ' ' :: b) = openWords depth a ++ openWords 0 b := by
  induction a generalizing depth with
  | nil =>
    obtain rfl := Option.some.inj h
    simp [openWords]
  | cons c rest ih =>
    obtain ⟨-, behind⟩ := depthAfter?_cons_eq_some.1 h
    rw [List.cons_append, openWords, openWords]
    split
    · rename_i blank
      obtain ⟨rfl, rfl⟩ := blank
      have rest_eq : openWords 0 (rest ++ ' ' :: b) = openWords 0 rest ++ openWords 0 b :=
        ih behind
      rw [rest_eq, List.cons_append]
    · obtain ⟨word, words, words_eq⟩ := List.exists_cons_of_ne_nil (openWords_ne_nil _ rest)
      rw [ih behind, words_eq]
      rfl

/-- Nothing is lost but the blanks between words. -/
theorem intercalate_openWords (depth : Nat) (text : List Char) :
    [' '].intercalate (openWords depth text) = text := by
  induction text generalizing depth with
  | nil => rfl
  | cons c rest ih =>
    rw [openWords]
    split
    · rename_i blank
      obtain ⟨word, words, words_eq⟩ := List.exists_cons_of_ne_nil (openWords_ne_nil 0 rest)
      have rest_eq := ih 0
      rw [words_eq] at rest_eq ⊢
      rw [List.intercalate_cons_cons, rest_eq, blank.1]
      rfl
    · obtain ⟨word, words, words_eq⟩ := List.exists_cons_of_ne_nil (openWords_ne_nil _ rest)
      have rest_eq := ih (depthBy depth c)
      rw [words_eq] at rest_eq ⊢
      rw [← rest_eq, List.modifyHead_cons]
      cases words with
      | nil => simp
      | cons next words => simp

/-- A pattern stands in a text outside of all parentheses. -/
def StandsOpen (pattern text : String) : Prop :=
  ∃ before after, text.toList = before ++ pattern.toList ++ after ∧
    depthAfter? 0 before = some 0

/-! ## Texts of one word -/

/-- A text from one depth of parentheses to another that has no blank outside of them. -/
def Runs (depth : Nat) (text : String) (after : Nat) : Prop :=
  depthAfter? depth text.toList = some after ∧ openWords depth text.toList = [text.toList]

instance (depth : Nat) (text : String) (after : Nat) : Decidable (Runs depth text after) :=
  inferInstanceAs (Decidable (_ ∧ _))

theorem openWords_append {depth after : Nat} {a b : List Char}
    (h : depthAfter? depth a = some after) (ha : openWords depth a = [a])
    (hb : openWords after b = [b]) : openWords depth (a ++ b) = [a ++ b] := by
  induction a generalizing depth with
  | nil =>
    obtain rfl := Option.some.inj h
    exact hb
  | cons c rest ih =>
    obtain ⟨-, behind⟩ := depthAfter?_cons_eq_some.1 h
    rw [openWords] at ha
    rw [List.cons_append, openWords]
    split_ifs at ha ⊢ with blank
    · cases List.head_eq_of_cons_eq ha
    · obtain ⟨word, words, words_eq⟩ :=
        List.exists_cons_of_ne_nil (openWords_ne_nil (depthBy depth c) rest)
      rw [words_eq, List.modifyHead_cons, List.cons.injEq, List.cons.injEq] at ha
      obtain ⟨⟨-, rfl⟩, rfl⟩ := ha
      rw [ih behind words_eq]
      rfl

theorem Runs.append {depth between after : Nat} {a b : String} (ha : Runs depth a between)
    (hb : Runs between b after) : Runs depth (a ++ b) after := by
  unfold Runs
  rw [String.toList_append, depthAfter?_append, ha.1]
  exact ⟨hb.1, openWords_append ha.1 ha.2 hb.2⟩

/-- Inside of parentheses blanks separate nothing. -/
theorem openWords_succ {depth after : Nat} {text : List Char}
    (h : depthAfter? depth text = some after) : openWords (depth + 1) text = [text] := by
  induction text generalizing depth with
  | nil => rfl
  | cons c rest ih =>
    obtain ⟨opened, behind⟩ := depthAfter?_cons_eq_some.1 h
    rw [openWords, if_neg (by simp), depthBy_add opened, ih behind]
    rfl

theorem Balanced.runs {text : String} (h : Balanced text) (depth : Nat) :
    Runs (depth + 1) text (depth + 1) := by
  have deep := depthAfter?_add h depth
  rw [Nat.zero_add] at deep
  exact ⟨depthAfter?_add deep 1, openWords_succ deep⟩

theorem Word.balanced {text : String} (h : Word text) : Balanced text := by
  apply depthAfter?_of_not_mem
  · intro opening
    exact absurd (h '(' opening) (by decide)
  · intro closing
    exact absurd (h ')' closing) (by decide)

/-- A text without blanks and parentheses is one word. -/
theorem Word.runs {text : String} (h : Word text) : Runs 0 text 0 := by
  refine ⟨h.balanced, ?_⟩
  have flat : ∀ t : List Char, (∀ c ∈ t, isDelimiter c = false) → openWords 0 t = [t] := by
    intro t ht
    induction t with
    | nil => rfl
    | cons c rest ih =>
      obtain ⟨head, tail⟩ := List.forall_mem_cons.1 ht
      simp only [isDelimiter, Bool.or_eq_false_iff, beq_eq_false_iff_ne] at head
      have same : depthBy 0 c = 0 := by
        rw [depthBy, if_neg head.1.2, if_neg head.2]
      rw [openWords, if_neg (fun blank => head.1.1 blank.1), same, ih tail]
      rfl
  exact flat _ h

/-! ## Texts among whose words certain ones are not -/

/-- A word without the signs in front of it. -/
def unsigned (word : List Char) : List Char := word.dropWhile (· == '-')

/-- A text with balanced parentheses, among whose words certain ones are not, also behind a
sign. -/
structure Guarded (joins : List String) (text : String) : Prop where
  balanced : Balanced text
  apart : ∀ word ∈ openWords 0 text.toList, ∀ join ∈ joins, unsigned word ≠ join.toList

/-- The words that join conditions. -/
def connectives : List String := ["AND", "OR"]

/-- Whether a character tells a word from all connectives, wherever it stands in the word. -/
def tells (c : Char) : Bool := c != '-' && connectives.all (!·.toList.contains c)

namespace Guarded

variable {joins : List String} {a b : String}

theorem mono {fewer : List String} (h : Guarded joins a) (sub : fewer ⊆ joins) :
    Guarded fewer a where
  balanced := h.balanced
  apart word hw join hj := h.apart word hw join (sub hj)

/-- Between two texts a blank may stand. -/
theorem blank (ha : Guarded joins a) (hb : Guarded joins b) : Guarded joins (a ++ " " ++ b) where
  balanced := (ha.balanced.append (by decide)).append hb.balanced
  apart := by
    have chars : (a ++ " " ++ b).toList = a.toList ++ ' ' :: b.toList := by simp
    rw [chars, openWords_append_blank ha.balanced]
    intro word hw
    rcases List.mem_append.1 hw with hw | hw
    · exact ha.apart word hw
    · exact hb.apart word hw

/-- A text of one word is guarded by any character that no connective has. -/
theorem of_tells (h : Runs 0 a 0) {c : Char} (hc : c ∈ a.toList) (told : tells c) :
    Guarded connectives a where
  balanced := h.1
  apart := by
    rw [h.2]
    intro word hw join hj same
    obtain rfl := List.mem_singleton.1 hw
    simp only [tells, Bool.and_eq_true, bne_iff_ne, List.all_eq_true, Bool.not_eq_true',
      List.contains_eq_mem, decide_eq_false_iff_not] at told
    have kept : c ∈ unsigned a.toList := by
      have split := List.takeWhile_append_dropWhile (p := (· == '-')) (l := a.toList)
      rw [← split, List.mem_append] at hc
      rcases hc with signs | kept
      · exact absurd (by simpa using List.mem_takeWhile_imp signs) told.1
      · exact kept
    rw [same] at kept
    exact told.2 join hj kept

/-- What stands in parentheses is guarded. -/
theorem wrap (h : Balanced a) : Guarded connectives ("(" ++ a ++ ")") := by
  have runs : Runs 0 ("(" ++ a ++ ")") 0 :=
    ((by decide : Runs 0 "(" 1).append (h.runs 0)).append (by decide)
  exact of_tells runs (c := '(') (by simp) (by decide)

/-- A minus in front of a text takes no part. -/
theorem minus_iff {chars : List Char} :
    Guarded joins (String.ofList ('-' :: chars)) ↔ Guarded joins (String.ofList chars) := by
  have words_eq : openWords 0 ('-' :: chars) = (openWords 0 chars).modifyHead ('-' :: ·) := rfl
  obtain ⟨word, words, chars_eq⟩ := List.exists_cons_of_ne_nil (openWords_ne_nil 0 chars)
  have same : unsigned ('-' :: word) = unsigned word := rfl
  constructor
  · rintro ⟨balanced, apart⟩
    rw [String.toList_ofList, words_eq, chars_eq, List.modifyHead_cons, List.forall_mem_cons,
      same] at apart
    refine ⟨?_, ?_⟩
    · rw [Balanced, String.toList_ofList] at balanced ⊢
      exact (depthAfter?_cons_eq_some.1 balanced).2
    · rw [String.toList_ofList, chars_eq, List.forall_mem_cons]
      exact apart
  · rintro ⟨balanced, apart⟩
    rw [String.toList_ofList, chars_eq, List.forall_mem_cons] at apart
    refine ⟨?_, ?_⟩
    · rw [Balanced, String.toList_ofList] at balanced ⊢
      exact depthAfter?_cons_eq_some.2 ⟨by decide, balanced⟩
    · rw [String.toList_ofList, words_eq, chars_eq, List.modifyHead_cons, List.forall_mem_cons,
        same]
      exact apart

/-- A guarded text shows no such word between blanks outside of parentheses. -/
theorem not_standsOpen (h : Guarded joins a) (join : String) (hj : join ∈ joins)
    (runs : Runs 0 join 0) (plain : unsigned join.toList = join.toList) :
    ¬StandsOpen (" " ++ join ++ " ") a := by
  rintro ⟨before, after, chars, outside⟩
  have cut : a.toList = before ++ ' ' :: (join.toList ++ ' ' :: after) := by simp [chars]
  apply h.apart join.toList _ join hj plain
  rw [cut, openWords_append_blank outside, openWords_append_blank runs.1, runs.2]
  simp

end Guarded

/-! ## Parts joined by `AND` -/

/-- The parts of a text that `AND` joins outside of parentheses. -/
def conjuncts (text : String) : List String :=
  ((openWords 0 text.toList).splitOn "AND".toList).map fun words =>
    String.ofList ([' '].intercalate words)

/-- Behind `AND` a text without that word is one part of the whole. -/
theorem conjuncts_append {a b : String} {joins : List String} (ha : Balanced a)
    (hb : Guarded joins b) (hj : "AND" ∈ joins) :
    conjuncts (a ++ " AND " ++ b) = conjuncts a ++ [b] := by
  have chars : (a ++ " AND " ++ b).toList =
      a.toList ++ ' ' :: ("AND".toList ++ ' ' :: b.toList) := by simp
  have words_eq : openWords 0 (a ++ " AND " ++ b).toList =
      openWords 0 a.toList ++ "AND".toList :: openWords 0 b.toList := by
    have word : Runs 0 "AND" 0 := by decide
    rw [chars, openWords_append_blank ha, openWords_append_blank word.1, word.2]
    rfl
  have alone : "AND".toList ∉ openWords 0 b.toList := fun hm => hb.apart _ hm "AND" hj rfl
  unfold conjuncts
  rw [words_eq, List.splitOn, List.splitOnP_append_cons _ _ (by simp), ← List.splitOn,
    ← List.splitOn, List.splitOn_eq_singleton alone, List.map_append]
  simp [intercalate_openWords]

end EntityQuery
