import EntityQuery.Query.Slots
import Mathlib.Data.List.DropRight

/-!
# Components of joined texts

Components that are joined with a separator between them are the pieces of the text that results, if
none of them has a character of the separator. So each part of a composite property is given the
component at its own position, whatever components are empty or missing: what is empty stands for
the empty text if a component that is not empty follows it, even one that belongs to no part.

## Main definitions

* `FilledFrom`: slots that hold the components at their positions

## Main results

* `Text.piecesFrom_separator_append`, `Text.pieces_intercalate`: the pieces of a text before a
  separator and after it, and of texts that are joined
* `length_rdropWhile_le_iff`: where only empty components are left
* `slots_filledFrom`: the slots of a joined text
-/

namespace EntityQuery

namespace Text

/-! ## Pieces of joined texts -/

variable {s : Char} {separator front : List Char}

/-- What is left of an occurrence is passed over. -/
theorem piecesFrom_length_append (separator front text : List Char) :
    piecesFrom separator front.length (front ++ text) = piecesFrom separator 0 text := by
  induction front with
  | nil => rfl
  | cons c front ih => exact ih

/-- Each occurrence ends a piece. -/
theorem piecesFrom_separator_append (s : Char) (separator text : List Char) :
    piecesFrom (s :: separator) 0 (s :: separator ++ text) =
      [] :: piecesFrom (s :: separator) 0 text := by
  have occurs : s :: separator <+: s :: (separator ++ text) := List.prefix_append _ text
  rw [List.cons_append, piecesFrom, if_pos (List.isPrefixOf_iff_prefix.2 occurs)]
  exact congrArg ([] :: ·) (piecesFrom_length_append (s :: separator) separator text)

/-- No occurrence starts in a text without the first character of the separator, so all of that text
goes into the first piece. -/
theorem piecesFrom_append_of_not_mem (free : s ∉ front) (text : List Char) :
    piecesFrom (s :: separator) 0 (front ++ text) =
      front.foldr growFirst (piecesFrom (s :: separator) 0 text) := by
  induction front with
  | nil => rfl
  | cons c front ih =>
    obtain ⟨head, tail⟩ := not_or.1 (mt List.mem_cons.2 free)
    have other : ¬s :: separator <+: c :: (front ++ text) := by
      intro occurs
      exact head (List.cons_prefix_cons.1 occurs).1
    rw [List.cons_append, piecesFrom, if_neg (mt List.isPrefixOf_iff_prefix.1 other), ih tail]
    rfl

theorem foldr_growFirst (front piece : List Char) (rest : List (List Char)) :
    front.foldr growFirst (piece :: rest) = (front ++ piece) :: rest := by
  induction front with
  | nil => rfl
  | cons c front ih =>
    rw [List.foldr_cons, ih]
    rfl

/-- Texts that are joined are the pieces of the result, if the separator starts in none of them. -/
theorem pieces_intercalate {texts : List (List Char)} (given : texts ≠ [])
    (free : ∀ text ∈ texts, s ∉ text) :
    pieces (s :: separator) ((s :: separator).intercalate texts) = texts := by
  show piecesFrom (s :: separator) 0 _ = texts
  induction texts with
  | nil => exact absurd rfl given
  | cons text texts ih =>
    obtain ⟨first, others⟩ := List.forall_mem_cons.1 free
    cases texts with
    | nil =>
      have last : piecesFrom (s :: separator) 0 (text ++ []) = text.foldr growFirst [[]] :=
        piecesFrom_append_of_not_mem first []
      rw [List.append_nil] at last
      rw [List.intercalate_singleton, last, foldr_growFirst, List.append_nil]
    | cons next texts =>
      rw [List.intercalate_cons_cons, List.append_assoc, piecesFrom_append_of_not_mem first,
        piecesFrom_separator_append, foldr_growFirst, List.append_nil, ih (by simp) others]

/-- Strings that are joined are the pieces of the result, if they have no character of the
separator. -/
theorem split_intercalate {separator : String} {texts : List String} (nonempty : separator ≠ "")
    (given : texts ≠ []) (free : ∀ text ∈ texts, ∀ c ∈ separator.toList, c ∉ text.toList) :
    split separator (separator.intercalate texts) = texts := by
  obtain ⟨s, rest, chars⟩ :=
    List.exists_cons_of_ne_nil (mt String.toList_eq_nil_iff.1 nonempty)
  have free' : ∀ text ∈ texts.map String.toList, s ∉ text := by
    intro text ht
    obtain ⟨t, hmem, rfl⟩ := List.mem_map.1 ht
    apply free t hmem
    rw [chars]
    exact List.mem_cons_self
  rw [split, String.toList_intercalate, chars, pieces_intercalate (by simpa using given) free',
    List.map_map]
  simp [Function.comp_def]

end Text

/-! ## Components that are left -/

/-- From a position on only empty components are left if and only if it is not below the number of
components that stay when the empty ones are dropped from the end. -/
theorem length_rdropWhile_le_iff {components : List String} {i : Nat} :
    (components.rdropWhile (· = "")).length ≤ i ↔ ∀ later ∈ components.drop i, later = "" := by
  induction components using List.reverseRecOn with
  | nil => simp
  | append_singleton components last ih =>
    rw [List.drop_append, List.forall_mem_append, List.rdropWhile_concat]
    by_cases blank : last = ""
    · have dropped : ∀ later ∈ [last].drop (i - components.length), later = "" := by
        intro later hl
        rw [List.mem_singleton.1 (List.mem_of_mem_drop hl), blank]
      rw [if_pos (by simpa using blank), ih]
      exact ⟨fun earlier => ⟨earlier, dropped⟩, And.left⟩
    · rw [if_neg (by simpa using blank), List.length_append, List.length_singleton]
      constructor
      · intro beyond
        rw [List.drop_eq_nil_of_le (by omega), List.drop_eq_nil_of_le (by simp; omega)]
        exact ⟨nofun, nofun⟩
      · rintro ⟨-, only⟩
        by_contra within
        have first : i - components.length = 0 := by omega
        rw [first] at only
        exact blank (only last List.mem_cons_self)

/-- A component is missing if it is dropped with the empty ones at the end, or if it is `null`. -/
theorem component?_eq (components : List String) (i : Nat) :
    component? components i =
      if i < (components.rdropWhile (· = "")).length ∧ components[i]? ≠ some "null" then
        components[i]?
      else none := by
  rw [component?]
  by_cases left : i < (components.rdropWhile (· = "")).length
  · rw [if_neg (mt length_rdropWhile_le_iff.2 (Nat.not_le.2 left))]
    by_cases null : components[i]? = some "null"
    · rw [if_pos null, if_neg (fun given => given.2 null)]
    · rw [if_neg null, if_pos ⟨left, null⟩]
  · rw [if_pos (length_rdropWhile_le_iff.1 (Nat.not_lt.1 left)), if_neg (fun given => left given.1)]

theorem getElem?_map_component? (components : List String) {count i : Nat} (below : i < count) :
    ((List.range count).map (component? components))[i]? =
      some (if i < (components.rdropWhile (· = "")).length ∧ components[i]? ≠ some "null" then
        components[i]?
      else none) := by
  rw [List.getElem?_map, List.getElem?_range below, Option.map_some, component?_eq]

/-! ## Slots -/

/-- Slots for `count` parts that hold components at their positions. -/
structure FilledFrom (components : List String) (count : Nat) (slots : List (Option String)) :
    Prop where
  length_eq : slots.length = count
  /-- A slot holds the component at its position, unless that one was dropped or is `null`. -/
  at_position : ∀ i < count, slots[i]? = some
    (if i < (components.rdropWhile (· = "")).length ∧ components[i]? ≠ some "null" then
      components[i]?
    else none)
  /-- An empty component in front of one that is not empty is the empty text. -/
  blank_kept : ∀ i < count, components[i]? = some "" → (∃ later ∈ components.drop i, later ≠ "") →
    slots[i]? = some (some "")
  /-- Components that belong to no part are in no slot. -/
  beyond_discarded : ∀ token, some token ∈ slots → token ∈ components.take count

theorem FilledFrom.of_components (components : List String) (count : Nat) :
    FilledFrom components count ((List.range count).map (component? components)) where
  length_eq := by rw [List.length_map, List.length_range]
  at_position := fun _ => getElem?_map_component? components
  blank_kept := by
    rintro i below blank ⟨later, hl, nonempty⟩
    have left : i < (components.rdropWhile (· = "")).length := by
      by_contra beyond
      exact nonempty (length_rdropWhile_le_iff.1 (Nat.not_lt.1 beyond) later hl)
    have not_null : components[i]? ≠ some "null" := by
      rw [blank]
      decide
    rw [getElem?_map_component? components below, if_pos ⟨left, not_null⟩, blank]
  beyond_discarded := by
    intro token held
    obtain ⟨i, hi, found⟩ := List.mem_map.1 held
    have given := (component?_eq_some found).1
    rw [← List.getElem?_take_of_lt (List.mem_range.1 hi)] at given
    exact List.mem_of_getElem? given

/-- No components at all are joined to the empty text, which has one empty component. -/
theorem component?_blank (i : Nat) : component? [""] i = component? [] i := by
  have blank : ∀ later ∈ [""].drop i, later = "" :=
    fun later hl => List.mem_singleton.1 (List.mem_of_mem_drop hl)
  rw [component?, if_pos blank, component?, if_pos (by simp)]

/-- **Slots hold the components that were joined.** Let components be joined with a separator that is
not empty and of which they have no character. Of the text there is a slot for each part, which holds
the component at its position if that is not among the empty ones at the end and is not `null`, and
nothing otherwise. Components that are empty keep their place in front of others, and those after the
last part are in no slot. -/
theorem slots_filledFrom {separator : String} {tokens : List String} (nonempty : separator ≠ "")
    (free : ∀ token ∈ tokens, ∀ c ∈ separator.toList, c ∉ token.toList) (count : Nat) :
    FilledFrom tokens count (slots separator (separator.intercalate tokens) count) := by
  have held : slots separator (separator.intercalate tokens) count =
      (List.range count).map (component? tokens) := by
    rw [slots_eq_map]
    by_cases given : tokens = []
    · have absent : ¬separator.toList <:+: "".toList := by
        intro occurs
        exact nonempty (String.toList_eq_nil_iff.1 (List.infix_nil.1 occurs))
      rw [given, String.intercalate_nil, Text.split_eq_singleton absent]
      exact List.map_congr_left fun i _ => component?_blank i
    · rw [Text.split_intercalate nonempty given free]
  rw [held]
  exact .of_components tokens count

/-- Five components and six parts: an empty component and `null` stand in front of a number, and two
empty ones at the end. -/
theorem slots_filledFrom_of_doubleBar :
    FilledFrom ["", "null", "7", "", ""] 6 [some "", none, some "7", none, none, none] := by
  have separator_given : "||" ≠ "" := by decide
  have free : ∀ token ∈ ["", "null", "7", "", ""], ∀ c ∈ "||".toList, c ∉ token.toList := by simp
  have filled := slots_filledFrom separator_given free 6
  have joined : slots "||" ("||".intercalate ["", "null", "7", "", ""]) 6 =
      [some "", none, some "7", none, none, none] := by rfl
  rwa [joined] at filled

end EntityQuery
