import EntityQuery.Text.Search

/-!
# Slots of a composite text

A composite text holds one component for each part of a composite property, with a separator between
them. Components may be missing at the end, and the component `null` counts as missing.

## Main definitions

* `slots`: one slot for each part, empty where its component is missing
* `component?`: the component at a position

## Main results

* `length_slots`: there are as many slots as parts
* `slots_eq_map`: each slot holds the component at its position
* `slots_null`: the text `null` leaves all slots empty
* `mem_slots`: what a slot holds is a component other than `null`
-/

namespace EntityQuery

/-- The components of a text without the empty ones at its end. -/
def dropTrailingEmpty : List String → List String
  | [] => []
  | piece :: rest =>
    match dropTrailingEmpty rest with
    | [] => if piece = "" then [] else [piece]
    | rest => piece :: rest

/-- The first `count` components of a list, missing where the list ends or the component is
`null`. -/
def fill : Nat → List String → List (Option String)
  | 0, _ => []
  | count + 1, [] => none :: fill count []
  | count + 1, piece :: rest => (if piece = "null" then none else some piece) :: fill count rest

/-- One slot for each of `count` parts, empty where its component is missing. -/
def slots (separator text : String) (count : Nat) : List (Option String) :=
  fill count (dropTrailingEmpty (Text.split separator text))

theorem length_fill (count : Nat) (pieces : List String) : (fill count pieces).length = count := by
  induction count generalizing pieces with
  | zero => rfl
  | succ count ih => cases pieces <;> simp [fill, ih]

/-- There are as many slots as parts. -/
theorem length_slots (separator text : String) (count : Nat) :
    (slots separator text count).length = count := length_fill _ _

/-! ## Components by position -/

/-- The component at a position. It is missing where only empty components are left, and where it is
`null`. -/
def component? (components : List String) (i : Nat) : Option String :=
  if ∀ later ∈ components.drop i, later = "" then none
  else if components[i]? = some "null" then none
  else components[i]?

theorem component?_eq_some {components : List String} {i : Nat} {token : String}
    (h : component? components i = some token) : components[i]? = some token ∧ token ≠ "null" := by
  rw [component?] at h
  split at h
  · cases h
  · split at h
    · cases h
    · rename_i given
      refine ⟨h, ?_⟩
      rintro rfl
      exact given h

theorem dropTrailingEmpty_eq_nil {pieces : List String} :
    dropTrailingEmpty pieces = [] ↔ ∀ piece ∈ pieces, piece = "" := by
  induction pieces with
  | nil => simp [dropTrailingEmpty]
  | cons piece rest ih =>
    rw [dropTrailingEmpty, List.forall_mem_cons, ← ih]
    cases dropTrailingEmpty rest with
    | nil => by_cases blank : piece = "" <;> simp [blank]
    | cons next others => simp

/-- What is not dropped as a whole keeps its first component, empty or not. -/
theorem dropTrailingEmpty_cons {piece : String} {rest : List String}
    (given : ¬∀ component ∈ piece :: rest, component = "") :
    dropTrailingEmpty (piece :: rest) = piece :: dropTrailingEmpty rest := by
  rw [dropTrailingEmpty]
  cases kept : dropTrailingEmpty rest with
  | cons next others => rfl
  | nil =>
    have first : piece ≠ "" := by
      intro blank
      exact given (List.forall_mem_cons.2 ⟨blank, dropTrailingEmpty_eq_nil.1 kept⟩)
    exact if_neg first

theorem fill_dropTrailingEmpty (count : Nat) (pieces : List String) :
    fill count (dropTrailingEmpty pieces) = (List.range count).map (component? pieces) := by
  induction count generalizing pieces with
  | zero => rfl
  | succ count ih =>
    rw [List.range_succ_eq_map, List.map_cons, List.map_map]
    by_cases blank : ∀ piece ∈ pieces, piece = ""
    · have none_left (i : Nat) : component? pieces i = none :=
        if_pos fun later hl => blank later (List.mem_of_mem_drop hl)
      have ih := ih []
      rw [dropTrailingEmpty] at ih
      rw [dropTrailingEmpty_eq_nil.2 blank, fill, ih, none_left]
      refine congrArg (none :: ·) (List.map_congr_left fun i _ => ?_)
      rw [Function.comp_apply, none_left]
      simp [component?]
    · obtain ⟨piece, rest, rfl⟩ := List.exists_cons_of_ne_nil
        (show pieces ≠ [] by rintro rfl; exact blank nofun)
      have later : component? (piece :: rest) ∘ Nat.succ = component? rest := rfl
      have first : component? (piece :: rest) 0 = if piece = "null" then none else some piece := by
        rw [component?, List.drop_zero, if_neg blank, List.getElem?_cons_zero]
        simp only [Option.some.injEq]
      rw [dropTrailingEmpty_cons blank, fill, ih rest, first, later]

/-- Each slot holds the component at its position. -/
theorem slots_eq_map (separator text : String) (count : Nat) :
    slots separator text count =
      (List.range count).map (component? (Text.split separator text)) :=
  fill_dropTrailingEmpty count _

theorem fill_nil (count : Nat) : fill count [] = List.replicate count none := by
  induction count with
  | zero => rfl
  | succ count ih => rw [fill, ih, List.replicate_succ]

/-- The text `null` has no component but `null` itself, so no part gets one. -/
theorem slots_null {separator : String} (free : ¬separator.toList <:+: "null".toList)
    (count : Nat) : slots separator "null" count = List.replicate count none := by
  have one : dropTrailingEmpty ["null"] = ["null"] := rfl
  rw [slots, Text.split_eq_singleton free, one]
  cases count with
  | zero => rfl
  | succ count => rw [fill, if_pos rfl, fill_nil, List.replicate_succ]

/-- What a slot holds is a component other than `null`. -/
theorem mem_slots {separator text token : String} {count : Nat}
    (h : some token ∈ slots separator text count) :
    token ∈ Text.split separator text ∧ token ≠ "null" := by
  rw [slots_eq_map] at h
  obtain ⟨i, -, held⟩ := List.mem_map.1 h
  obtain ⟨found, not_null⟩ := component?_eq_some held
  exact ⟨List.mem_of_getElem? found, not_null⟩

end EntityQuery
