import EntityQuery.Binding.Registry
import Mathlib.Data.Finset.Card
import Mathlib.Data.List.DropRight

/-!
# Registrations in a row

A registry that starts empty and is only registered in and cleared shows at each index the first
value that was registered there since it was last cleared. Registrations at an index that is taken
are refused and change nothing, and the entries come by index, in whatever order they were
registered.

## Main definitions

* `Registry.Operation`, `Registry.afterAll`: operations on a registry, and runs of them
* `registrations`, `valuesAt`, `indices`: what was registered since the last clearing, in all and at
  one index
* `Registry.Records`: a registry that holds the first values of a history

## Main results

* `Registry.find?_after`: what one operation changes
* `Registry.find?_afterAll`: what a registry shows after any run
* `Registry.eq_of_find?_eq`: a registry is told by what it shows
* `Registry.records_afterAll`: registries record the first values of their histories
-/

namespace EntityQuery.Registry

/-! ## Histories -/

/-- An operation on a registry. -/
inductive Operation where
  /-- Registers a value under an index, if that is free. -/
  | register (index : Nat) (value : Value)
  /-- Drops all entries. -/
  | clear
  deriving DecidableEq

/-- The registry that an operation leaves. -/
def after (r : Registry) : Operation → Registry
  | .register index value => (r.registerOnce index value).2
  | .clear => r.clear

/-- The registry after operations on an empty one. -/
def afterAll (history : List Operation) : Registry := history.foldl after {}

/-- The entry that an operation asks for. -/
def Operation.entry? : Operation → Option (Nat × Value)
  | .register index value => some (index, value)
  | .clear => none

/-- The entries that were asked for since the last clearing, first to last. -/
def registrations (history : List Operation) : List (Nat × Value) :=
  (history.rtakeWhile (· ≠ .clear)).filterMap Operation.entry?

/-- The values registered at an index since the last clearing, first to last. -/
def valuesAt (history : List Operation) (index : Nat) : List Value :=
  (registrations history).filterMap fun entry => if entry.1 = index then some entry.2 else none

/-- The indices that something was registered at since the last clearing. -/
def indices (history : List Operation) : Finset Nat :=
  ((registrations history).map Prod.fst).toFinset

variable {history : List Operation} {index : Nat} {value : Value}

theorem afterAll_concat (history : List Operation) (operation : Operation) :
    afterAll (history ++ [operation]) = (afterAll history).after operation :=
  List.foldl_concat ..

theorem registrations_register (history : List Operation) (index : Nat) (value : Value) :
    registrations (history ++ [.register index value]) =
      registrations history ++ [(index, value)] := by
  rw [registrations, List.rtakeWhile_concat_pos _ _ _ (by simp), List.filterMap_append]
  rfl

theorem registrations_clear (history : List Operation) :
    registrations (history ++ [.clear]) = [] := by
  rw [registrations, List.rtakeWhile_concat_neg _ _ _ (by simp)]
  rfl

/-- A registration is the last one at its index. -/
theorem valuesAt_register (history : List Operation) (index other : Nat) (value : Value) :
    valuesAt (history ++ [.register index value]) other =
      valuesAt history other ++ if other = index then [value] else [] := by
  rw [valuesAt, registrations_register, List.filterMap_append]
  by_cases same : other = index
  · simp [valuesAt, same]
  · simp [valuesAt, same, Ne.symm same]

theorem valuesAt_clear (history : List Operation) (index : Nat) :
    valuesAt (history ++ [.clear]) index = [] := by
  rw [valuesAt, registrations_clear]
  rfl

theorem mem_indices_iff : index ∈ indices history ↔ valuesAt history index ≠ [] := by
  rw [indices, List.mem_toFinset, valuesAt, ne_eq, List.filterMap_eq_nil_iff]
  simp

/-! ## Entries and what is shown -/

/-- No index has two entries. -/
theorem nodup_indices (r : Registry) : (r.entries.map Prod.fst).Nodup := by
  have rising : (r.entries.map Prod.fst).Pairwise (· < ·) := List.pairwise_map.2 r.ordered
  exact rising.imp Nat.ne_of_lt

/-- The entries are what the indices show. -/
theorem mem_entries_iff (r : Registry) :
    (index, value) ∈ r.entries ↔ r.find? index = some value := by
  rw [find?, List.lookup_eq_some_iff]
  constructor
  · intro member
    obtain ⟨below, above, cut⟩ := List.append_of_mem member
    refine ⟨below, above, cut, fun entry he => ?_⟩
    have ordered := r.ordered
    rw [cut] at ordered
    have lower := (List.pairwise_append.1 ordered).2.2 entry he _ List.mem_cons_self
    exact bne_iff_ne.2 (Nat.ne_of_gt lower)
  · rintro ⟨below, above, cut, -⟩
    rw [cut]
    exact List.mem_append_right below List.mem_cons_self

/-- A registry is told by what it shows. -/
theorem eq_of_find?_eq {r s : Registry} (same : ∀ index, r.find? index = s.find? index) : r = s := by
  have members : ∀ entry, entry ∈ r.entries ↔ entry ∈ s.entries := by
    rintro ⟨index, value⟩
    rw [mem_entries_iff, mem_entries_iff, same]
  have permuted : r.entries.Perm s.entries :=
    (List.perm_ext_iff_of_nodup (r.nodup_indices.of_map _) (s.nodup_indices.of_map _)).2 members
  apply eq_of_entries_eq
  -- No two entries stand in front of each other.
  refine permuted.eq_of_pairwise (fun a b _ _ before behind => ?_) r.ordered s.ordered
  exact absurd behind (Nat.lt_asymm before)

/-! ## Runs -/

/-- A value is stored if and only if nothing is shown at its index. -/
theorem registerOnce_stores_iff (r : Registry) (index : Nat) (value : Value) :
    (r.registerOnce index value).1 = true ↔ r.find? index = none := by
  rw [registerOnce_eq, contains]
  simp

/-- What one operation changes: a registration, only what its own index shows, if that is nothing;
a clearing, all. -/
theorem find?_after (r : Registry) (operation : Operation) (other : Nat) :
    (r.after operation).find? other = match operation with
      | .register index value =>
        if other = index then (r.find? index).or (some value) else r.find? other
      | .clear => none := by
  cases operation with
  | register index value =>
    rw [after, registerOnce_eq]
    exact r.find?_register index other value
  | clear => rfl

/-- After any operations an index shows the first value that was registered there since the registry
was last cleared. -/
theorem find?_afterAll (history : List Operation) (index : Nat) :
    (afterAll history).find? index = (valuesAt history index).head? := by
  induction history using List.reverseRecOn with
  | nil => rfl
  | append_singleton history operation ih =>
    rw [afterAll_concat, find?_after]
    cases operation with
    | clear => rw [valuesAt_clear]; rfl
    | register own value =>
      rw [valuesAt_register, List.head?_append, ← ih]
      by_cases same : index = own
      · simp [same]
      · simp [same]

/-- The indices that have an entry are those that something was registered at. -/
theorem toFinset_indices_afterAll (history : List Operation) :
    ((afterAll history).entries.map Prod.fst).toFinset = indices history := by
  ext index
  have shown : (∃ value, (index, value) ∈ (afterAll history).entries) ↔
      valuesAt history index ≠ [] := by
    simp only [mem_entries_iff, find?_afterAll]
    rw [← Option.isSome_iff_exists, List.isSome_head?]
  rw [List.mem_toFinset, mem_indices_iff, ← shown]
  simp

/-- A registry that holds the first values that a history registers after its last clearing. -/
structure Records (history : List Operation) (r : Registry) : Prop where
  /-- An index shows the first value that was registered there, and nothing if there is none. -/
  shows_first : ∀ index, r.find? index = (valuesAt history index).head?
  /-- A registration is stored if and only if none was made at its index before. -/
  stores_first : ∀ index value,
    (r.registerOnce index value).1 = true ↔ valuesAt history index = []
  contains_iff : ∀ index, r.contains index = true ↔ ∃ value, r.find? index = some value
  size_eq : r.size = (indices history).card
  /-- The entries come by index, and each index once. -/
  rising : r.entries.Pairwise (·.1 < ·.1)
  mem_entries : ∀ index value,
    (index, value) ∈ r.entries ↔ (valuesAt history index).head? = some value

theorem records_afterAll (history : List Operation) : Records history (afterAll history) where
  shows_first := find?_afterAll history
  stores_first := by
    intro index value
    rw [registerOnce_stores_iff, find?_afterAll, List.head?_eq_none_iff]
  contains_iff := fun _ => Option.isSome_iff_exists
  size_eq := by
    rw [← toFinset_indices_afterAll, List.toFinset_card_of_nodup (nodup_indices _),
      List.length_map]
    rfl
  rising := (afterAll history).ordered
  mem_entries := by
    intro index value
    rw [mem_entries_iff, find?_afterAll]

/-- **The first registration at an index wins.** After any registrations and clearings of an empty
registry, each index shows the first value that was registered there since the last clearing, if
any; a registration is stored if and only if it is that first one; there are as many entries as
indices registered at, each index once and in rising order with the value it shows. The entries are
the same if the registrations are made in another order that keeps the order at each index. -/
theorem afterAll_keeps_first (history : List Operation) :
    Records history (afterAll history) ∧
      ∀ reordered, (∀ index, valuesAt reordered index = valuesAt history index) →
        (afterAll reordered).entries = (afterAll history).entries := by
  refine ⟨records_afterAll history, fun reordered same => ?_⟩
  have shown : ∀ index, (afterAll reordered).find? index = (afterAll history).find? index := by
    intro index
    rw [find?_afterAll, find?_afterAll, same]
  rw [eq_of_find?_eq shown]

/-- A history that registers a number at the higher index of two, first before a clearing and then
twice after it. -/
def crossedHistory : List Operation :=
  [.register 3 (.bigInteger 1), .clear, .register 3 (.bigInteger 7), .register 1 (.string "EU"),
    .register 3 (.bigInteger 9)]

/-- The same registrations after the clearing, by index. -/
def straightHistory : List Operation :=
  [.register 1 (.string "EU"), .register 3 (.bigInteger 7), .register 3 (.bigInteger 9)]

/-- The value from before the clearing is gone, the second one at its index is refused, and it does
not matter that the higher index came first. -/
theorem afterAll_keeps_first_of_crossedHistory :
    (∀ index, valuesAt straightHistory index = valuesAt crossedHistory index) ∧
      (afterAll straightHistory).entries = (afterAll crossedHistory).entries ∧
      (afterAll crossedHistory).entries = [(1, .string "EU"), (3, .bigInteger 7)] := by
  have straight : registrations straightHistory =
      [(1, .string "EU"), (3, .bigInteger 7), (3, .bigInteger 9)] := by rfl
  have crossed : registrations crossedHistory =
      [(3, .bigInteger 7), (1, .string "EU"), (3, .bigInteger 9)] := by rfl
  have same : ∀ index, valuesAt straightHistory index = valuesAt crossedHistory index := by
    intro index
    rw [valuesAt, valuesAt, straight, crossed]
    by_cases first : index = 1
    · rw [first]
      rfl
    · simp [List.filterMap_cons, Ne.symm first]
  exact ⟨same, (afterAll_keeps_first crossedHistory).2 straightHistory same, by rfl⟩

end EntityQuery.Registry
