import EntityQuery.Binding.Value

/-!
# Registries of values

A registry holds values under indices, each index at most once: the value that is registered first
stays. Its entries come in the order of their indices.

## Main definitions

* `Registry`: entries in rising order of their indices
* `Registry.find?`, `Registry.contains`, `Registry.size`, `Registry.entries`: what a registry shows
* `Registry.register`: registers a value under an index that is free
* `Registry.registerOnce`: the same, and whether the index was free
* `Registry.clear`: drops all entries

## Main results

* `Registry.find?_register`: what a registry shows after a registration
* `Registry.registerOnce_eq`: a registration is answered by whether the index was free
-/

namespace EntityQuery

namespace Registry

/-- Entries with one more, in order; an entry under the same index stays. -/
def insertEntry (index : Nat) (value : Value) : List (Nat × Value) → List (Nat × Value)
  | [] => [(index, value)]
  | entry :: rest =>
    if index < entry.1 then (index, value) :: entry :: rest
    else if entry.1 < index then entry :: insertEntry index value rest
    else entry :: rest

/-- An entry after an insertion was there before, or is the new one. -/
theorem mem_insertEntry {index : Nat} {value : Value} {entries : List (Nat × Value)}
    {entry : Nat × Value} (h : entry ∈ insertEntry index value entries) :
    entry = (index, value) ∨ entry ∈ entries := by
  induction entries with
  | nil => simpa [insertEntry] using h
  | cons e rest ih =>
    simp only [insertEntry] at h
    split at h
    · simpa using h
    · split at h
      · rcases List.mem_cons.1 h with rfl | h
        · simp
        · rcases ih h with h | h <;> simp [h]
      · exact .inr h

/-- Insertion keeps the order. -/
theorem pairwise_insertEntry {index : Nat} {value : Value} {entries : List (Nat × Value)}
    (h : entries.Pairwise (·.1 < ·.1)) :
    (insertEntry index value entries).Pairwise (·.1 < ·.1) := by
  induction entries with
  | nil => simp [insertEntry]
  | cons e rest ih =>
    obtain ⟨he, hr⟩ := List.pairwise_cons.1 h
    simp only [insertEntry]
    split
    · rename_i hi
      refine List.pairwise_cons.2 ⟨fun x hx => ?_, h⟩
      rcases List.mem_cons.1 hx with rfl | hx
      · exact hi
      · exact Nat.lt_trans hi (he x hx)
    · split
      · rename_i hi
        refine List.pairwise_cons.2 ⟨fun x hx => ?_, ih hr⟩
        rcases mem_insertEntry hx with rfl | hx
        · exact hi
        · exact he x hx
      · exact h

/-- An index above all others comes last. -/
theorem insertEntry_eq_append {index : Nat} {value : Value} {entries : List (Nat × Value)}
    (h : ∀ entry ∈ entries, entry.1 < index) :
    insertEntry index value entries = entries ++ [(index, value)] := by
  induction entries with
  | nil => rfl
  | cons e rest ih =>
    have he : e.1 < index := h e (by simp)
    rw [insertEntry, if_neg (Nat.not_lt_of_gt he), if_pos he,
      ih fun entry hm => h entry (List.mem_cons_of_mem e hm), List.cons_append]

theorem ordered_nil : ([] : List (Nat × Value)).Pairwise (·.1 < ·.1) := .nil

end Registry

/-- Values under indices. -/
structure Registry where
  /-- The indices and their values, in rising order. -/
  entries : List (Nat × Value) := []
  ordered : entries.Pairwise (·.1 < ·.1) := by exact Registry.ordered_nil
  deriving DecidableEq, Repr

namespace Registry

/-- The value under an index. -/
def find? (r : Registry) (index : Nat) : Option Value := r.entries.lookup index

/-- Whether an index is taken. -/
def contains (r : Registry) (index : Nat) : Bool := (r.find? index).isSome

/-- The number of entries. -/
def size (r : Registry) : Nat := r.entries.length

/-- Whether there is no entry. -/
def isEmpty (r : Registry) : Bool := r.entries.isEmpty

/-- A registry with a value under an index, if that index was free. -/
def register (r : Registry) (index : Nat) (value : Value) : Registry :=
  ⟨insertEntry index value r.entries, pairwise_insertEntry r.ordered⟩

/-- Registers a value under an index, unless the index is taken, and tells whether it was stored. -/
def registerOnce (r : Registry) (index : Nat) (value : Value) : Bool × Registry :=
  if r.contains index then (false, r) else (true, r.register index value)

/-- A registry from which all is dropped. -/
def clear (_ : Registry) : Registry := {}

/-- An index below all indices of some entries is free among them. -/
theorem lookup_eq_none_of_lt {index : Nat} {entries : List (Nat × Value)}
    (h : ∀ entry ∈ entries, index < entry.1) : entries.lookup index = none := by
  induction entries with
  | nil => rfl
  | cons e rest ih =>
    have he : (index == e.1) = false := beq_eq_false_iff_ne.2 (Nat.ne_of_lt (h e (by simp)))
    rw [List.lookup_cons, he]
    exact ih fun entry hm => h entry (by simp [hm])

/-- An index below the first one is free. -/
theorem lookup_cons_of_lt {index : Nat} {entry : Nat × Value} {rest : List (Nat × Value)}
    (ordered : (entry :: rest).Pairwise (·.1 < ·.1)) (below : index < entry.1) :
    (entry :: rest).lookup index = none := by
  apply lookup_eq_none_of_lt
  intro x hx
  rcases List.mem_cons.1 hx with rfl | later
  · exact below
  · exact Nat.lt_trans below ((List.pairwise_cons.1 ordered).1 x later)

theorem lookup_insertEntry {index : Nat} {value : Value} {entries : List (Nat × Value)}
    (other : Nat) (h : entries.Pairwise (·.1 < ·.1)) :
    (insertEntry index value entries).lookup other =
      if other = index then (entries.lookup index).or (some value) else entries.lookup other := by
  induction entries with
  | nil =>
    by_cases ho : other = index
    · simp [insertEntry, ho]
    · simp [insertEntry, List.lookup_cons, beq_eq_false_iff_ne.2 ho, ho]
  | cons e rest ih =>
    have hr := (List.pairwise_cons.1 h).2
    simp only [insertEntry]
    split
    · rename_i hi
      rw [lookup_cons_of_lt h hi, List.lookup_cons]
      by_cases ho : other = index
      · simp [ho]
      · simp [beq_eq_false_iff_ne.2 ho, ho]
    · split
      · rename_i hj
        have hne : (index == e.1) = false := beq_eq_false_iff_ne.2 (Nat.ne_of_gt hj)
        rw [List.lookup_cons, ih hr, List.lookup_cons, List.lookup_cons, hne]
        by_cases ho : other = index
        · simp [ho, hne]
        · simp [ho]
      · have hij : index = e.1 := by omega
        by_cases ho : other = index
        · have hs : (e :: rest).lookup index = some e.2 := by
            rw [List.lookup_cons, beq_iff_eq.2 hij]
          simp [ho, hs]
        · simp [ho]

/-- After a registration an index shows what it showed before, or else the new value if it is the
one registered. -/
theorem find?_register (r : Registry) (index other : Nat) (value : Value) :
    (r.register index value).find? other =
      if other = index then (r.find? index).or (some value) else r.find? other :=
  lookup_insertEntry other r.ordered

/-- Insertion under an index that is taken changes nothing. -/
theorem insertEntry_of_isSome_lookup {index : Nat} {value : Value} {entries : List (Nat × Value)}
    (ordered : entries.Pairwise (·.1 < ·.1)) (taken : (entries.lookup index).isSome) :
    insertEntry index value entries = entries := by
  induction entries with
  | nil => cases taken
  | cons e rest ih =>
    rw [insertEntry]
    split
    · rename_i below
      rw [lookup_cons_of_lt ordered below] at taken
      cases taken
    · split
      · rename_i above
        have differs : (index == e.1) = false := beq_eq_false_iff_ne.2 (Nat.ne_of_gt above)
        rw [List.lookup_cons, differs] at taken
        rw [ih (List.pairwise_cons.1 ordered).2 taken]
      · rfl

/-- A registry has nothing but its entries. -/
theorem eq_of_entries_eq {r s : Registry} (same : r.entries = s.entries) : r = s := by
  cases r
  cases s
  cases same
  rfl

theorem register_of_contains {r : Registry} {index : Nat} (taken : r.contains index = true)
    (value : Value) : r.register index value = r :=
  eq_of_entries_eq (insertEntry_of_isSome_lookup r.ordered taken)

/-- A registration stores a value where the index is free, and else leaves the registry as it is. -/
theorem registerOnce_eq (r : Registry) (index : Nat) (value : Value) :
    r.registerOnce index value = (!r.contains index, r.register index value) := by
  rw [registerOnce]
  split
  · rename_i taken
    rw [register_of_contains taken, taken]
    rfl
  · rename_i free
    rw [Bool.not_eq_true] at free
    rw [free]
    rfl

end Registry

end EntityQuery
