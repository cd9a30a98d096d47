import EntityQuery.Binding.Registry

/-!
# Ledgers of a query

What the parts of one query share: the index that the next value receives, the values bound so far,
and whether the next substring test leaves out its own comparison.

## Main definitions

* `Ledger`, `Ledger.bind`, `Ledger.reset`
-/

namespace EntityQuery

theorem Registry.fresh_empty : ∀ entry ∈ ({} : Registry).entries, entry.1 < 1 :=
  fun _ h => nomatch h

/-- The state of a query under construction. -/
structure Ledger where
  /-- The index that the next value receives. -/
  nextIndex : Nat := 1
  /-- The values bound so far. -/
  registry : Registry := {}
  /-- Whether the next substring test stands left of a comparison and leaves out its own. -/
  substringCompared : Bool := false
  /-- The next index is above all that are taken. -/
  fresh : ∀ entry ∈ registry.entries, entry.1 < nextIndex := by exact Registry.fresh_empty
  deriving DecidableEq, Repr

namespace Ledger

/-- A ledger with one more value, at the next index. -/
def bind (ledger : Ledger) (value : Value) : Ledger :=
  { ledger with
    nextIndex := ledger.nextIndex + 1
    registry := ledger.registry.register ledger.nextIndex value
    fresh := fun _ h => match Registry.mem_insertEntry h with
      | .inl h => h ▸ Nat.lt_succ_self _
      | .inr h => Nat.lt_succ_of_lt (ledger.fresh _ h) }

/-- A ledger in which the next substring test leaves out its own comparison. -/
def markSubstring (ledger : Ledger) : Ledger := { ledger with substringCompared := true }

/-- A ledger in which no substring test is marked. -/
def clearSubstring (ledger : Ledger) : Ledger := { ledger with substringCompared := false }

/-- A ledger from which all is dropped, as for a new query. -/
def reset (_ : Ledger) : Ledger := {}

end Ledger

end EntityQuery
