import EntityQuery.Proofs.Derivation
import EntityQuery.Query.Session

/-!
# Sessions over one ledger

A session is any sequence of filters, keys, plain texts, bound values and resets over one ledger, of
which each may fail. Between the operations the ledger is always settled: its indices have no gaps
and nothing waits for a substring test, even if the operation before failed inside a comparison.

## Main definitions

* `Compile.BindsOnly`: computations that do nothing to a ledger but bind values
* `Operation`, `Operation.perform`, `Operation.Step`: operations, and what they do
* `Ledger.Settled`, `Operation.Keeps`: what a ledger is between operations, and what each of them
  keeps of it
* `afterAll`: sessions

## Main results

* `bindsOnly_keyCondition?`: keys only bind values
* `Operation.step_of_perform`, `Operation.Step.settled`: what an operation does, and that it leaves
  the ledger settled
* `session_settled_and_keeps`: the invariant of sessions
-/

namespace EntityQuery

/-! ## Computations that only bind -/

/-- A computation that does nothing to a ledger but bind values, where it succeeds. -/
def Compile.BindsOnly {α : Type} (computation : Compile α) : Prop :=
  ∀ ⦃ledger after : Ledger⦄ ⦃a : α⦄, computation.over ledger = (.ok a, after) →
    ∃ values, after = ledger.bindAll values

namespace Compile.BindsOnly

variable {α β : Type}

theorem pure (a : α) : BindsOnly (Pure.pure a) := by
  intro ledger after b h
  obtain ⟨-, rfl⟩ := Prod.mk.inj h
  exact ⟨[], rfl⟩

theorem throw (e : QueryError) : BindsOnly (MonadExcept.throw e : Compile α) := by
  intro ledger after b h
  cases (Prod.mk.inj h).1

theorem lift (result : Except QueryError α) : BindsOnly (liftM result : Compile α) := by
  intro ledger after b h
  obtain ⟨-, rfl⟩ := Prod.mk.inj h
  exact ⟨[], rfl⟩

theorem bind {x : Compile α} {f : α → Compile β} (hx : BindsOnly x) (hf : ∀ a, BindsOnly (f a)) :
    BindsOnly (x >>= f) := by
  intro ledger after b h
  obtain ⟨a, next, hn, ha⟩ := over_bind_eq_ok.1 h
  obtain ⟨values, rfl⟩ := hx hn
  obtain ⟨more, rfl⟩ := hf a ha
  exact ⟨values ++ more, (ledger.bindAll_append values more).symm⟩

theorem encodeText (marker text : String) (kind : Kind) (native : Option NativeType) :
    BindsOnly (encodeText marker text kind native) := by
  intro ledger after written h
  rw [over_encodeText] at h
  split at h
  · rename_i encoded _
    obtain ⟨-, rfl⟩ := Prod.mk.inj h
    exact ⟨encoded.values, rfl⟩
  · cases (Prod.mk.inj h).1

end Compile.BindsOnly

/-! ## Keys -/

open Compile (BindsOnly)

theorem bindsOnly_simpleKeyText (scope : Scope) (p : Property) (text : String) :
    (simpleKeyText scope p text).BindsOnly := by
  refine (BindsOnly.lift _).bind fun target => ?_
  split
  · exact .pure _
  · split
    · exact .throw _
    · exact (BindsOnly.encodeText ..).bind fun _ => .pure _

mutual

/-- The condition of a property of a key only binds values, whatever its parts are. -/
theorem bindsOnly_keyText (scope : Scope) :
    ∀ (p : Property) (literal : String), (keyText scope p literal).BindsOnly
  | ⟨name, type, mapping, parts⟩, literal => by
    rw [keyText]
    split
    · exact bindsOnly_simpleKeyText ..
    · exact (bindsOnly_keyPartTexts scope parts _).bind fun _ => .pure _

theorem bindsOnly_keyPartTexts (scope : Scope) :
    ∀ (parts : List Property) (slots : List (Option String)),
      (keyPartTexts scope parts slots).BindsOnly
  | [], _ => by
    rw [keyPartTexts]
    · exact .pure _
    · simp
  | _ :: _, [] => by
    rw [keyPartTexts]
    · exact .pure _
    · simp
  | part :: parts, slot :: slots => by
    rw [keyPartTexts]
    refine (bindsOnly_keyText scope part _).bind fun condition => ?_
    exact (bindsOnly_keyPartTexts scope parts slots).bind fun _ => .pure _

end

theorem bindsOnly_keyTexts (scope : Scope) (predicates : List KeyPredicate) :
    (keyTexts scope predicates).BindsOnly := by
  induction predicates with
  | nil => exact .pure _
  | cons predicate predicates ih =>
    exact (bindsOnly_keyText scope _ _).bind fun condition => ih.bind fun _ => .pure _

/-- Keys only bind values. -/
theorem bindsOnly_keyCondition? (scope : Scope) (predicates : List KeyPredicate) :
    (keyCondition? scope predicates).BindsOnly := by
  rw [keyCondition?]
  split
  · exact .pure _
  · exact (bindsOnly_keyTexts scope predicates).bind fun _ => .pure _

/-! ## Operations -/

/-- An operation on the ledger of a session. -/
inductive Operation where
  /-- Compiles a filter. -/
  | filter (scope : Scope) (expression : Expression)
  /-- Compiles an entity key. -/
  | key (scope : Scope) (predicates : List KeyPredicate)
  /-- Encodes a plain text. -/
  | text (marker text : String) (kind : Kind) (native : Option NativeType)
  /-- Binds a value. -/
  | bind (value : Value)
  /-- Drops all that is bound. -/
  | reset

namespace Operation

/-- Whether an operation succeeds, and the ledger it leaves. -/
def perform (ledger : Ledger) : Operation → Except QueryError Unit × Ledger
  | .filter scope expression =>
    (ledger.addFilter scope expression).map (·.map fun _ => ()) id
  | .key scope predicates => (ledger.addKey scope predicates).map (·.map fun _ => ()) id
  | .text marker plain kind native =>
    (ledger.addText marker plain kind native).map (·.map fun _ => ()) id
  | .bind value => (.ok (), ledger.bind value)
  | .reset => (.ok (), ledger.reset)

/-- Whether an operation compiles a condition. -/
def compiles : Operation → Bool
  | .filter _ _ | .key _ _ => true
  | .text _ _ _ _ | .bind _ | .reset => false

/-- What an operation does to a ledger, and whether it succeeds. -/
inductive Step (before : Ledger) : Operation → Except QueryError Unit × Ledger → Prop
  /-- An operation that succeeds only binds values. -/
  | binds {operation : Operation} (values : List Value) (not_reset : operation ≠ .reset) :
      Step before operation (.ok (), before.bindAll values)
  | resets : Step before .reset (.ok (), {})
  /-- A text that cannot be encoded changes nothing. -/
  | refuses {marker plain : String} {kind : Kind} {native : Option NativeType} {e : QueryError} :
      Step before (.text marker plain kind native) (.error e, before)
  /-- A condition that fails to compile drops all, what it has bound itself and what was there. -/
  | drops {operation : Operation} {e : QueryError} (compiles : operation.compiles) :
      Step before operation (.error e, {})

theorem step_of_run {α : Type} {operation : Operation} {before : Ledger}
    {computation : Compile α} (compiles : operation.compiles)
    (binds : ∀ {a after}, computation.over before = (.ok a, after) →
      ∃ values, after = before.bindAll values) :
    Step before operation ((before.run computation).map (·.map fun _ => ()) id) := by
  rw [Ledger.run]
  split
  · rename_i a after run_eq
    obtain ⟨values, rfl⟩ := binds run_eq
    apply Step.binds values
    rintro rfl
    cases compiles
  · exact .drops compiles

/-- Every operation on a ledger without the mark is a step. -/
theorem step_of_perform (operation : Operation) {before : Ledger}
    (unmarked : before.substringCompared = false) :
    Step before operation (operation.perform before) := by
  cases operation with
  | filter scope expression =>
    -- A filter may put the mark on the ledger, but one that compiles has taken it away.
    apply step_of_run rfl
    intro text after h
    obtain ⟨values, -, after_eq⟩ := yields_of_filterText unmarked h
    exact ⟨values, after_eq⟩
  | key scope predicates =>
    apply step_of_run rfl
    intro condition after h
    exact bindsOnly_keyCondition? scope predicates h
  | text marker plain kind native =>
    simp only [perform, Ledger.addText, over_encodeText]
    split
    · exact .binds _ nofun
    · exact .refuses
  | bind value => exact .binds [value] nofun
  | reset => exact .resets

end Operation

/-! ## Settled ledgers -/

/-- A ledger as it is between the operations of a session: the indices up to the next one are taken,
and no others, and no substring test is waited for. -/
structure Ledger.Settled (ledger : Ledger) : Prop where
  positive : 1 ≤ ledger.nextIndex
  contains_iff : ∀ index, ledger.registry.contains index ↔ 1 ≤ index ∧ index < ledger.nextIndex
  unmarked : ledger.substringCompared = false

namespace Ledger.Settled

theorem empty : Settled {} where
  positive := Nat.le_refl 1
  contains_iff := by
    intro index
    constructor
    · intro h
      cases h
    · rintro ⟨h, h'⟩
      exact absurd h (Nat.not_le_of_lt h')
  unmarked := rfl

theorem bindAll {ledger : Ledger} (settled : ledger.Settled) (values : List Value) :
    (ledger.bindAll values).Settled where
  positive := by
    have := settled.positive
    rw [nextIndex_bindAll]
    omega
  contains_iff := by
    intro index
    have positive := settled.positive
    rw [nextIndex_bindAll, Registry.contains]
    by_cases h : index < ledger.nextIndex
    · have before := settled.contains_iff index
      rw [Registry.contains] at before
      rw [find?_bindAll_of_lt ledger values h, before]
      omega
    · obtain ⟨i, rfl⟩ := Nat.exists_eq_add_of_le (Nat.le_of_not_lt h)
      rw [find?_bindAll, isSome_getElem?]
      omega
  unmarked := by rw [substringCompared_bindAll, settled.unmarked]

end Ledger.Settled

/-- A step leaves a settled ledger settled, also if it fails. -/
theorem Operation.Step.settled {before : Ledger} {operation : Operation}
    {outcome : Except QueryError Unit × Ledger} (settled : before.Settled)
    (step : operation.Step before outcome) : outcome.2.Settled := by
  cases step with
  | binds values _ => exact settled.bindAll values
  | resets => exact .empty
  | refuses => exact settled
  | drops _ => exact .empty

/-! ## Sessions -/

/-- The ledger that an operation leaves. -/
def Ledger.after (ledger : Ledger) (operation : Operation) : Ledger := (operation.perform ledger).2

/-- The ledger of a session after its operations, which starts empty. -/
def afterAll (history : List Operation) : Ledger := history.foldl Ledger.after {}

/-- Every session leaves its ledger settled. -/
theorem settled_afterAll (history : List Operation) : (afterAll history).Settled := by
  -- The steps start from any settled ledger, not only from the empty one.
  suffices run : ∀ ledger : Ledger, ledger.Settled →
      (history.foldl Ledger.after ledger).Settled from run {} .empty
  induction history with
  | nil => exact fun _ settled => settled
  | cons operation history ih =>
    intro ledger settled
    have step := operation.step_of_perform settled.unmarked
    exact ih _ (step.settled settled)

/-- Entries that come after others, under the indices from the next one on. -/
def Ledger.Extends (before after : Ledger) : Prop :=
  ∃ values : List Value, after.nextIndex = before.nextIndex + values.length ∧
    after.registry.entries =
      before.registry.entries ++ (List.range' before.nextIndex values.length).zip values

/-- What an operation must keep of a ledger, where it succeeds and where it fails. -/
def Operation.Keeps (before after : Ledger) : Operation → Except QueryError Unit → Prop
  | .reset, _ => after = {}
  | .text _ _ _ _, .error _ => after = before
  | .filter _ _, .error _ | .key _ _, .error _ => after = {}
  | _, _ => before.Extends after

theorem Operation.Step.keeps {before after : Ledger} {operation : Operation}
    {result : Except QueryError Unit} (step : operation.Step before (result, after)) :
    operation.Keeps before after result := by
  cases step with
  | binds values not_reset =>
    have appended : before.Extends (before.bindAll values) :=
      ⟨values, before.nextIndex_bindAll values, before.entries_bindAll values⟩
    cases operation with
    | reset => exact absurd rfl not_reset
    | _ => exact appended
  | resets => rfl
  | refuses => rfl
  | drops compiles =>
    cases operation with
    | filter _ _ => rfl
    | key _ _ => rfl
    | _ => cases compiles

/-- **Sessions keep their ledger in order.** After any operations, whether they succeeded or failed,
the ledger is settled. A further operation that succeeds leaves what is there and adds to it, unless
it is a reset; one that fails leaves the ledger empty if it compiles a condition, and else as it
was. -/
theorem session_settled_and_keeps (history : List Operation) (operation : Operation) :
    (afterAll history).Settled ∧
      operation.Keeps (afterAll history) ((afterAll history).after operation)
        (operation.perform (afterAll history)).1 := by
  have settled := settled_afterAll history
  have step := operation.step_of_perform settled.unmarked
  exact ⟨settled, step.keeps⟩

/-- A filter that fails with the mark on its ledger and a value bound already leaves nothing of
either. -/
example :
    afterAll [.bind (.string "EU"),
      .filter {} (.binary .eq
        (.method .substringOf
          [.literal "'ob'" .string,
            .property ⟨"Name", .simple .string, some { virtual := true }, []⟩])
        (.literal "true" .boolean))] = {} := by
  rfl

end EntityQuery
