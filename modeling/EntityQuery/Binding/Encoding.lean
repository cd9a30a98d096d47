import EntityQuery.Binding.Ledger
import EntityQuery.Literal.Temporal
import EntityQuery.Text.Pattern
import EntityQuery.Query.Failure

/-!
# Encoding of plain texts

The plain text of a kind becomes a keyword, which stands in the query itself, or a value, which is
bound at the next index of a ledger and stands in the query as a placeholder.

## Main definitions

* `Encoded`: a keyword or a value
* `encode`: the encoding of a plain text, for a kind and an optional native type
* `Compile`, `Compile.over`: computations over a ledger that may fail
* `Encoded.place`: the text that stands in the query

## Main results

* `Compile.over_bind_eq_ok`: a computation in two steps succeeds where both steps do
-/

namespace EntityQuery

/-- What a plain text becomes. -/
inductive Encoded where
  /-- A keyword of the query. -/
  | keyword (word : String)
  /-- A value to be bound. -/
  | value (value : Value)
  deriving DecidableEq, Repr

namespace Encoding

/-- The encoding of booleans and of `null`. -/
def keyword (text : String) (kind : Kind) : Except QueryError Encoded :=
  let refuse := fun fault => Except.error (.literal text kind (.invalid text kind fault))
  match kind with
  | .boolean =>
    let word := String.ofList (text.toList.map Char.toLower)
    if word = "true" ∨ word = "false" then .ok (.keyword word) else refuse .booleanExpected
  | _ => if text = "null" then .ok (.keyword text) else refuse .nullExpected

/-- The encoding of text, always as text inside a pattern. A character is the first of that text. -/
def textValue (text : String) (native : Option NativeType) : Except QueryError Value :=
  let chars := Text.escaped text.toList
  match native with
  | some .char =>
    match chars with
    | c :: _ => .ok (.char c)
    | [] => .error (.value text .char .emptyValue)
  | some .charArray => .ok (.charArray chars)
  | _ => .ok (.string (String.ofList chars))

/-- The encoding of moments, with or without an offset. -/
def instantValue (text : String) (kind : Kind) : Except QueryError Value :=
  let read := match kind with
    | .dateTimeOffset => (Temporal.readOffsetMoment text).map Value.timestampWithOffset
    | _ => (Temporal.readMoment text).map Value.timestamp
  read.mapError (.literal text kind)

/-- The encoding of times of day, in whole seconds. -/
def timeValue (text : String) : Except QueryError Value :=
  match Temporal.readClock text with
  | .ok clock => .ok (.time clock.wholeSecond)
  | .error e => .error (.literal text .time e)

/-- What a reader reads, as a value of a native type. -/
def readAs {α ε : Type} (text : String) (native : NativeType) (wrap : α → Value) (fault : ε → Fault)
    (read : Except ε α) : Except QueryError Value :=
  match read with
  | .ok a => .ok (wrap a)
  | .error e => .error (.value text native (fault e))

/-- The encoding of numbers and octets, in the native type asked for or else the kind's own. Only
octets are read as hexadecimal digits; a number bound as octets is its text. -/
def numericValue (text : String) (kind : Kind) (native : Option NativeType) :
    Except QueryError Value :=
  let chars := text.toList
  match native.or kind.native? with
  | some .byte => readAs text .byte .byte .integer (Signed.read chars)
  | some .short => readAs text .short .short .integer (Signed.read chars)
  | some .int => readAs text .int .int .integer (Signed.read chars)
  | some .long => readAs text .long .long .integer (Signed.read chars)
  | some .float => readAs text .float .float .floating (Floating.read .single chars)
  | some .double => readAs text .double .double .floating (Floating.read .double chars)
  | some .decimal => readAs text .decimal .decimal .decimal (Decimal.read chars)
  | some .bigInteger => readAs text .bigInteger .bigInteger .integer (readInteger chars)
  | some .byteArray =>
    if kind = .binary then readAs text .byteArray .byteArray .hex (Hex.decode chars)
    else .ok (.byteArray (octets chars))
  | target => .error (.unmapped kind target)

end Encoding

/-- The encoding of a plain text, for a kind and an optional native type. -/
def encode (text : String) (kind : Kind) (native : Option NativeType) :
    Except QueryError Encoded :=
  match kind.family with
  | .text => (Encoding.textValue text native).map .value
  | .instant => (Encoding.instantValue text kind).map .value
  | .time => (Encoding.timeValue text).map .value
  | .numeric => (Encoding.numericValue text kind native).map .value
  | .other => Encoding.keyword text kind

/-! ## Computations -/

/-- Computations over a ledger that may fail, and then leave what they have bound so far. -/
abbrev Compile (α : Type) := ExceptT QueryError (StateM Ledger) α

/-- What a computation gives over a ledger, and the ledger it leaves. -/
def Compile.over {α : Type} (computation : Compile α) (ledger : Ledger) :
    Except QueryError α × Ledger :=
  (computation.run.run ledger).run

namespace Compile

variable {α β : Type}

@[simp] theorem over_pure (a : α) (ledger : Ledger) :
    (pure a : Compile α).over ledger = (.ok a, ledger) := rfl

theorem over_pure_eq_ok {a b : α} {ledger after : Ledger} :
    (pure a : Compile α).over ledger = (.ok b, after) ↔ a = b ∧ ledger = after := by
  simp

@[simp] theorem over_throw (e : QueryError) (ledger : Ledger) :
    (throw e : Compile α).over ledger = (.error e, ledger) := rfl

@[simp] theorem over_liftM (result : Except QueryError α) (ledger : Ledger) :
    (liftM result : Compile α).over ledger = (result, ledger) := rfl

@[simp] theorem over_get (ledger : Ledger) :
    (get : Compile Ledger).over ledger = (.ok ledger, ledger) := rfl

@[simp] theorem over_set (next ledger : Ledger) :
    (set next : Compile Unit).over ledger = (.ok (), next) := rfl

@[simp] theorem over_modify (f : Ledger → Ledger) (ledger : Ledger) :
    (modify f : Compile Unit).over ledger = (.ok (), f ledger) := rfl

/-- A failure in the first step leaves the ledger as that step left it. -/
theorem over_bind (x : Compile α) (f : α → Compile β) (ledger : Ledger) :
    (x >>= f).over ledger = match x.over ledger with
      | (.ok a, next) => (f a).over next
      | (.error e, next) => (.error e, next) := by
  simp only [Compile.over, ExceptT.run_bind, StateT.run_bind, Id.run_bind]
  rcases x.run.run ledger with ⟨_ | a, next⟩ <;> rfl

@[simp] theorem over_map (f : α → β) (x : Compile α) (ledger : Ledger) :
    (f <$> x).over ledger = ((x.over ledger).1.map f, (x.over ledger).2) := by
  rw [map_eq_pure_bind, over_bind]
  rcases x.over ledger with ⟨_ | a, next⟩ <;> rfl

/-- A computation in two steps succeeds where both steps do. -/
theorem over_bind_eq_ok {x : Compile α} {f : α → Compile β} {ledger after : Ledger} {b : β} :
    (x >>= f).over ledger = (.ok b, after) ↔
      ∃ a next, x.over ledger = (.ok a, next) ∧ (f a).over next = (.ok b, after) := by
  rw [over_bind]
  rcases x.over ledger with ⟨_ | a, next⟩ <;> simp [and_assoc]

end Compile

/-! ## Placeholders -/

/-- The placeholder of an index. -/
def placeholder (marker : String) (index : Nat) : String := marker ++ toString index

/-- The text that stands in the query: a keyword, or the placeholder of the value just bound. -/
def Encoded.place (marker : String) : Encoded → Compile String
  | .keyword word => pure word
  | .value v => do
    let ledger ← get
    set (ledger.bind v)
    return placeholder marker ledger.nextIndex

/-- Encodes a plain text and places what it becomes. -/
def encodeText (marker text : String) (kind : Kind) (native : Option NativeType) :
    Compile String := do
  (← encode text kind native).place marker

end EntityQuery
