import EntityQuery.Binding.Encoding
import EntityQuery.Literal.Uri
import EntityQuery.Text.Search
import EntityQuery.Query.Scope
import EntityQuery.Query.Slots

/-!
# Conditions of filters

The compilation of a filter tree to a condition. Operands are compiled from left to right, which
fixes the order in which values are bound. Every operator puts its condition in parentheses.

Some comparisons differ from the plain form:

* a comparison with `null` uses `IS` and `IS NOT`, and for an embedded property it is about the
  object that owns it;
* a pattern test compared with a boolean literal is the test itself or its negation;
* a substring test leaves out its own comparison where it stands left of `eq` or `ne`;
* a comparison of a composite property is one comparison for each part.

## Main definitions

* `comparison`: the condition of two compiled operands
* `Method.template`: the text of a method call
* `compositeText`: the condition of a composite property
* `filterText`: the condition of a tree

## Main results

* `plainComparison_eq_ok`: which operands have a condition as they stand
* `comparison_property`: which properties are compared as they stand
* `patternMethod?_eq_some`, `compositeProperty?_eq_some`: the nodes that are compared in a form of
  their own
* `over_binary_eq_ok`: what a comparison of the plain form comes to
-/

namespace EntityQuery

/-! ## Comparisons -/

/-- The text of the left operand. Before `null` an embedded property stands for its owner. -/
def leftText (left right : Expression) (text : String) : Except QueryError String :=
  match left with
  | .property p =>
    if right.isNullLiteral && p.isEmbedded then
      match Text.upToLast? '.' text with
      | some owner => .ok owner
      | none => .error (.mapping (.noOwner p.name))
    else .ok text
  | _ => .ok text

/-- The method of a pattern test. -/
def patternMethod? (e : Expression) : Option Method :=
  match e.method? with
  | some .startsWith => some .startsWith
  | some .endsWith => some .endsWith
  | _ => none

theorem patternMethod?_eq_some {e : Expression} {m : Method} :
    patternMethod? e = some m ↔ m ∈ [Method.startsWith, .endsWith] ∧ e.method? = some m := by
  rcases call : e.method? with _ | called
  · simp [patternMethod?, call]
  · cases called <;> simp [patternMethod?, call] <;> grind

/-- A pattern test as it stands, or negated where it is compared with something else than
`true`. -/
def patternTest (test right : String) : String :=
  if right = "true" then "(" ++ test ++ ")"
  else "(" ++ Text.substituteFirst "LIKE" "NOT LIKE" test ++ " )"

/-- The token of an operator in front of a right operand. -/
def tokenBefore (operator : BinaryOperator) (token right : String) : String :=
  if right = "null" then
    match operator with
    | .eq => "IS"
    | .ne => "IS NOT"
    | _ => token
  else token

/-- The condition of two operands that are compared or combined as they stand. -/
def plainComparison (operator : BinaryOperator) (left right : String) :
    Except QueryError String :=
  match operator.token? with
  | some token =>
    .ok ("(" ++ left ++ " " ++ tokenBefore operator token right ++ " " ++ right ++ ")")
  | none => .error (.unsupported (.operator operator))

theorem plainComparison_eq_ok {operator : BinaryOperator} {lhs rhs text : String} :
    plainComparison operator lhs rhs = .ok text ↔ ∃ token, operator.token? = some token ∧
      "(" ++ lhs ++ " " ++ tokenBefore operator token rhs ++ " " ++ rhs ++ ")" = text := by
  rw [plainComparison]
  cases operator.token? <;> simp

/-- The condition of two operands, given with their texts. -/
def comparison (operator : BinaryOperator) (left right : Expression) (lhs rhs : String) :
    Except QueryError String := do
  let lhs ← leftText left right lhs
  match patternMethod? left, right.isBooleanLiteral with
  | some method, true =>
    if operator = .eq then .ok (patternTest lhs rhs) else .error (.misuse operator method)
  | _, _ => plainComparison operator lhs rhs

/-- A property is compared as it stands, unless it is embedded and compared with `null`. -/
theorem comparison_property {p : Property} {right : Expression}
    (whole : (right.isNullLiteral && p.isEmbedded) = false) (operator : BinaryOperator)
    (lhs rhs : String) :
    comparison operator (.property p) right lhs rhs = plainComparison operator lhs rhs := by
  have as_it_is : leftText (.property p) right lhs = .ok lhs := by simp [leftText, whole]
  rw [comparison, as_it_is]
  rfl

/-- The text of an operator of one operand. A minus takes away a minus in front of its operand. -/
def unaryText (operator : UnaryOperator) (operand : String) : String :=
  match operator with
  | .not => "NOT (" ++ operand ++ ")"
  | .minus =>
    match operand.toList with
    | '-' :: rest => String.ofList rest
    | chars => String.ofList ('-' :: chars)

/-! ## Leaves -/

/-- The text of a literal: a keyword or a placeholder. -/
def literalText (scope : Scope) (text : String) (kind : Kind) : Compile String := do
  match Literal.parse text with
  | .ok literal => encodeText scope.settings.marker literal.text kind none
  | .error e => throw (.literal text kind e)

/-! ## Methods -/

namespace Method

/-- Whether conditions can express a method. -/
def isSupported : Method → Bool
  | substring | substringOf | toLower | startsWith | endsWith => true
  | method => method.datePart?.isSome

/-- Refuses methods that conditions cannot express and numbers of arguments that methods do not
take. -/
def check (method : Method) (count : Nat) : Except QueryError Unit :=
  if !method.isSupported then .error (.unsupported (.method method))
  else if !method.arity.admits count then .error (.arguments method count)
  else .ok ()

/-- The test whether a text contains another one, as a value. -/
def containsCase (part whole : String) : String :=
  "(CASE WHEN (" ++ whole ++ " LIKE CONCAT('%',CONCAT(" ++ part
    ++ ",'%')) ESCAPE '\\') THEN TRUE ELSE FALSE END)"

/-- The text of a method call. A substring test that is `compared` already leaves out its own
comparison. -/
def template (method : Method) (compared : Bool) (arguments : List String) :
    Except QueryError String :=
  match method, arguments with
  | substring, [text, start] => .ok ("SUBSTRING(" ++ text ++ ", " ++ start ++ " + 1)")
  | substring, [text, start, count] =>
    .ok ("SUBSTRING(" ++ text ++ ", " ++ start ++ " + 1, " ++ count ++ ")")
  | substringOf, [part, whole] =>
    .ok (if compared then containsCase part whole else containsCase part whole ++ " = true")
  | toLower, [text] => .ok ("LOWER(" ++ text ++ ")")
  | startsWith, [text, part] => .ok (text ++ " LIKE CONCAT(" ++ part ++ ",'%') ESCAPE '\\'")
  | endsWith, [text, part] => .ok (text ++ " LIKE CONCAT('%'," ++ part ++ ") ESCAPE '\\'")
  | method, [date] =>
    match method.datePart? with
    | some part => .ok ("EXTRACT(" ++ part ++ " " ++ date ++ ")")
    | none => .error (.unsupported (.method method))
  | method, _ => .error (.unsupported (.method method))

end Method

/-- Whether a substring test on the left of an operator is compared by it. -/
def comparesSubstring (operator : BinaryOperator) (left : Expression) : Bool :=
  operator.isEquality && left.method? == some .substringOf

/-- Marks the substring test on the left of an operator as compared, if there is one. -/
def markCompared (operator : BinaryOperator) (left : Expression) : Compile Unit :=
  modify fun ledger => if comparesSubstring operator left then ledger.markSubstring else ledger

/-- Whether a method call is a substring test that is marked as compared; the mark is taken away
before the arguments are compiled, so that none of them can take it. -/
def takeMark (method : Method) : Compile Bool := do
  if method = .substringOf then
    let ledger ← get
    set ledger.clearSubstring
    return ledger.substringCompared
  else return false

/-! ## Composite properties -/

/-- The composite text of a literal: its plain text, or what its quotes enclose where it has no
form of a literal. -/
def compositeValue (literal : String) : String :=
  match Literal.parse literal with
  | .ok l => l.text
  | .error _ => Text.unquote literal

/-- The literal of a slot, with the kind of the part; `null` where the slot is empty. -/
def slotLiteral (owner part : Property) (slot : Option String) :
    Except QueryError (String × Kind) :=
  match slot with
  | none => .ok ("null", .null)
  | some token =>
    match part.kind? with
    | some kind => .ok (Literal.render kind token, kind)
    | none => .error (.mapping (.partType part.name owner.name))

/-- The comparison of one part. -/
def partText (scope : Scope) (operator : BinaryOperator) (owner part : Property)
    (slot : Option String) : Compile String := do
  let (text, kind) ← slotLiteral owner part slot
  let lhs ← scope.columnText part
  let rhs ← literalText scope text kind
  comparison operator (.property part) (.literal text kind) lhs rhs

/-- The comparisons of parts with slots. -/
def partTexts (scope : Scope) (operator : BinaryOperator) (owner : Property) :
    List Property → List (Option String) → Compile (List String)
  | part :: parts, slot :: slots => do
    let text ← partText scope operator owner part slot
    let texts ← partTexts scope operator owner parts slots
    return text :: texts
  | _, _ => return []

/-- Conditions that must all hold. -/
def conjunction (conditions : List String) : String := String.intercalate " AND " conditions

/-- The comparison of a composite property with a literal. -/
def compositeText (scope : Scope) (operator : BinaryOperator) (property : Property)
    (right : Expression) : Compile String := do
  match right with
  | .literal text _ =>
    let slots := slots scope.settings.separator (compositeValue text) property.parts.length
    let conjuncts ← partTexts scope operator property property.parts slots
    return "(" ++ conjunction conjuncts ++ ")"
  | _ => throw (.mapping (.noLiteral property.name))

/-- The property of a node that is a composite property. -/
def compositeProperty? : Expression → Option Property
  | .property p => if p.isComposite then some p else none
  | _ => none

theorem compositeProperty?_eq_some {e : Expression} {p : Property} :
    compositeProperty? e = some p ↔ e = .property p ∧ p.isComposite = true := by
  cases e with
  | property p' =>
    cases h : p'.isComposite <;> simp [compositeProperty?, h] <;> rintro rfl <;> exact h
  | _ => simp [compositeProperty?]

/-! ## Trees -/

mutual

/-- The condition of a tree. -/
def filterText (scope : Scope) : Expression → Compile String
  | .filter expression => filterText scope expression
  | .unary operator operand => do
    let text ← filterText scope operand
    return unaryText operator text
  | .binary operator left right =>
    match compositeProperty? left with
    | some property => compositeText scope operator property right
    | none => do
      markCompared operator left
      let lhs ← filterText scope left
      let rhs ← filterText scope right
      comparison operator left right lhs rhs
  | .property property => scope.columnText property
  | .member path property => scope.pathText (.member path property)
  | .literal text kind => literalText scope text kind
  | .method method arguments => do
    method.check arguments.length
    let compared ← takeMark method
    let texts ← filterTexts scope arguments
    method.template compared texts

/-- The texts of the arguments of a method call, from left to right. -/
def filterTexts (scope : Scope) : List Expression → Compile (List String)
  | [] => return []
  | argument :: arguments => do
    let text ← filterText scope argument
    let texts ← filterTexts scope arguments
    return text :: texts

end

/-- A comparison that is neither of a composite property nor of a substring test compiles if its
operands do and have a condition together. -/
theorem over_binary_eq_ok {scope : Scope} {operator : BinaryOperator} {left right : Expression}
    (simple : compositeProperty? left = none) (other : comparesSubstring operator left = false)
    {text : String} {ledger after : Ledger} :
    (filterText scope (.binary operator left right)).over ledger = (.ok text, after) ↔
      ∃ lhs middle rhs, (filterText scope left).over ledger = (.ok lhs, middle) ∧
        (filterText scope right).over middle = (.ok rhs, after) ∧
        comparison operator left right lhs rhs = .ok text := by
  simp [filterText, simple, markCompared, other, Compile.over_bind_eq_ok]

end EntityQuery
