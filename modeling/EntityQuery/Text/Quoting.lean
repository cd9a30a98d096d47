/-!
# Quoted text

Two conventions for quoted text. Key values may stand in one pair of quotes, of either sort, which
is taken off. Inside the quotes of a string literal a single quote is written twice.

## Main definitions

* `unquote`: takes off one pair of surrounding quotes
* `double`, `undouble`: single quotes written twice, and read back

## Main results

* `unquote_eq_self`, `unquote_quotes`: texts without quotes, and what quotes enclose
* `undouble_double`: reading back what was written
-/

namespace EntityQuery.Text

/-- The single quote. -/
def quote : Char := '\''

/-- Whether a character is a quote of either sort. -/
def isQuote (c : Char) : Bool := c == quote || c == '"'

/-- The inside of a text of at least two characters, the first and the last as asked for. -/
def inside? (isFirst isLast : Char → Bool) : List Char → Option (List Char)
  | [] => none
  | c :: rest =>
    match rest.getLast? with
    | some d => if isFirst c && isLast d then some rest.dropLast else none
    | none => none

/-- The characters of a text without one pair of surrounding quotes. The two need not be of the
same sort, and a lone quote stays. -/
def bare (text : List Char) : List Char :=
  (inside? isQuote isQuote text).getD text

/-- A text without one pair of surrounding quotes. -/
def unquote (text : String) : String := String.ofList (bare text.toList)

/-- A text without quotes stays as it is. -/
theorem unquote_eq_self {text : String} (free : ∀ c ∈ text.toList, isQuote c = false) :
    unquote text = text := by
  have outside : inside? isQuote isQuote text.toList = none := by
    cases chars : text.toList with
    | nil => rfl
    | cons c rest =>
      have first : isQuote c = false := free c (by rw [chars]; exact List.mem_cons_self)
      rw [inside?]
      split
      · rw [first, Bool.false_and]
        rfl
      · rfl
  rw [unquote, bare, outside, Option.getD_none, String.ofList_toList]

/-- What a pair of quotes encloses is left, with any quotes in it. -/
theorem unquote_quotes (text : String) : unquote ("'" ++ text ++ "'") = text := by
  have chars : ("'" ++ text ++ "'").toList = quote :: (text.toList ++ [quote]) := by
    simp [quote]
  have inside : inside? isQuote isQuote (quote :: (text.toList ++ [quote])) = some text.toList := by
    simp [inside?, isQuote]
  rw [unquote, bare, chars, inside, Option.getD_some, String.ofList_toList]

/-! ## Doubled quotes -/

/-- Every single quote written twice. -/
def double : List Char → List Char
  | [] => []
  | c :: rest => if c = quote then quote :: quote :: double rest else c :: double rest

theorem double_eq_self {text : List Char} (free : quote ∉ text) : double text = text := by
  induction text with
  | nil => rfl
  | cons c rest ih =>
    obtain ⟨hc, free⟩ := not_or.1 (mt List.mem_cons.2 free)
    rw [double, if_neg (Ne.symm hc), ih free]

/-- Two single quotes in a row read as one; a quote that stands alone stays. -/
def undouble : List Char → List Char
  | [] => []
  | [c] => [c]
  | c :: d :: rest =>
    if c = quote ∧ d = quote then quote :: undouble rest else c :: undouble (d :: rest)

/-- Reading back what was written. -/
theorem undouble_double (text : List Char) : undouble (double text) = text := by
  induction text with
  | nil => rfl
  | cons c rest ih =>
    by_cases hc : c = quote
    · simp [double, hc, undouble, ih]
    · simp only [double, hc, if_false]
      cases hr : double rest with
      | nil =>
        rw [hr] at ih
        simp only [undouble] at ih ⊢
        rw [← ih]
      | cons d tail =>
        rw [hr] at ih
        simp [undouble, hc, ih]

end EntityQuery.Text
