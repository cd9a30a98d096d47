import EntityQuery.Text.Quoting

/-!
# Text inside a pattern

Text that becomes part of a `LIKE` pattern with escape character `\`: quotes are doubled, and the
escape character and both wildcards are escaped, so that the text stands for itself.

## Main definitions

* `escape`: a text as the pattern that matches it
-/

namespace EntityQuery.Text

/-- The escape character of patterns. -/
def escapeMark : Char := '\\'

/-- Whether a character has a meaning of its own inside a pattern. -/
def isSpecial (c : Char) : Bool := c == escapeMark || c == '%' || c == '_'

/-- What one character is written as inside a pattern. -/
def escapeChar (c : Char) : List Char :=
  if c = quote then [quote, quote] else if isSpecial c then [escapeMark, c] else [c]

/-- A text as the pattern that matches it. -/
def escaped (text : List Char) : List Char := text.flatMap escapeChar

/-- A string as the pattern that matches it. -/
def escape (text : String) : String := String.ofList (escaped text.toList)

end EntityQuery.Text
