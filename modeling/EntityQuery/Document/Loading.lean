import EntityQuery.Document.Reader

/-!
# Documents

Documents are octets that hold a JSON value in UTF-8.

## Main definitions

* `DocumentError`: why there is no value in a document
* `Document.read`: the value that a reader of JSON finds in a text
-/

namespace EntityQuery

/-- Why there is no value in a document. -/
inductive DocumentError where
  /-- There is no text: no file, or octets that are not UTF-8. -/
  | unreadable
  /-- The text is not JSON, or not of the right shape. -/
  | malformed
  deriving DecidableEq, Repr

/-- The text of octets in UTF-8. -/
def Document.text? (data : List UInt8) : Option String := String.fromUTF8? ⟨data.toArray⟩

/-- The value that a reader of JSON finds in a text, where there is a text. -/
def Document.read {α : Type} (ofJson? : Json → Option α) (text? : Option String) :
    Except DocumentError α :=
  match text? with
  | none => .error .unreadable
  | some text =>
    match (Json.read? text.toList).bind ofJson? with
    | some a => .ok a
    | none => .error .malformed

end EntityQuery
