import EntityQuery.Document.Json

/-!
# Names in JSON

A name out of a fixed list is written as a string, or as the only field of an object, with nothing
under it. What counts as nothing depends on how the value is reached: trees are gathered whole
before they are read, because the kind of a node may follow its other fields, and what was gathered
is read less strictly than what stands in the document itself.

## Main definitions

* `Access`: how a value is reached
* `Json.name?`: the name that a value is
-/

namespace EntityQuery

/-- How a value is reached. -/
inductive Access where
  /-- Where it stands in the document. -/
  | direct
  /-- Inside a tree that was gathered first. -/
  | gathered
  deriving DecidableEq, Repr

namespace Json

/-- Whether a value is nothing: `null`, and among gathered values also the empty object. -/
def isNothing (access : Access) : Json → Bool
  | null => true
  | object [] => access == .gathered
  | _ => false

/-- The name that a value is. -/
def name? (access : Access) : Json → Option String
  | string name => some name
  | object [(name, content)] => if content.isNothing access then some name else none
  | _ => none

end Json

end EntityQuery
