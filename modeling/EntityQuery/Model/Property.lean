import EntityQuery.Model.Kind

/-!
# Properties

Properties of the entity data model and how they map to what the backend stores. A composite
property stands for several stored columns, its parts.

## Main definitions

* `PropertyType`, `Mapping`, `Property`
* `Property.storedName`, `Property.queryName`: the names of a property in the backend
-/

namespace EntityQuery

/-- The declared type of a property. -/
inductive PropertyType where
  /-- A simple type. -/
  | simple (kind : Kind)
  /-- A complex type, by its qualified name. -/
  | complex (name : String)
  /-- An entity type that navigation leads to, by its qualified name. -/
  | entity (name : String)
  deriving DecidableEq, Repr

/-- How a property maps to what the backend stores. -/
structure Mapping where
  /-- The path of the attribute. -/
  storedName : Option String := none
  /-- An expression that stands for the attribute in queries. -/
  expression : Option String := none
  /-- The type in which values are bound. -/
  native : Option NativeType := none
  /-- Whether the attribute lies inside an embedded object, which is what a comparison with `null`
  is then about. -/
  embedded : Bool := false
  /-- Whether nothing is stored for the property. -/
  virtual : Bool := false
  deriving DecidableEq, Repr

/-- A property of the entity data model. -/
structure Property where
  name : String
  type : PropertyType
  mapping : Option Mapping := none
  /-- The parts of a composite property, in the order of its text. -/
  parts : List Property := []
  deriving Repr

namespace Property

/-- Whether a property has parts. -/
def isComposite (p : Property) : Bool := !p.parts.isEmpty

/-- Whether a property lies inside an embedded object. -/
def isEmbedded (p : Property) : Bool := p.mapping.any (·.embedded)

/-- Whether nothing is stored for a property. -/
def isVirtual (p : Property) : Bool := p.mapping.any (·.virtual)

/-- The kind of a property of simple type. -/
def kind? (p : Property) : Option Kind :=
  match p.type with
  | .simple kind => some kind
  | .complex _ | .entity _ => none

/-- The native type that a property asks for. -/
def native? (p : Property) : Option NativeType := p.mapping.bind (·.native)

/-- The name of the stored attribute: the mapped one, or else the property's own. -/
def storedName (p : Property) : String := (p.mapping.bind (·.storedName)).getD p.name

/-- The name of a property in queries: the mapped expression, or else the stored attribute. -/
def queryName (p : Property) : String := (p.mapping.bind (·.expression)).getD p.storedName

end Property

end EntityQuery
