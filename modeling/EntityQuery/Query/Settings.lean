/-!
# Settings of queries

## Main definitions

* `Settings`: the marker of placeholders and the separator of composite texts
* `Settings.fault?`: what is wrong with settings
-/

namespace EntityQuery

/-- What queries have in common, whatever they ask for. -/
structure Settings where
  /-- The text in front of the index of a placeholder. -/
  marker : String := "?"
  /-- The text between the components of a composite text. -/
  separator : String := ";"
  deriving DecidableEq, Repr

/-- What is wrong with settings. -/
inductive SettingsFault where
  | emptyMarker
  | emptySeparator
  deriving DecidableEq, Repr

/-- The wording of a fault. -/
def SettingsFault.message : SettingsFault → String
  | emptyMarker => "Invalid config: placeholder prefix must not be empty"
  | emptySeparator => "Invalid config: composite separator must not be empty"

/-- The first fault of settings: neither text may be empty. -/
def Settings.fault? (s : Settings) : Option SettingsFault :=
  if s.marker.isEmpty then some .emptyMarker
  else if s.separator.isEmpty then some .emptySeparator
  else none

end EntityQuery
