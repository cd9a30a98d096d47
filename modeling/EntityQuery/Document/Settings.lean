import EntityQuery.Document.Loading
import EntityQuery.Document.Record
import EntityQuery.Query.Settings

/-!
# Settings in JSON

The JSON form of settings, and settings loaded from a document, which are checked.

## Main definitions

* `Settings.ofJson?`, `Settings.toJson`
* `Settings.load`
-/

namespace EntityQuery

open Json

/-- Reads settings, all of which have defaults. -/
def Settings.ofJson? (j : Json) : Option Settings := do
  if !j.isRecord 2 then none
  let marker ← j.default? "placeholder_prefix" 0 text? ({} : Settings).marker
  let separator ← j.default? "composite_separator" 1 text? ({} : Settings).separator
  return { marker, separator }

/-- The JSON form of settings. -/
def Settings.toJson (s : Settings) : Json :=
  object [("placeholder_prefix", string s.marker), ("composite_separator", string s.separator)]

/-- Why settings cannot be loaded. -/
inductive SettingsError where
  | document (error : DocumentError)
  | invalid (fault : SettingsFault)
  deriving DecidableEq, Repr

/-- Settings as they are, if nothing is wrong with them. -/
def Settings.check (s : Settings) : Except SettingsError Settings :=
  match s.fault? with
  | none => .ok s
  | some fault => .error (.invalid fault)

/-- Loads settings from a document. -/
def Settings.load (text? : Option String) : Except SettingsError Settings :=
  match Document.read Settings.ofJson? text? with
  | .ok s => s.check
  | .error e => .error (.document e)

end EntityQuery
