import EntityQuery.CommandLine
import EntityQuery.Proofs.Records

/-!
# Layers of settings

Settings come in layers: the defaults, a file over them, and the options of a call on top. A field
is taken from the uppermost layer that gives it. The settings are checked twice, once when the file
is loaded and once when all layers are there. So an option takes the place of what the file says,
but it does not mend a file that is wrong by itself.

## Main definitions

* `Settings.Full`: settings with nothing wrong
* `Settings.Layer`: the fields that one source gives
* `Settings.Layer.atop`, `Settings.Layer.settings`: layers on top of each other
* `Options.layer`, `Options.fileLayer?`: the layers of a call

## Main results

* `Settings.ofJson?_eq_layer`: a document is a layer over the defaults
* `Options.loadSettings_of_full`, `Options.loadSettings_of_not_full`: a file that is right by itself,
  and one that is not
* `Options.loadSettings_layered`: which calls have settings, and that options take the place of the
  file
-/

namespace EntityQuery

/-! ## Fields of documents -/

namespace Json

variable {name : String} {position : Nat} {j : Json}

/-- The text that a field has, inside none where the field is missing. -/
def givenText? (name : String) (position : Nat) (j : Json) : Option (Option String) :=
  j.default? name position (fun v => v.text?.map some) none

/-- A text with a default is one that may be missing, over the default. -/
theorem default?_text? {default : String} :
    j.default? name position text? default =
      (j.givenText? name position).map (·.getD default) := by
  rw [givenText?, default?_eq, default?_eq]
  rcases j.value? name position with _ | _ | v
  · rfl
  · rfl
  · cases v <;> rfl

end Json

/-! ## Layers -/

namespace Settings

/-- Settings neither field of which is empty. -/
def Full (s : Settings) : Prop := s.marker ≠ "" ∧ s.separator ≠ ""

instance (s : Settings) : Decidable s.Full :=
  inferInstanceAs (Decidable (s.marker ≠ "" ∧ s.separator ≠ ""))

theorem fault?_eq_none {s : Settings} : s.fault? = none ↔ s.Full := by
  unfold fault? Full
  split
  · rename_i empty
    exact iff_of_false nofun fun full => full.1 (String.isEmpty_iff.1 empty)
  · rename_i marker
    split
    · rename_i empty
      exact iff_of_false nofun fun full => full.2 (String.isEmpty_iff.1 empty)
    · rename_i separator
      exact iff_of_true rfl ⟨mt String.isEmpty_iff.2 marker, mt String.isEmpty_iff.2 separator⟩

theorem check_of_full {s : Settings} (full : s.Full) : s.check = .ok s := by
  rw [check, fault?_eq_none.2 full]

theorem check_of_not_full {s : Settings} (wrong : ¬s.Full) :
    ∃ fault, s.check = .error (.invalid fault) := by
  rw [check]
  split
  · rename_i none
    exact absurd (fault?_eq_none.1 none) wrong
  · exact ⟨_, rfl⟩

/-- The fields that one source of settings gives. -/
structure Layer where
  marker? : Option String := none
  separator? : Option String := none
  deriving DecidableEq, Repr

namespace Layer

/-- A layer on top of another one, which gives the fields that the upper one does not. -/
def atop (upper lower : Layer) : Layer :=
  ⟨upper.marker?.or lower.marker?, upper.separator?.or lower.separator?⟩

/-- The settings of a layer over the defaults. -/
def settings (layer : Layer) : Settings :=
  ⟨layer.marker?.getD ({} : Settings).marker, layer.separator?.getD ({} : Settings).separator⟩

/-- Reads the fields that a document gives. -/
def ofJson? (j : Json) : Option Layer := do
  if !j.isRecord 2 then none
  let marker? ← j.givenText? "placeholder_prefix" 0
  let separator? ← j.givenText? "composite_separator" 1
  return { marker?, separator? }

/-- The lower layer can be put over the defaults first. -/
theorem settings_atop (upper lower : Layer) :
    (upper.atop lower).settings =
      ⟨upper.marker?.getD lower.settings.marker,
        upper.separator?.getD lower.settings.separator⟩ := by
  obtain ⟨marker?, separator?⟩ := upper
  cases marker? <;> cases separator? <;> rfl

end Layer

/-- Settings are read from a document as a layer over the defaults. -/
theorem ofJson?_eq_layer (j : Json) : ofJson? j = (Layer.ofJson? j).map Layer.settings := by
  rw [ofJson?_eq, Layer.ofJson?, Json.default?_text?, Json.default?_text?]
  cases j.isRecord 2 with
  | false => rfl
  | true =>
    rcases j.givenText? "placeholder_prefix" 0 with _ | marker?
    · rfl
    · rcases j.givenText? "composite_separator" 1 with _ | separator?
      · rfl
      · rfl

theorem load_eq (text : String) :
    load (some text) = match (Json.read? text.toList).bind Layer.ofJson? with
      | some layer => layer.settings.check
      | none => .error (.document .malformed) := by
  have read_eq : (Json.read? text.toList).bind ofJson? =
      ((Json.read? text.toList).bind Layer.ofJson?).map Layer.settings := by
    rw [Option.map_bind]
    exact congrArg _ (funext ofJson?_eq_layer)
  rw [load, Document.read]
  simp only [read_eq]
  rcases (Json.read? text.toList).bind Layer.ofJson? with _ | layer
  · rfl
  · rfl

end Settings

/-! ## Settings of a call -/

namespace Options

/-- The fields that the options of a call give. -/
def layer (options : Options) : Settings.Layer := ⟨options.marker?, options.separator?⟩

/-- The fields that the file of a call gives, none where there is no file; nothing at all where the
file holds no settings. -/
def fileLayer? (options : Options) (text? : Option String) : Option Settings.Layer :=
  match options.settings? with
  | none => some {}
  | some _ => text?.bind fun text => (Json.read? text.toList).bind Settings.Layer.ofJson?

section Loading

variable {options : Options} {text? : Option String} {layer : Settings.Layer}

theorem fileLayer?_eq_some {file : String} (given : options.settings? = some file) :
    options.fileLayer? text? = some layer ↔ ∃ text, text? = some text ∧
      (Json.read? text.toList).bind Settings.Layer.ofJson? = some layer := by
  rw [fileLayer?, given]
  exact Option.bind_eq_some_iff

/-- A file that is wrong by itself is refused, whatever the options say. -/
theorem loadSettings_of_not_full {file : String} (given : options.settings? = some file)
    (read : options.fileLayer? text? = some layer) (wrong : ¬layer.settings.Full) :
    options.loadSettings text? = .error ("Failed to load config " ++ file) := by
  obtain ⟨text, rfl, text_read⟩ := (fileLayer?_eq_some given).1 read
  obtain ⟨fault, checked⟩ := Settings.check_of_not_full wrong
  simp only [loadSettings, given, Settings.load_eq, text_read, checked]
  rfl

/-- A file that is right by itself is loaded, and then the layers are checked together. -/
theorem loadSettings_of_full (read : options.fileLayer? text? = some layer)
    (full : layer.settings.Full) :
    options.loadSettings text? =
      if (options.layer.atop layer).settings.Full then .ok (options.layer.atop layer).settings
      else .error "Invalid configuration" := by
  have loaded_eq : options.loadSettings text? =
      ((options.layer.atop layer).settings.check.mapError fun _ => "Invalid configuration") := by
    rw [Settings.Layer.settings_atop]
    rcases given : options.settings? with _ | file
    · rw [fileLayer?, given] at read
      obtain rfl := Option.some.inj read
      simp only [loadSettings, given]
      rfl
    · obtain ⟨text, rfl, text_read⟩ := (fileLayer?_eq_some given).1 read
      simp only [loadSettings, given, Settings.load_eq, text_read, Settings.check_of_full full]
      rfl
  rw [loaded_eq]
  split
  · rename_i all
    rw [Settings.check_of_full all]
    rfl
  · rename_i wrong
    obtain ⟨fault, checked⟩ := Settings.check_of_not_full wrong
    rw [checked]
    rfl

/-- Without a file there is nothing that could be wrong by itself. -/
theorem exists_file_of_not_full (read : options.fileLayer? text? = some layer)
    (wrong : ¬layer.settings.Full) : ∃ file, options.settings? = some file := by
  rcases given : options.settings? with _ | file
  · rw [fileLayer?, given] at read
    obtain rfl := Option.some.inj read
    exact absurd (by decide) wrong
  · exact ⟨file, rfl⟩

/-- **Options are over the file, and the file is over the defaults.** Let the file of a call, if
there is one, hold JSON settings. The call has settings if the file gives no field an empty text and
no field is empty in the end. These are the fields of the options, where these give none the fields
of the file, and the defaults otherwise. So what the file gives for a field does not matter where an
option gives that field, as long as it is not empty. A file that gives an empty text is refused by
its name; otherwise it is the settings as a whole that are refused. -/
theorem loadSettings_layered (read : options.fileLayer? text? = some layer) :
    (∀ settings, options.loadSettings text? = .ok settings ↔ layer.settings.Full ∧
      (options.layer.atop layer).settings.Full ∧ (options.layer.atop layer).settings = settings) ∧
    (¬layer.settings.Full → ∃ file, options.settings? = some file ∧
      options.loadSettings text? = .error ("Failed to load config " ++ file)) ∧
    (layer.settings.Full → ¬(options.layer.atop layer).settings.Full →
      options.loadSettings text? = .error "Invalid configuration") ∧
    ∀ other? other, options.fileLayer? other? = some other →
      layer.settings.Full → other.settings.Full →
      (options.marker? = none → layer.marker? = other.marker?) →
      (options.separator? = none → layer.separator? = other.separator?) →
      options.loadSettings text? = options.loadSettings other? := by
  refine ⟨?succeeds, ?refused, ?invalid, ?overridden⟩
  case succeeds =>
    intro settings
    by_cases full : layer.settings.Full
    · rw [loadSettings_of_full read full]
      split
      · rename_i all
        simp [full, all]
      · rename_i wrong
        simp [wrong]
    · obtain ⟨file, given⟩ := exists_file_of_not_full read full
      rw [loadSettings_of_not_full given read full]
      simp [full]
  case refused =>
    intro wrong
    obtain ⟨file, given⟩ := exists_file_of_not_full read wrong
    exact ⟨file, given, loadSettings_of_not_full given read wrong⟩
  case invalid =>
    intro full wrong
    rw [loadSettings_of_full read full, if_neg wrong]
  case overridden =>
    intro other? other read_other full full_other same_marker same_separator
    have same : options.layer.atop layer = options.layer.atop other := by
      have marker_eq : options.marker?.or layer.marker? = options.marker?.or other.marker? := by
        rcases given : options.marker? with _ | marker
        · exact same_marker given
        · rfl
      have separator_eq :
          options.separator?.or layer.separator? = options.separator?.or other.separator? := by
        rcases given : options.separator? with _ | separator
        · exact same_separator given
        · rfl
      rw [Settings.Layer.atop, Settings.Layer.atop, Options.layer, marker_eq, separator_eq]
    rw [loadSettings_of_full read full, loadSettings_of_full read_other full_other, same]

end Loading

/-- A call that gives a marker of its own, and whose file may give more. -/
def colonOptions : Options := { marker? := some ":", settings? := some "c.json" }

/-- The marker comes from the options and the separator from the file. -/
theorem loadSettings_layered_of_separatorFile :
    colonOptions.loadSettings (some "\x7b\"composite_separator\": \"|\"\x7d") =
      .ok ⟨":", "|"⟩ := by
  have json : Json.read? "\x7b\"composite_separator\": \"|\"\x7d".toList =
      some (.object [("composite_separator", .string "|")]) := by cbv
  have read : colonOptions.fileLayer? (some "\x7b\"composite_separator\": \"|\"\x7d") =
      some ⟨none, some "|"⟩ := by
    refine (fileLayer?_eq_some rfl).2 ⟨_, rfl, ?_⟩
    rw [json]
    rfl
  exact ((loadSettings_layered read).1 _).2 ⟨by decide, by decide, rfl⟩

/-- **An option does not mend a file.** A file gives an empty marker where an option gives another
one, so no field is empty in the end. The call has no settings all the same. -/
theorem loadSettings_refuses_overridden_field :
    colonOptions.fileLayer? (some "\x7b\"placeholder_prefix\": \"\"\x7d") =
        some ⟨some "", none⟩ ∧
      (colonOptions.layer.atop ⟨some "", none⟩).settings.Full ∧
      colonOptions.loadSettings (some "\x7b\"placeholder_prefix\": \"\"\x7d") =
        .error "Failed to load config c.json" := by
  have json : Json.read? "\x7b\"placeholder_prefix\": \"\"\x7d".toList =
      some (.object [("placeholder_prefix", .string "")]) := by cbv
  have read : colonOptions.fileLayer? (some "\x7b\"placeholder_prefix\": \"\"\x7d") =
      some ⟨some "", none⟩ := by
    refine (fileLayer?_eq_some rfl).2 ⟨_, rfl, ?_⟩
    rw [json]
    rfl
  have given : colonOptions.settings? = some "c.json" := rfl
  exact ⟨read, by decide, loadSettings_of_not_full given read (by decide)⟩

end Options

end EntityQuery
