import EntityQuery.Document.Settings
import EntityQuery.Request
import EntityQuery.Text.Search

/-!
# The command line

The program reads a request from a file or from its standard input and prints the texts of the query
and the values of its placeholders. Options override what a file of settings says, which overrides
the defaults.

## Main definitions

* `Options`, `Options.ofArguments?`: the options of a call
* `Outcome`, `Options.outcome`: what a call prints and how it ends
-/

namespace EntityQuery

/-- The options of a call. -/
structure Options where
  /-- The file of the request. -/
  request? : Option String := none
  alias? : Option String := none
  marker? : Option String := none
  separator? : Option String := none
  /-- The file of the settings. -/
  settings? : Option String := none
  debug : Bool := false
  deriving DecidableEq, Repr

/-- An option that takes a value. -/
inductive OptionName where
  | request
  | table
  | marker
  | separator
  | settings
  deriving DecidableEq, Repr

namespace OptionName

/-- The option of a letter. -/
def ofLetter? : Char → Option OptionName
  | 'r' => some request
  | 'a' => some table
  | 'p' => some marker
  | 's' => some separator
  | 'c' => some settings
  | _ => none

/-- The option of a word. -/
def ofWord? (word : String) : Option OptionName :=
  if word = "request" then some request
  else if word = "alias" then some table
  else if word = "prefix" then some marker
  else if word = "separator" then some separator
  else if word = "config" then some settings
  else none

end OptionName

namespace Options

/-- Sets what is not set yet. -/
def setOnce (current : Option String) (value : String) : Option (Option String) :=
  match current with
  | none => some (some value)
  | some _ => none

/-- Sets the name of a file, which may not be empty. -/
def setFile (current : Option String) (value : String) : Option (Option String) :=
  if value.isEmpty then none else setOnce current value

/-- Sets an option to a value. No option may be given twice. -/
def set (options : Options) (name : OptionName) (value : String) : Option Options :=
  match name with
  | .request => (setFile options.request? value).map ({ options with request? := · })
  | .table => (setOnce options.alias? value).map ({ options with alias? := · })
  | .marker => (setOnce options.marker? value).map ({ options with marker? := · })
  | .separator => (setOnce options.separator? value).map ({ options with separator? := · })
  | .settings => (setFile options.settings? value).map ({ options with settings? := · })

/-- Sets the flag of the detailed log. -/
def setDebug (options : Options) : Option Options :=
  if options.debug then none else some { options with debug := true }

/-- Whether an argument can be the value of the option before it. -/
def isValue (argument : String) : Bool :=
  argument == "-" || argument.toList.head? != some '-'

/-- What an argument asks for. -/
inductive Step where
  /-- Options that are complete. -/
  | done (options : Options)
  /-- Options that wait for the value of one more. -/
  | waiting (options : Options) (name : OptionName)

/-- Reads letters after one hyphen: flags, and at most one option, which takes the rest as its
value. -/
def readLetters (options : Options) : List Char → Option Step
  | [] => some (.done options)
  | 'd' :: letters => do readLetters (← options.setDebug) letters
  | letter :: rest => do
    let name ← OptionName.ofLetter? letter
    match rest with
    | [] => return .waiting options name
    | '=' :: value => return .done (← options.set name (String.ofList value))
    | value => return .done (← options.set name (String.ofList value))

/-- Reads a word after two hyphens, with or without a value. -/
def readWord (options : Options) (word : List Char) : Option Step :=
  match Text.cut? ['='] word with
  | some (word, value) => do
    let name ← OptionName.ofWord? (String.ofList word)
    return .done (← options.set name (String.ofList value))
  | none =>
    if String.ofList word = "debug" then options.setDebug.map .done
    else (OptionName.ofWord? (String.ofList word)).map (.waiting options)

/-- Reads one argument that no option waits for. -/
def readArgument (options : Options) (argument : String) : Option Step :=
  match argument.toList with
  | '-' :: '-' :: word => readWord options word
  | '-' :: letter :: letters => readLetters options (letter :: letters)
  | _ => none

/-- Reads arguments after options that are known already. -/
def readArguments (options : Options) : List String → Option Options
  | [] => some options
  | ["--"] => some options
  | [argument] =>
    match readArgument options argument with
    | some (.done options) => some options
    | _ => none
  | argument :: next :: rest =>
    match readArgument options argument with
    | some (.done options) => readArguments options (next :: rest)
    | some (.waiting options name) =>
      if isValue next then
        match options.set name next with
        | some options => readArguments options rest
        | none => none
      else none
    | none => none

/-- The options that arguments give, if their use is right. -/
def ofArguments? (arguments : List String) : Option Options := readArguments {} arguments

/-- The file of the request, unless it comes from the standard input. -/
def requestFile? (options : Options) : Option String :=
  options.request?.filter (· != "-")

end Options

/-! ## Outcomes -/

/-- How a call ends. -/
structure Outcome where
  exitCode : Nat
  output : String := ""
  error? : Option String := none
  deriving DecidableEq, Repr

/-- The outcome of a call with wrong arguments. -/
def Outcome.misuse : Outcome := ⟨2, "", none⟩

/-- The outcome of a call that fails. -/
def Outcome.failure (message : String) : Outcome := ⟨1, "", some message⟩

/-- The lines that show a response: projection, condition and ordering, as far as there are any, and
one line for each value. -/
def Response.lines (r : Response) : List String :=
  (r.select?.map ("SELECT " ++ ·)).toList ++ (r.condition?.map ("WHERE " ++ ·)).toList
    ++ (r.orderBy?.map ("ORDER BY " ++ ·)).toList
    ++ r.parameters.entries.map fun (index, value) =>
      "  " ++ toString index ++ " = " ++ value.text

namespace Options

/-- The settings of a call: defaults, then the file, then the options. `text?` is the text of the
file. -/
def loadSettings (options : Options) (text? : Option String) : Except String Settings := do
  let loaded ← match options.settings? with
    | none => .ok {}
    | some file => (Settings.load text?).mapError fun _ => "Failed to load config " ++ file
  let settings : Settings :=
    { marker := options.marker?.getD loaded.marker
      separator := options.separator?.getD loaded.separator }
  settings.check.mapError fun _ => "Invalid configuration"

/-- The response to the request of a call. `text?` is the text of the request. -/
def loadResponse (options : Options) (settings : Settings) (text? : Option String) :
    Except String Response := do
  let request ← (Request.load text?).mapError fun _ =>
    if options.requestFile?.isSome then "Failed to load request"
    else "Failed to read request from stdin"
  (request.compile settings options.alias?).mapError fun _ => "Failed to translate request"

/-- The outcome of a call, from the texts of its settings and its request. -/
def outcome (options : Options) (settingsText? requestText? : Option String) : Outcome :=
  let response := do
    let settings ← options.loadSettings settingsText?
    options.loadResponse settings requestText?
  match response with
  | .ok r => ⟨0, String.join (r.lines.map (· ++ "\n")), none⟩
  | .error message => .failure message

end Options

end EntityQuery
