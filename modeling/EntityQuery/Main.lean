import EntityQuery.CommandLine

/-!
# The program

Reads what the options of a call name, and prints its outcome.
-/

namespace EntityQuery

/-- The text of a file, if there is one. -/
def readFile? (name : String) : IO (Option String) := do
  try
    let data ← IO.FS.readBinFile name
    return Document.text? data.toList
  catch _ => return none

/-- The rest of a stream. -/
partial def readRest (stream : IO.FS.Stream) (read : ByteArray) : IO ByteArray := do
  let chunk ← stream.read 65536
  if chunk.isEmpty then return read else readRest stream (read ++ chunk)

/-- The text of the standard input. -/
def readInput? : IO (Option String) := do
  let data ← readRest (← IO.getStdin) ByteArray.empty
  return Document.text? data.toList

/-- The texts of the settings and of the request that the options name. -/
def Options.readTexts (options : Options) : IO (Option String × Option String) := do
  let settings ← match options.settings? with
    | some name => readFile? name
    | none => pure none
  let request ← match options.requestFile? with
    | some name => readFile? name
    | none => readInput?
  return (settings, request)

/-- Ends a call: its output, its error, and its exit code. -/
def Outcome.finish (outcome : Outcome) : IO UInt32 := do
  IO.print outcome.output
  match outcome.error? with
  | some message => IO.eprintln ("Error: " ++ message)
  | none => pure ()
  return outcome.exitCode.toUInt32

end EntityQuery

open EntityQuery in
/-- The program: the outcome of the call with the given arguments. -/
def main (arguments : List String) : IO UInt32 := do
  match Options.ofArguments? arguments with
  | none => Outcome.misuse.finish
  | some options =>
    let (settings, request) ← options.readTexts
    (options.outcome settings request).finish
