import ShaderGraph.CommandLine

/-!
# The program

Reads the files that the arguments name, runs, and puts out the report.
-/

namespace ShaderGraph.CommandLine

/-- The text of a file, if it can be read. -/
def readText? (path : Option String) : IO (Option String) :=
  match path with
  | none => pure none
  | some path =>
    try
      let text ← IO.FS.readFile path
      pure (some text)
    catch _ => pure none

/-- The paths of the documents that the arguments name. -/
def documentPaths (arguments : List String) : Option String × Option String :=
  match Request.ofArguments arguments with
  | .run i => (i.graph, i.settings)
  | _ => (none, none)

/-- Write the file of a report, if there is one; tells whether that succeeded. -/
def writeFile (report : Report) : IO Bool :=
  match report.written with
  | none => pure true
  | some (path, text) =>
    try
      IO.FS.writeFile path text
      pure true
    catch _ => pure false

end ShaderGraph.CommandLine

open ShaderGraph.CommandLine

def main (arguments : List String) : IO UInt32 := do
  let (graph, settings) := documentPaths arguments
  let graphText ← readText? graph
  let settingsText ← readText? settings
  let read (path : String) : Option String :=
    if graph = some path then graphText else if settings = some path then settingsText else none
  let hoped := execute ⟨read, fun _ => true⟩ arguments
  let succeeded ← writeFile hoped
  let report := if succeeded then hoped else execute ⟨read, fun _ => false⟩ arguments
  for record in report.stderr do
    IO.eprintln record.line
  IO.print report.stdout
  pure report.exitCode.toUInt32
