import ShaderGraph.CommandLine.Arguments
import ShaderGraph.Generation
import ShaderGraph.GraphDocument
import ShaderGraph.SettingsDocument

/-!
# Compiling from the command line

A run loads the settings and the graph, generates the shader and puts it out, and stops at the first
of these that fails. What it reads is given to it, and what it writes is its result. The log on
standard error has two origins: the pass that generates the shader traces each node that fails, and
the program then warns of the same nodes.

* `passRecords` : what a pass traces;
* `Invocation.run` : the report of a run, with every record it makes;
* `execute` : the report for given arguments, with the records that are shown.
-/

namespace ShaderGraph.CommandLine

/-- The name and version that the program gives of itself. -/
def versionLine : String := "ordoplay-matc 0.1.0\n"

/-- What the program prints when it is asked for help. -/
def usage : String :=
  "Usage: ordoplay-matc [OPTIONS] [GRAPH]\n\n" ++
    "  -c, --config <CONFIG>  generator configuration\n" ++
    "  -m, --mode <MODE>      surface or preview\n" ++
    "  -o, --output <OUTPUT>  write the shader here instead of stdout\n" ++
    "      --strict           fail when any node could not be emitted\n" ++
    "      --list-nodes       print the available node kinds and exit\n" ++
    "  -v, --verbose          verbose mode\n" ++
    "  -h, --help             print this text\n" ++
    "  -V, --version          print the version\n"

/-- The levels of the log. No run shows finer ones. -/
inductive LogLevel
  | debug
  | info
  | warn
  | error
deriving DecidableEq

def LogLevel.label : LogLevel → String
  | debug => "DEBUG"
  | info => "INFO"
  | warn => "WARN"
  | error => "ERROR"

/-- Whether a run shows the records of a level, where the environment sets no filter of its own. -/
def LogLevel.shown (verbose : Bool) : LogLevel → Bool
  | debug => verbose
  | info | warn | error => true

/-- Who makes a record: the pass that generates the shader, or the program around it. -/
inductive LogOrigin
  | pass
  | program
deriving DecidableEq

/-- A line of the log. The fields come after the message. -/
structure LogRecord where
  origin : LogOrigin
  level : LogLevel
  message : String
  fields : List (String × String)
deriving DecidableEq

/-- A character as the log shows it: the controls that could steer a terminal are written as
escapes. -/
def shownCharacter (c : Char) : List Char :=
  if ['\x07', '\x08', '\x0c', '\x1b', '\x7f'].contains c then
    '\\' :: 'x' :: (Nat.toDigits 16 c.toNat).leftpad 2 '0'
  else if 0x80 ≤ c.toNat ∧ c.toNat < 0xa0 then
    '\\' :: 'u' :: '\x7b' :: (Nat.toDigits 16 c.toNat ++ ['\x7d'])
  else [c]

/-- The message as the log shows it. -/
def LogRecord.text (r : LogRecord) : String :=
  String.ofList (r.message.toList.flatMap shownCharacter)

/-- The line of a record, without the time and the place of its origin. -/
def LogRecord.line (r : LogRecord) : String :=
  r.level.label ++ " " ++ r.text ++ String.join (r.fields.map fun f => " " ++ f.1 ++ "=" ++ f.2)

/-- The first stage that failed, with the reason. -/
inductive Failure
  | settings (e : SettingsLoadError)
  | graph (e : GraphLoadError)
  | generation (e : GenerationError)
  | nodes (count : Nat)
  | output (path : String)
  | noGraph
deriving DecidableEq

/-- The message, without the details that the file system adds. -/
def Failure.message : Failure → String
  | settings e => "Failed to load configuration: " ++ e.message
  | graph e => "Failed to load graph: " ++ e.message
  | generation e => "Generation failed: " ++ e.message
  | nodes count => toString count ++ " node(s) could not be emitted"
  | output path => "Failed to write " ++ path ++ ":"
  | noGraph => "No graph document given"

/-- The files a run meets: the text of those that can be read, and which can be written. -/
structure Files where
  read : String → Option String
  writable : String → Bool

/-- The records of an origin. -/
def ofOrigin (origin : LogOrigin) (records : List LogRecord) : List LogRecord :=
  records.filter (·.origin = origin)

/-- What a run did. -/
structure Report where
  exitCode : Nat
  stdout : String
  /-- The path and text of the file written. -/
  written : Option (String × String)
  /-- The log, of either origin. -/
  stderr : List LogRecord

/-- What the program itself logs. -/
def Report.log (r : Report) : List LogRecord := ofOrigin .program r.stderr

/-- The report with the records that are shown. -/
def Report.shown (verbose : Bool) (r : Report) : Report :=
  { r with stderr := r.stderr.filter (·.level.shown verbose) }

section Listing

/-- A text filled with spaces up to a width. -/
def column (width : Nat) (s : String) : String :=
  s ++ String.ofList (List.replicate (width - s.length) ' ')

def slotEntry (s : Slot) : String :=
  s.name ++ " " ++ s.direction.label ++ " " ++ s.type.label

/-- The line of a node kind: category, name and slots. -/
def kindLine (k : NodeKind) : String :=
  column 8 k.category.label ++ " " ++ column 16 k.displayName ++ " " ++
    String.intercalate ", " (k.requiredSlots.map slotEntry) ++ "\n"

/-- The lines of all node kinds. -/
def listing : String := String.join (NodeKind.catalogue.map kindLine)

end Listing

section Stages

/-- The settings of a path, the standard ones if there is none. -/
def loadSettings (files : Files) : Option String → Except Failure Settings
  | none => .ok .standard
  | some path =>
    match files.read path with
    | none => .error (.settings .unreadable)
    | some text =>
      match Settings.ofDocument text with
      | .error e => .error (.settings e)
      | .ok s => .ok s

/-- The graph of a path. -/
def loadGraph (files : Files) (path : String) : Except Failure Graph :=
  match files.read path with
  | none => .error (.graph .unreadable)
  | some text =>
    match Graph.ofDocument text with
    | .error e => .error (.graph e)
    | .ok g => .ok g

/-- What a pass traces of a node as it fails, with the name that the error has from the node. -/
def tracedRecord (e : NodeError) : LogRecord := ⟨.pass, .warn, e.message, [("node", e.name)]⟩

/-- What a pass traces at its end. -/
def summaryRecord (g : Graph) (mode : Mode) (s : Shader) : LogRecord :=
  ⟨.pass, .debug, "Generated shader",
    [("graph", g.name), ("nodes", toString g.nodeCount), ("failed", toString s.errors.length),
      ("properties", toString s.properties.length), ("mode", mode.label)]⟩

/-- What the pass that yields a shader traces. A pass that yields none stops before its first
node and traces nothing. -/
def passRecords (g : Graph) (mode : Mode) (s : Shader) : List LogRecord :=
  s.errors.map tracedRecord ++ [summaryRecord g mode s]

def compilingRecord (g : Graph) : LogRecord :=
  ⟨.program, .info, "Compiling " ++ g.name ++ " (" ++ toString g.nodeCount ++ " nodes, " ++
    toString g.connectionCount ++ " connections)", []⟩

/-- What the program logs of a failed node once the pass is done. -/
def nodeRecord (e : NodeError) : LogRecord := ⟨.program, .warn, e.message, []⟩

def writtenRecord (path : String) (s : Shader) : LogRecord :=
  ⟨.program, .info, "Wrote " ++ path ++ " (" ++ toString s.properties.length ++ " properties)", []⟩

def failureRecord (f : Failure) : LogRecord := ⟨.program, .error, f.message, []⟩

/-- The records of a run up to the shader. -/
def shaderRecords (g : Graph) (mode : Mode) (s : Shader) : List LogRecord :=
  compilingRecord g :: (passRecords g mode s ++ s.errors.map nodeRecord)

/-- A run that failed after some records. -/
def failed (records : List LogRecord) (f : Failure) : Report :=
  ⟨1, "", none, records ++ [failureRecord f]⟩

/-- Put out a shader, to a file if a path is given. -/
def putOut (files : Files) (records : List LogRecord) (s : Shader) : Option String → Report
  | none => ⟨0, s.source, none, records⟩
  | some path =>
    if files.writable path then ⟨0, "", some (path, s.source), records ++ [writtenRecord path s]⟩
    else failed records (.output path)

/-- Generate the shader of a loaded graph and put it out. A strict run fails if any node did. -/
def compile (files : Files) (i : Invocation) (settings : Settings) (g : Graph) : Report :=
  match generate g (i.mode.getD .surface) settings with
  | .error e => failed [compilingRecord g] (.generation e)
  | .ok s =>
    let records := shaderRecords g (i.mode.getD .surface) s
    if i.strict ∧ !s.isClean then failed records (.nodes s.errors.length)
    else putOut files records s i.output

/-- Run an invocation. -/
def Invocation.run (files : Files) (i : Invocation) : Report :=
  if i.listNodes then ⟨0, listing, none, []⟩
  else
    match i.graph with
    | none => failed [] .noGraph
    | some path =>
      match loadSettings files i.settings with
      | .error f => failed [] f
      | .ok settings =>
        match loadGraph files path with
        | .error f => failed [] f
        | .ok g => compile files i settings g

end Stages

/-- Run what the arguments ask for. -/
def execute (files : Files) (arguments : List String) : Report :=
  match Request.ofArguments arguments with
  | .run i => (i.run files).shown i.verbose
  | .version => ⟨0, versionLine, none, []⟩
  | .help => ⟨0, usage, none, []⟩
  | .wrongUsage => ⟨2, "", none, []⟩

end ShaderGraph.CommandLine
