import ShaderGraph.Shader.Settings

/-!
# Command line arguments

The arguments name a graph document and how to compile it. They are read from left to right, and the
first argument that is wrong or asks for the version or for help decides.

* `Request.ofArguments` : what the arguments ask for.
-/

namespace ShaderGraph.CommandLine

/-- How a graph is to be compiled. -/
structure Invocation where
  graph : Option String
  settings : Option String
  mode : Option Mode
  output : Option String
  strict : Bool
  listNodes : Bool
  verbose : Bool
deriving DecidableEq

def Invocation.empty : Invocation := ⟨none, none, none, none, false, false, false⟩

/-- What the arguments ask for. -/
inductive Request
  | run (i : Invocation)
  | version
  | help
  | wrongUsage
deriving DecidableEq

/-- The options that take a value. -/
inductive ValueOption
  | settings
  | mode
  | output

/-- The options without a value. -/
inductive Switch
  | strict
  | listNodes
  | verbose
  | version
  | help

def longValue? : String → Option ValueOption
  | "config" => some .settings
  | "mode" => some .mode
  | "output" => some .output
  | _ => none

def shortValue? : Char → Option ValueOption
  | 'c' => some .settings
  | 'm' => some .mode
  | 'o' => some .output
  | _ => none

def longSwitch? : String → Option Switch
  | "strict" => some .strict
  | "list-nodes" => some .listNodes
  | "verbose" => some .verbose
  | "version" => some .version
  | "help" => some .help
  | _ => none

def shortSwitch? : Char → Option Switch
  | 'v' => some .verbose
  | 'V' => some .version
  | 'h' => some .help
  | _ => none

def mode? : String → Option Mode
  | "surface" => some .surface
  | "preview" => some .preview
  | _ => none

namespace Invocation

/-- Give an option its value; a path is not empty, and no option is given twice. -/
def setValue (i : Invocation) (o : ValueOption) (value : String) : Except Request Invocation :=
  match o with
  | .settings =>
    if i.settings.isSome ∨ value.isEmpty then .error .wrongUsage
    else .ok { i with settings := some value }
  | .output =>
    if i.output.isSome ∨ value.isEmpty then .error .wrongUsage
    else .ok { i with output := some value }
  | .mode =>
    match mode? value with
    | some m => if i.mode.isSome then .error .wrongUsage else .ok { i with mode := some m }
    | none => .error .wrongUsage

/-- Turn a switch on, which is not on yet. -/
def setSwitch (i : Invocation) : Switch → Except Request Invocation
  | .strict => if i.strict then .error .wrongUsage else .ok { i with strict := true }
  | .listNodes => if i.listNodes then .error .wrongUsage else .ok { i with listNodes := true }
  | .verbose => if i.verbose then .error .wrongUsage else .ok { i with verbose := true }
  | .version => .error .version
  | .help => .error .help

/-- Take the one argument that is no option: the path of the graph document. -/
def setGraph (i : Invocation) (path : String) : Except Request Invocation :=
  if i.graph.isSome ∨ path.isEmpty then .error .wrongUsage else .ok { i with graph := some path }

end Invocation

/-- What a one-letter cluster leaves to do. -/
inductive Cluster
  | done (i : Invocation)
  /-- The last letter takes the next argument as its value. -/
  | expectsValue (i : Invocation) (o : ValueOption)

/-- Read the letters after one hyphen. A letter that takes a value takes the rest of the letters,
without an equals sign before them, or the next argument if there are none. -/
def readCluster (i : Invocation) : List Char → Except Request Cluster
  | [] => .ok (.done i)
  | c :: rest =>
    match shortValue? c with
    | some o =>
      match rest with
      | [] => .ok (.expectsValue i o)
      | '=' :: value => (i.setValue o (String.ofList value)).map .done
      | value => (i.setValue o (String.ofList value)).map .done
    | none =>
      match shortSwitch? c with
      | some s =>
        match i.setSwitch s with
        | .error e => .error e
        | .ok i => readCluster i rest
      | none => .error .wrongUsage

/-- Whether an argument is an option rather than a value; a lone hyphen is a value. -/
def isOption (argument : String) : Bool :=
  match argument.toList with
  | '-' :: _ :: _ => true
  | _ => false

/-- Read the arguments after those that gave `i`. -/
def readArguments (i : Invocation) : List String → Except Request Invocation
  | [] => .ok i
  | argument :: rest =>
    match argument.toList with
    | ['-', '-'] => rest.foldlM Invocation.setGraph i
    | '-' :: '-' :: option =>
      let (name, value) := option.span (· ≠ '=')
      let name := String.ofList name
      match longValue? name, value with
      | some o, _ :: value =>
        match i.setValue o (String.ofList value) with
        | .error e => .error e
        | .ok i => readArguments i rest
      | some o, [] =>
        match rest with
        | [] => .error .wrongUsage
        | value :: rest =>
          if isOption value then .error .wrongUsage
          else
            match i.setValue o value with
            | .error e => .error e
            | .ok i => readArguments i rest
      | none, [] =>
        match longSwitch? name with
        | none => .error .wrongUsage
        | some s =>
          match i.setSwitch s with
          | .error e => .error e
          | .ok i => readArguments i rest
      | none, _ :: _ => .error .wrongUsage
    | '-' :: c :: letters =>
      match readCluster i (c :: letters) with
      | .error e => .error e
      | .ok (.done i) => readArguments i rest
      | .ok (.expectsValue i o) =>
        match rest with
        | [] => .error .wrongUsage
        | value :: rest =>
          if isOption value then .error .wrongUsage
          else
            match i.setValue o value with
            | .error e => .error e
            | .ok i => readArguments i rest
    | _ =>
      match i.setGraph argument with
      | .error e => .error e
      | .ok i => readArguments i rest

/-- What the arguments ask for. A graph is needed unless the node kinds are to be listed. -/
def Request.ofArguments (arguments : List String) : Request :=
  match readArguments .empty arguments with
  | .error request => request
  | .ok i => if i.graph.isNone ∧ !i.listNodes then .wrongUsage else .run i

end ShaderGraph.CommandLine
