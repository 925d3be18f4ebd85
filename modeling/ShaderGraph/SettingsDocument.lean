import ShaderGraph.Document.Choice
import ShaderGraph.Shader.Settings

/-!
# Settings documents

Settings are saved as a document and loaded back from one, in which every field may be left out.
-/

namespace ShaderGraph

open Document

def settingsShape : Shape :=
  .record "GeneratorConfig" <|
    .optional "version" word32 (.natural settingsVersion) <|
    .optional "shader_name" anyText (.text Settings.standard.shaderName) <|
    .optional "precision" (symbolShape Precision.all (·.label))
      (.symbol Settings.standard.precision.label) <|
    .optional "max_nodes" (.natural 0xffffffffffffffff) (.natural Settings.standard.maxNodes) .nil

/-- Why settings cannot be loaded. -/
inductive SettingsLoadError
  /-- The file cannot be read. -/
  | unreadable
  | unparsable (e : ReadError)
  | unsupportedVersion (found : Nat)
deriving DecidableEq

/-- The message, without the details that the file system or the reader add. -/
def SettingsLoadError.message : SettingsLoadError → String
  | unreadable => "I/O error:"
  | unparsable _ => "Invalid configuration:"
  | unsupportedVersion found =>
    "Configuration version " ++ toString found ++ " is newer than supported version " ++
      toString settingsVersion

namespace Settings

def toValue (s : Settings) : Value :=
  .record "GeneratorConfig"
    [("version", .natural s.version), ("shader_name", .text s.shaderName),
      ("precision", .symbol s.precision.label), ("max_nodes", .natural s.maxNodes)]

def ofValue? : Value → Option Settings
  | .record _ [(_, .natural version), (_, .text shaderName), (_, precision),
      (_, .natural maxNodes)] => do
    let precision ← ofSymbol? Precision.all (·.label) precision
    some ⟨version, shaderName, precision, maxNodes⟩
  | _ => none

/-- The document of the settings. -/
def toDocument (s : Settings) : String := s.toValue.document

/-- The settings of a document, of a supported version. -/
def ofDocument (document : String) : Except SettingsLoadError Settings :=
  match readDocument settingsShape document with
  | .error e => .error (.unparsable e)
  | .ok v =>
    match ofValue? v with
    | none => .error (.unparsable .malformed)
    | some s =>
      if settingsVersion < s.version then .error (.unsupportedVersion s.version) else .ok s

end Settings

end ShaderGraph
