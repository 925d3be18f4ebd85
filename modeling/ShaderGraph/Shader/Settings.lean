import ShaderGraph.ValueType

/-!
# Generation settings

Settings of a whole generation pass, and the two uses a shader is generated for.
-/

namespace ShaderGraph

/-- The newest version of a settings document. -/
def settingsVersion : Nat := 1

/-- Settings that apply to a whole pass. -/
structure Settings where
  version : Nat
  shaderName : String
  precision : Precision
  maxNodes : Nat
deriving DecidableEq

/-- The settings used where none are given, and for each field that a document leaves out. -/
def Settings.standard : Settings := ⟨settingsVersion, "OrdoPlay/Material", .half, 4096⟩

/-- What a shader is generated for. In a preview every constant is a material property, and the
surface output assigns nothing. -/
inductive Mode
  | surface
  | preview
deriving DecidableEq

/-- The name of a use in the log. -/
def Mode.label : Mode → String
  | surface => "SurfaceShader"
  | preview => "Preview"

end ShaderGraph
