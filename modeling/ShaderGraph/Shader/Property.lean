import ShaderGraph.NodeKind
import ShaderGraph.Shader.Expression

/-!
# Material properties

A property is a value that a material can set without the shader being generated again. Its
declaration is a line of the `Properties` block, and its uniform is the variable that holds it.
-/

namespace ShaderGraph

/-- Kind and default value of a property. -/
inductive PropertyKind
  | texture (bound : Option String) (type : TextureType)
  | float (value : Binary32)
  | vector (x y z w : Binary32)
deriving DecidableEq

structure Property where
  name : String
  displayName : String
  kind : PropertyKind
  exposed : Bool
deriving DecidableEq

/-- The line that declares the property. -/
def Property.declaration (p : Property) : String :=
  let hidden := if p.exposed then "" else "[HideInInspector] "
  let label := p.name ++ "(\"" ++ p.displayName ++ "\", "
  match p.kind with
  | .texture _ type =>
    hidden ++ (if type = .bump then "[Normal] " else "") ++ label ++ "2D) = \"" ++
      type.defaultTexture ++ "\" \x7b\x7d"
  | .float value => hidden ++ label ++ "Float) = " ++ literalText value
  | .vector x y z w =>
    hidden ++ label ++ "Vector) = (" ++
      String.intercalate ", " ([x, y, z, w].map literalText) ++ ")"

/-- The variable that holds a property. -/
structure Uniform where
  type : ConcreteType
  name : String
deriving DecidableEq

def Uniform.text (p : Precision) (u : Uniform) : String := u.type.name p ++ " " ++ u.name ++ ";"

end ShaderGraph
