import ShaderGraph.MathFunction
import ShaderGraph.Slot

/-!
# Node kinds

What a node computes, with the settings of that kind, and for each kind the slots it requires, the
name shown to people, the start of its variable names and its menu category.
-/

namespace ShaderGraph

/-- How a sampled texture is read, and the built-in texture used when none is bound. -/
inductive TextureType
  | white
  | gray
  | black
  | bump
deriving DecidableEq

/-- The name of the texture type in documents. -/
def TextureType.label : TextureType → String
  | .white => "White"
  | .gray => "Gray"
  | .black => "Black"
  | .bump => "Bump"

def TextureType.all : List TextureType := [.white, .gray, .black, .bump]

/-- The built-in texture named as the default of a texture property. -/
def TextureType.defaultTexture : TextureType → String
  | .white => "white"
  | .gray => "gray"
  | .black => "black"
  | .bump => "bump"

/-- Settings of a texture sampler node. The texture is a handle of the host. -/
structure TextureSampler where
  texture : Option String
  type : TextureType
  exposed : Bool
deriving DecidableEq

/-- No texture bound, read as white, shown in inspectors. -/
def TextureSampler.unbound : TextureSampler := ⟨none, .white, true⟩

/-- The value of a constant node. -/
inductive ConstantValue
  | vector1 (x : Binary32)
  | vector2 (x y : Binary32)
  | vector3 (x y z : Binary32)
  | vector4 (x y z w : Binary32)
deriving DecidableEq

namespace ConstantValue

def components : ConstantValue → List Binary32
  | vector1 x => [x]
  | vector2 x y => [x, y]
  | vector3 x y z => [x, y, z]
  | vector4 x y z w => [x, y, z, w]

def type : ConstantValue → ConcreteType
  | vector1 .. => .vector1
  | vector2 .. => .vector2
  | vector3 .. => .vector3
  | vector4 .. => .vector4

def displayName : ConstantValue → String
  | vector1 .. => "Vector 1"
  | vector2 .. => "Vector 2"
  | vector3 .. => "Vector 3"
  | vector4 .. => "Vector 4"

def slug : ConstantValue → String
  | vector1 .. => "vector1"
  | vector2 .. => "vector2"
  | vector3 .. => "vector3"
  | vector4 .. => "vector4"

end ConstantValue

/-- Settings of a constant node. An exposed constant is a material property. -/
structure Constant where
  value : ConstantValue
  exposed : Bool
deriving DecidableEq

/-- What a node computes. -/
inductive NodeKind
  | function (f : MathFunction)
  | texture (sampler : TextureSampler)
  | uv
  | constant (c : Constant)
  | surfaceOutput
deriving DecidableEq

/-- Section of the node menu. -/
inductive NodeCategory
  | input
  | output
  | math
  | texture
deriving DecidableEq

/-- The name of the category in listings. -/
def NodeCategory.label : NodeCategory → String
  | .input => "Input"
  | .output => "Output"
  | .math => "Math"
  | .texture => "Texture"

namespace NodeKind

/-- Names of the arguments of a function node; a function takes the first ones. -/
def argumentNames : List String := ["Input1", "Input2", "Input3"]

/-- Name of the result of a function node. -/
def resultName : String := "Output"

/-- Names of the texture coordinates, of a texture's input and of the mesh's output. -/
def uvName : String := "UV"

/-- Name of the whole sample of a texture node. -/
def sampleName : String := "RGBA"

/-- Name of the value of a constant node. -/
def valueName : String := "Value"

/-- Inputs of the surface output, in the order of its assignments. -/
def surfaceInputs : List Slot :=
  [.fixedInput "Albedo" .vector3, .fixedInput "Normal" .vector3, .fixedInput "Emission" .vector3,
    .fixedInput "Metallic" .vector1, .fixedInput "Smoothness" .vector1,
    .fixedInput "Occlusion" .vector1, .fixedInput "Alpha" .vector1]

/-- The slots the kind requires with its present settings, names distinct. -/
def requiredSlots : NodeKind → List Slot
  | function f =>
    (argumentNames.take f.arity).map (⟨·, .input, .dynamic⟩) ++
      [⟨resultName, .output, f.resultType⟩]
  | texture _ =>
    [.fixedOutput sampleName .vector4, .fixedOutput "R" .vector1, .fixedOutput "G" .vector1,
      .fixedOutput "B" .vector1, .fixedOutput "A" .vector1, .fixedInput uvName .vector2]
  | uv => [.fixedOutput uvName .vector4]
  | constant c => [.fixedOutput valueName c.value.type]
  | surfaceOutput => surfaceInputs

/-- The name given to a new node. -/
def displayName : NodeKind → String
  | function f => f.displayName
  | texture _ => "Texture"
  | uv => "UV"
  | constant c => c.value.displayName
  | surfaceOutput => "Surface Output"

/-- The start of the variable names of a node. -/
def slug : NodeKind → String
  | function f => f.slug
  | texture _ => "texture"
  | uv => "uv"
  | constant c => c.value.slug
  | surfaceOutput => "surface"

def category : NodeKind → NodeCategory
  | function _ => .math
  | texture _ => .texture
  | uv | constant _ => .input
  | surfaceOutput => .output

/-- One node kind of each sort, with default settings, in menu order. -/
def catalogue : List NodeKind :=
  [uv, constant ⟨.vector1 .zero, false⟩, constant ⟨.vector4 .zero .zero .zero .zero, false⟩,
    texture .unbound] ++ MathFunction.all.map function ++ [surfaceOutput]

end NodeKind

end ShaderGraph
