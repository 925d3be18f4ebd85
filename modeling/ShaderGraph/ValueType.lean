/-!
# Value types

The precision keyword of a shader, the concrete types a value can have, and the types a slot may
declare: a concrete type, or `dynamic` when the width is decided by what is connected.
-/

namespace ShaderGraph

/-- Floating point precision of every vector type in a shader. -/
inductive Precision
  | half
  | float
  | fixed
deriving DecidableEq

/-- The shading-language keyword. -/
def Precision.token : Precision → String
  | .half => "half"
  | .float => "float"
  | .fixed => "fixed"

/-- The name of the precision in documents. -/
def Precision.label : Precision → String
  | .half => "Half"
  | .float => "Float"
  | .fixed => "Fixed"

def Precision.all : List Precision := [.half, .float, .fixed]

/-- A type a value can have: a vector of one to four components, or a texture sampler. -/
inductive ConcreteType
  | vector1
  | vector2
  | vector3
  | vector4
  | texture2D
deriving DecidableEq

namespace ConcreteType

/-- The name of the type in documents and listings. -/
def label : ConcreteType → String
  | vector1 => "Vector1"
  | vector2 => "Vector2"
  | vector3 => "Vector3"
  | vector4 => "Vector4"
  | texture2D => "Texture2D"

def all : List ConcreteType := [vector1, vector2, vector3, vector4, texture2D]

/-- Number of vector components, zero for samplers. -/
def components : ConcreteType → Nat
  | vector1 => 1
  | vector2 => 2
  | vector3 => 3
  | vector4 => 4
  | texture2D => 0

/-- The vector type with the given number of components, clamped to one to four. -/
def ofComponents : Nat → ConcreteType
  | 0 | 1 => vector1
  | 2 => vector2
  | 3 => vector3
  | _ => vector4

def isVector (t : ConcreteType) : Bool := t != texture2D

/-- Place in the order of types: vectors by width, samplers last. -/
def rank : ConcreteType → Nat
  | vector1 => 0
  | vector2 => 1
  | vector3 => 2
  | vector4 => 3
  | texture2D => 4

/-- The later of two types in their order. -/
def max (a b : ConcreteType) : ConcreteType := if a.rank ≤ b.rank then b else a

/-- The last type of a list in their order. -/
def maximum? : List ConcreteType → Option ConcreteType
  | [] => none
  | t :: rest => some (rest.foldl max t)

/-- What follows the precision keyword in the name of the type. -/
def dimension : ConcreteType → String
  | vector1 | texture2D => ""
  | vector2 => "2"
  | vector3 => "3"
  | vector4 => "4"

/-- The shading-language name of the type, such as `half3` or `sampler2D`. -/
def name (t : ConcreteType) (p : Precision) : String :=
  if t.isVector then p.token ++ t.dimension else "sampler2D"

end ConcreteType

/-- The type a slot declares. -/
inductive SlotType
  | fixed (type : ConcreteType)
  | dynamic
deriving DecidableEq

namespace SlotType

/-- The name of the type in documents and listings. -/
def label : SlotType → String
  | fixed t => t.label
  | dynamic => "Dynamic"

def all : List SlotType := ConcreteType.all.map fixed ++ [dynamic]

def isDynamic (t : SlotType) : Bool := t == dynamic

/-- The declared concrete type, none for a dynamic slot. -/
def concrete? : SlotType → Option ConcreteType
  | fixed t => some t
  | dynamic => none

/-- Whether the slot holds a sampler. -/
def isTexture (t : SlotType) : Bool := t == fixed .texture2D

/-- Samplers feed samplers only; vectors of all widths, dynamic ones too, feed each other. -/
def canFeed (output input : SlotType) : Bool := output.isTexture == input.isTexture

end SlotType

end ShaderGraph
