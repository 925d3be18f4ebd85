import ShaderGraph.Binary32.Shortest
import ShaderGraph.ValueType

/-!
# Shader expressions and statements

What nodes emit is kept as data and becomes text last. An expression reads a variable, a property or
the mesh coordinates, writes a literal, or adapts another expression to a width; a statement
declares the variable of a node or assigns a member of the surface. `coerce` and `vectorLiteral`
build the expressions of input slots.
-/

namespace ShaderGraph

/-- A name that can be read in the fragment stage. -/
inductive Reference
  /-- The output variable of a node. -/
  | output (name : String)
  /-- The material property of this name. -/
  | property (name : String)
  /-- The mesh coordinates carried by the interpolator. -/
  | meshUV
deriving DecidableEq

def Reference.text : Reference → String
  | output name => name
  | property name => name
  | meshUV => "IN.meshUV0"

/-- The components picked out of a vector. -/
inductive Selection
  | red
  | green
  | blue
  | alpha
  /-- The first components, at most four. -/
  | leading (count : Nat)
deriving DecidableEq

def Selection.text : Selection → String
  | red => "r"
  | green => "g"
  | blue => "b"
  | alpha => "a"
  | leading count => String.ofList (['x', 'y', 'z', 'w'].take count)

inductive Expression
  /-- Reads a name. -/
  | read (r : Reference)
  /-- A single number. -/
  | scalar (x : Binary32)
  /-- A vector of numbers. -/
  | vector (type : ConcreteType) (components : List Binary32)
  /-- Some components of a vector. -/
  | select (e : Expression) (s : Selection)
  /-- A scalar repeated in every component. -/
  | splat (type : ConcreteType) (e : Expression)
  /-- A vector followed by zeros. -/
  | pad (type : ConcreteType) (e : Expression) (zeros : Nat)
deriving DecidableEq

/-- The text of a number in a shader. -/
def literalText (x : Binary32) : String := String.ofList x.text

/-- A vector built from parts. -/
def constructText (p : Precision) (type : ConcreteType) (parts : List String) : String :=
  type.name p ++ "(" ++ String.intercalate ", " parts ++ ")"

namespace Expression

def text (p : Precision) : Expression → String
  | read r => r.text
  | scalar x => literalText x
  | vector type components => constructText p type (components.map literalText)
  | select e s => e.text p ++ "." ++ s.text
  | splat type e => constructText p type (List.replicate type.components (e.text p))
  | pad type e zeros => constructText p type (e.text p :: List.replicate zeros "0")

/-- Adapt an expression of one type to another: a narrower vector takes the first components, a
scalar is repeated and a wider vector is filled with zeros. Samplers stay as they are. -/
def coerce (e : Expression) (source target : ConcreteType) : Expression :=
  if source = target ∨ !source.isVector ∨ !target.isVector then e
  else if target.components < source.components then select e (.leading target.components)
  else if source.components = 1 then splat target e
  else pad target e (target.components - source.components)

/-- The literal of a type whose components are `values`, the last one repeated as often as needed
and each clamped to a finite number. -/
def vectorLiteral (values : List Binary32) (type : ConcreteType) : Expression :=
  let component (i : Nat) : Binary32 := ((values[i]?.or values.getLast?).getD .zero).finite
  if type.components ≤ 1 then scalar (component 0)
  else vector type ((List.range type.components).map component)

end Expression

/-- A statement of the fragment stage. -/
inductive Statement
  /-- Declares a variable with the value of an expression. -/
  | define (type : ConcreteType) (name : String) (value : Expression)
  /-- Declares a variable with the result of a function. -/
  | call (type : ConcreteType) (name function : String) (arguments : List Expression)
  /-- Declares a variable with a texture sample, unpacked if the texture holds normals. -/
  | sample (name texture : String) (uv : Expression) (unpack : Bool)
  /-- Assigns a member of the surface. -/
  | assign (member : String) (value : Expression)
deriving DecidableEq

def Statement.text (p : Precision) : Statement → String
  | define type name value => type.name p ++ " " ++ name ++ " = " ++ value.text p ++ ";"
  | call type name function arguments =>
    type.name p ++ " " ++ name ++ " = " ++ function ++ "(" ++
      String.intercalate ", " (arguments.map (·.text p)) ++ ");"
  | sample name texture uv unpack =>
    let sample := "tex2D(" ++ texture ++ ", " ++ uv.text p ++ ")"
    let vector := ConcreteType.vector4.name p
    vector ++ " " ++ name ++ " = " ++
      (if unpack then vector ++ "(UnpackNormal(" ++ sample ++ "), 0)" else sample) ++ ";"
  | assign member value => "o." ++ member ++ " = " ++ value.text p ++ ";"

/-- The definition of a function that the shading language lacks. -/
structure FunctionDefinition where
  result : ConcreteType
  name : String
  parameters : List ConcreteType
  body : String
deriving DecidableEq

/-- The head of the definition, its parameters named by their place from one. -/
def FunctionDefinition.head (p : Precision) (d : FunctionDefinition) : String :=
  let parameters := d.parameters.mapIdx fun i t => t.name p ++ " arg" ++ toString (i + 1)
  "inline " ++ d.result.name p ++ " " ++ d.name ++ "(" ++ String.intercalate ", " parameters ++ ")"

def FunctionDefinition.text (p : Precision) (d : FunctionDefinition) : String :=
  d.head p ++ "\n\x7b\n\t" ++ d.body ++ "\n\x7d"

end ShaderGraph
