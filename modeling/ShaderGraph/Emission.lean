import ShaderGraph.Shader.Sink
import ShaderGraph.TypeResolution

/-!
# Emission

What a node contributes to a shader. A node first finds the slots its kind designates; if one is
missing it contributes nothing and reports that slot. Otherwise it yields a `Fragment`, and its
output slots become readable under the expressions of `outputExpression`.
-/

namespace ShaderGraph

/-- A node lacks a slot that its kind designates. -/
structure NodeError where
  node : NodeId
  name : String
  slot : String
deriving DecidableEq

def NodeError.message (e : NodeError) : String :=
  "Invalid slot configuration on node " ++ e.name ++ ": missing slot " ++ e.slot

/-- The expressions by which output slots are read, with their types, the latest first. -/
structure VariableTable where
  entries : List ((NodeId × String) × (Expression × ConcreteType))

namespace VariableTable

def empty : VariableTable := ⟨[]⟩

def get? (t : VariableTable) (id : NodeId) (slot : String) : Option (Expression × ConcreteType) :=
  t.entries.lookup (id, slot)

def insert (t : VariableTable) (id : NodeId) (slot : String) (e : Expression)
    (type : ConcreteType) : VariableTable :=
  ⟨((id, slot), (e, type)) :: t.entries⟩

end VariableTable

/-- What one node contributes to the shader. -/
structure Fragment where
  statements : List Statement
  definition : Option FunctionDefinition
  property : Option (Property × Uniform)
  /-- Whether the mesh coordinates have to reach the fragment stage. -/
  meshUV : Bool
deriving DecidableEq

/-- Contributes nothing. -/
def Fragment.none : Fragment := ⟨[], .none, .none, false⟩

/-- The view of a pass that a node has while it is emitted. -/
structure Scope where
  graph : Graph
  node : Node
  mode : Mode
  types : TypeTable
  published : VariableTable

namespace Scope

section Slots

def missing (s : Scope) (slot : String) : NodeError := ⟨s.node.id, s.node.name, slot⟩

/-- The designated input slot of a name. -/
def requireInput (s : Scope) (name : String) : Except NodeError Slot :=
  match s.node.input? name with
  | some slot => .ok slot
  | none => .error (s.missing name)

/-- The designated output slot of a name. -/
def requireOutput (s : Scope) (name : String) : Except NodeError Slot :=
  match s.node.output? name with
  | some slot => .ok slot
  | none => .error (s.missing name)

/-- The expression that feeds an input slot, with its type. There is none if the slot is not
connected or the feeding node failed. -/
def feed? (s : Scope) (slot : Slot) : Option (Expression × ConcreteType) :=
  (s.graph.connectionInto s.node.id slot.name).bind fun c => s.published.get? c.fromNode c.fromSlot

def concreteType (s : Scope) (slot : Slot) : ConcreteType := s.types.concreteType s.node slot

/-- The value of an input slot at the slot's type: what feeds it, else the default. -/
def inputValue (s : Scope) (slot : Slot) (default : Binary32) : Expression :=
  match s.feed? slot with
  | some (e, source) => e.coerce source (s.concreteType slot)
  | none => .vectorLiteral [default] (s.concreteType slot)

end Slots

section Kinds

/-- The designated slots of a function node: its arguments, then its result. -/
def functionSlots (s : Scope) (f : MathFunction) : Except NodeError (List Slot × Slot) := do
  let inputs ← (NodeKind.argumentNames.take f.arity).mapM s.requireInput
  let output ← s.requireOutput NodeKind.resultName
  .ok (inputs, output)

/-- A call of the function, and its definition if the shading language lacks it. -/
def emitFunction (s : Scope) (f : MathFunction) : Except NodeError Fragment := do
  let (inputs, output) ← s.functionSlots f
  let result := s.concreteType output
  let arguments := List.zipWith s.inputValue inputs f.defaults
  .ok
    { statements := [.call result s.node.outputVariable f.callName arguments]
      definition := f.body?.map fun body => ⟨result, f.callName, inputs.map s.concreteType, body⟩
      property := none
      meshUV := false }

/-- A sample of the texture property, at the mesh coordinates if none are connected. -/
def emitTexture (s : Scope) (t : TextureSampler) : Except NodeError Fragment := do
  let uvSlot ← s.requireInput NodeKind.uvName
  let _ ← s.requireOutput NodeKind.sampleName
  let connected := (s.feed? uvSlot).isSome
  let uv := if connected then s.inputValue uvSlot .zero else .select (.read .meshUV) (.leading 2)
  let name := s.node.propertyName
  .ok
    { statements := [.sample s.node.outputVariable name uv (t.type == .bump)]
      definition := none
      property :=
        some (⟨name, s.node.name, .texture t.texture t.type, t.exposed⟩, ⟨.texture2D, name⟩)
      meshUV := !connected }

/-- The mesh coordinates need no statement of their own. -/
def emitUV (s : Scope) : Except NodeError Fragment := do
  let _ ← s.requireOutput NodeKind.uvName
  .ok { Fragment.none with meshUV := true }

/-- Whether a constant is a property rather than a literal. -/
def isProperty (s : Scope) (c : Constant) : Bool := c.exposed || s.mode == .preview

/-- The property that holds a constant: its components are finite, and a vector has four. -/
def constantProperty : ConstantValue → PropertyKind
  | .vector1 x => .float x.finite
  | .vector2 x y => .vector x.finite y.finite .zero .zero
  | .vector3 x y z => .vector x.finite y.finite z.finite .zero
  | .vector4 x y z w => .vector x.finite y.finite z.finite w.finite

/-- A property, or a variable that holds the literal. -/
def emitConstant (s : Scope) (c : Constant) : Except NodeError Fragment := do
  let _ ← s.requireOutput NodeKind.valueName
  let type := c.value.type
  let name := s.node.propertyName
  if s.isProperty c then
    .ok
      { Fragment.none with
        property := some (⟨name, s.node.name, constantProperty c.value, c.exposed⟩, ⟨type, name⟩) }
  else
    .ok
      { Fragment.none with
        statements :=
          [.define type s.node.outputVariable (.vectorLiteral c.value.components type)] }

/-- An assignment for each connected input; none in a preview. -/
def emitSurface (s : Scope) : Except NodeError Fragment := do
  let inputs ← (NodeKind.surfaceInputs.map (·.name)).mapM s.requireInput
  if s.mode == .preview then .ok Fragment.none
  else
    .ok
      { Fragment.none with
        statements := (inputs.filter fun slot => (s.feed? slot).isSome).map fun slot =>
          .assign slot.name (s.inputValue slot .zero) }

/-- What the node contributes, or the designated slot it lacks. -/
def emit (s : Scope) : Except NodeError Fragment :=
  match s.node.kind with
  | .function f => s.emitFunction f
  | .texture t => s.emitTexture t
  | .uv => s.emitUV
  | .constant c => s.emitConstant c
  | .surfaceOutput => s.emitSurface

/-- The channel of a texture sample that an output slot stands for, none for the whole sample. -/
def channel? (slot : String) : Option Selection :=
  if slot = "R" then some .red
  else if slot = "G" then some .green
  else if slot = "B" then some .blue
  else if slot = "A" then some .alpha
  else none

/-- The expression by which other nodes read an output slot. -/
def outputExpression (s : Scope) (slot : Slot) : Expression :=
  let whole := Expression.read (.output s.node.outputVariable)
  match s.node.kind with
  | .function _ | .surfaceOutput => whole
  | .texture _ =>
    match channel? slot.name with
    | some channel => .select whole channel
    | none => whole
  | .uv => .read .meshUV
  | .constant c => if s.isProperty c then .read (.property s.node.propertyName) else whole

end Kinds

/-- The table with the output slots of the node added. -/
def publish (s : Scope) : VariableTable :=
  s.node.outputs.foldl
    (fun t slot => t.insert s.node.id slot.name (s.outputExpression slot) (s.concreteType slot))
    s.published

end Scope

end ShaderGraph
