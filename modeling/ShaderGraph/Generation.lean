import ShaderGraph.Emission
import ShaderGraph.Graph.Order

/-!
# Shader generation

A pass goes through the nodes in dependency order. Each either fails or yields a fragment
(`outcomes`), and the fragments fill the sections of the shader (`Sink.addFragment`). A failed node
does not stop the pass; a cycle or an oversized graph does.

* `runPass` : the outcomes and the sections of a pass;
* `generate` : the shader assembled from them.
-/

namespace ShaderGraph

/-- Why a pass yields no shader. -/
inductive GenerationError
  | cycle (e : CycleError)
  | graphTooLarge (nodes limit : Nat)
deriving DecidableEq

def GenerationError.message : GenerationError → String
  | cycle e => e.message
  | graphTooLarge nodes limit =>
    "Graph has " ++ toString nodes ++ " nodes, limit is " ++ toString limit

/-- A node of a pass with what it contributed, or why it failed. -/
structure Outcome where
  node : Node
  result : Except NodeError Fragment

/-- The mesh coordinates as a member of the fragment input. -/
def interpolatorChunk (p : Precision) : String := ConcreteType.vector4.name p ++ " meshUV0;"

/-- The vertex statement that fills this member. -/
def meshUVChunk : String := "o.meshUV0 = v.texcoord;"

/-- Add what one node contributes: its statements each time, the shared parts once. -/
def Sink.addFragment (p : Precision) (k : Sink) (f : Fragment) : Sink :=
  let k := f.statements.foldl (fun k s => k.addLine .body (s.text p)) k
  let k :=
    match f.definition with
    | some d => k.addChunk .functions (d.text p) true
    | none => k
  let k :=
    match f.property with
    | some (property, uniform) =>
      (k.addProperty property).addChunk .propertyUsages (uniform.text p) true
    | none => k
  if f.meshUV then
    (k.addChunk .vertex meshUVChunk true).addChunk .vertexToFragment (interpolatorChunk p) true
  else k

namespace Outcome

def error? (o : Outcome) : Option NodeError :=
  match o.result with
  | .error e => some e
  | .ok _ => none

/-- The fragment of a node that did not fail. -/
def fragment? (o : Outcome) : Option Fragment :=
  match o.result with
  | .error _ => none
  | .ok f => some f

end Outcome

/-- The outcomes of the nodes of `order`. A node that did not fail publishes its output slots to the
nodes after it. -/
def outcomes (g : Graph) (mode : Mode) (types : TypeTable) :
    VariableTable → List NodeId → List Outcome
  | _, [] => []
  | published, id :: rest =>
    match g.node? id with
    | none => outcomes g mode types published rest
    | some n =>
      let scope : Scope := ⟨g, n, mode, types, published⟩
      match scope.emit with
      | .error e => ⟨n, .error e⟩ :: outcomes g mode types published rest
      | .ok f => ⟨n, .ok f⟩ :: outcomes g mode types scope.publish rest

/-- The outcomes of a pass and the sections they fill. -/
structure Pass where
  outcomes : List Outcome
  sink : Sink

namespace Pass

/-- The errors of the nodes that failed, in the order of the pass. -/
def errors (p : Pass) : List NodeError := p.outcomes.filterMap (·.error?)

/-- The fragments of the nodes that did not fail, in the order of the pass. -/
def fragments (p : Pass) : List Fragment := p.outcomes.filterMap (·.fragment?)

end Pass

/-- Run a pass over a graph. -/
def runPass (g : Graph) (mode : Mode) (settings : Settings) : Except GenerationError Pass :=
  if settings.maxNodes < g.nodeCount then .error (.graphTooLarge g.nodeCount settings.maxNodes)
  else
    match g.topologicalOrder with
    | .error e => .error (.cycle e)
    | .ok order =>
      let all := outcomes g mode (g.resolveTypes order) .empty order
      let sink := (all.filterMap (·.fragment?)).foldl (Sink.addFragment settings.precision) .empty
      .ok ⟨all, sink⟩

/-- The result of a pass: the shader, its properties, and the nodes that contributed nothing. -/
structure Shader where
  source : String
  properties : List Property
  errors : List NodeError
deriving DecidableEq

/-- Whether every node contributed. -/
def Shader.isClean (s : Shader) : Bool := s.errors.isEmpty

/-- Generate the shader of a graph. -/
def generate (g : Graph) (mode : Mode) (settings : Settings) : Except GenerationError Shader :=
  match runPass g mode settings with
  | .error e => .error e
  | .ok pass => .ok ⟨pass.sink.assemble settings, pass.sink.registered, pass.errors⟩

end ShaderGraph
