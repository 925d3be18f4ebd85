import ShaderGraph.Graph

/-!
# Dependency order

A node depends on the nodes that feed its inputs.

* `topologicalOrder` : the nodes, each after all that it depends on, or a cycle;
* `wouldCreateCycle` : whether one node depends on another, directly or through others.

Both searches bound their steps by the number of connections: a path of dependencies that does not
repeat a node is no longer than that, and no more nodes than that wait to be searched.
-/

namespace ShaderGraph

/-- A cycle of dependencies: each node is fed by the next one and the last by the first. -/
structure CycleError where
  nodes : List NodeId
deriving DecidableEq

def CycleError.message (e : CycleError) : String :=
  "Graph contains a cycle through " ++ toString e.nodes.length ++ " node(s)"

namespace Graph

/-- The part of a search path from `id` on; the path has the newest node first. -/
def cycleAt (id : NodeId) (path : List NodeId) : CycleError :=
  ⟨id :: (path.takeWhile (· ≠ id)).reverse⟩

/-- Finish a node after its dependencies. `path` holds the nodes being searched and `finished` those
already ordered, both with the newest node first. -/
def visit (g : Graph) : Nat → List NodeId → List NodeId → NodeId → Except CycleError (List NodeId)
  | 0, path, _, id => .error (cycleAt id path)
  | fuel + 1, path, finished, id =>
    if id ∈ finished then .ok finished
    else if id ∈ path then .error (cycleAt id path)
    else
      match (g.dependencies id).foldlM (visit g fuel (id :: path)) finished with
      | .error e => .error e
      | .ok finished => .ok (id :: finished)

/-- The nodes in dependency order, those of the graph and any other that a connection names. -/
def topologicalOrder (g : Graph) : Except CycleError (List NodeId) :=
  match g.nodes.keys.foldlM (visit g (g.connectionCount + 2) []) [] with
  | .error e => .error e
  | .ok finished => .ok finished.reverse

/-- Whether `goal` is among the waiting nodes or the nodes they depend on. -/
def search (g : Graph) (goal : NodeId) : Nat → List NodeId → List NodeId → Bool
  | _, _, [] => false
  | 0, _, _ :: _ => false
  | fuel + 1, visited, id :: waiting =>
    if id = goal then true
    else if id ∈ visited then search g goal fuel visited waiting
    else search g goal fuel (id :: visited) (g.dependencies id ++ waiting)

/-- Whether a connection from one node into another would close a cycle. -/
def wouldCreateCycle (g : Graph) (source target : NodeId) : Bool :=
  search g target (g.connectionCount + 1) [] [source]

end Graph

end ShaderGraph
