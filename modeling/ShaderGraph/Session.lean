import ShaderGraph.Generation
import ShaderGraph.GraphDocument
import ShaderGraph.Graph.Order

/-!
# Editing sessions

A session holds a graph and the settings it is generated with. It draws the identities of new nodes
and connections, so that none is drawn twice, and remembers the nodes that were removed.
-/

namespace ShaderGraph

/-- The `k`-th identity drawn for a node: the digits of `k` end a fixed identifier. -/
def drawnNode (k : Nat) : NodeId := ⟨.ofNat (0xa0000000000040008000000000000000 + k)⟩

/-- The `k`-th identity drawn for a connection. -/
def drawnConnection (k : Nat) : ConnectionId := ⟨.ofNat (0xc0000000000040008000000000000000 + k)⟩

structure Session where
  graph : Graph
  settings : Settings
  /-- How many identities were drawn for nodes. -/
  drawnNodes : Nat
  /-- How many identities were drawn for connections. -/
  drawnConnections : Nat
  /-- The removed nodes, the latest first. -/
  removed : List Node

namespace Session

def start (graph : Graph) (settings : Settings) : Session := ⟨graph, settings, 0, 0, []⟩

/-- Add a node that has an identity of its own. -/
def addNode (s : Session) (n : Node) : Session := { s with graph := s.graph.addNode n }

/-- Add a new node of a kind; gives the identity drawn for it. -/
def add (s : Session) (kind : NodeKind) : Session × NodeId :=
  let id := drawnNode s.drawnNodes
  ({ s.addNode (.ofKind id kind) with drawnNodes := s.drawnNodes + 1 }, id)

/-- Remove a node, which is remembered. -/
def removeNode (s : Session) (id : NodeId) : Session × Option Node :=
  let found := s.graph.node? id
  ({ s with graph := s.graph.removeNode id, removed := found.toList ++ s.removed }, found)

/-- The latest removed node of an identity. -/
def remembered? (s : Session) (id : NodeId) : Option Node := s.removed.find? (·.id = id)

/-- Connect two slots; gives the identity drawn for the connection. -/
def connect (s : Session) (fromNode : NodeId) (fromSlot : String) (toNode : NodeId)
    (toSlot : String) : Except ConnectionError (Session × ConnectionId) :=
  let id := drawnConnection s.drawnConnections
  match s.graph.connect ⟨id, fromNode, fromSlot, toNode, toSlot⟩ with
  | .error e => .error e
  | .ok graph => .ok ({ s with graph, drawnConnections := s.drawnConnections + 1 }, id)

/-- Remove a connection. -/
def disconnect (s : Session) (id : ConnectionId) : Session × Option Connection :=
  ({ s with graph := s.graph.disconnect id }, s.graph.connection? id)

/-- Change the kind of a node. -/
def configureNode (s : Session) (id : NodeId) (configure : NodeKind → NodeKind) :
    Option (Session × Reconfiguration) :=
  (s.graph.configureNode id configure).map fun (graph, report) => ({ s with graph }, report)

/-- Set the name and the version of the graph, where given. -/
def rename (s : Session) (name : Option String) (version : Option Nat) : Session :=
  { s with
    graph :=
      { s.graph with name := name.getD s.graph.name, version := version.getD s.graph.version } }

/-- Replace the graph by the one of a document. -/
def load (s : Session) (document : String) : Except GraphLoadError Session :=
  (Graph.ofDocument document).map fun graph => { s with graph }

/-- Save the graph and load it back. -/
def reload (s : Session) : Except GraphLoadError Session := s.load s.graph.toDocument

/-- Generate the shader of the graph. -/
def generate (s : Session) (mode : Mode) : Except GenerationError Shader :=
  ShaderGraph.generate s.graph mode s.settings

end Session

end ShaderGraph
