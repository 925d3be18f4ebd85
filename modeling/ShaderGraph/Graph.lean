import ShaderGraph.Node
import ShaderGraph.OrderedMap

/-!
# Material graphs

A graph holds nodes and connections in insertion order and counts the serials it has handed out.
This file has the graph, its queries, and the edits that cannot fail: adding, removing and
reconfiguring a node, and removing a connection. `Graph.Connecting` adds and checks connections.
-/

namespace ShaderGraph

/-- The newest version of a graph document. -/
def graphVersion : Nat := 1

/-- A connection from an output slot to an input slot. -/
structure Connection where
  id : ConnectionId
  fromNode : NodeId
  fromSlot : String
  toNode : NodeId
  toSlot : String
deriving DecidableEq

namespace Connection

/-- Whether the connection starts or ends at the node. -/
def involves (c : Connection) (n : NodeId) : Bool := c.fromNode == n || c.toNode == n

/-- Whether the connection ends at the input slot. -/
def feeds (c : Connection) (n : NodeId) (slot : String) : Bool := c.toNode == n && c.toSlot == slot

/-- Whether the connection starts at the output slot. -/
def drains (c : Connection) (n : NodeId) (slot : String) : Bool :=
  c.fromNode == n && c.fromSlot == slot

end Connection

/-- A material graph. A node is found under its key, which a document may set apart from the
identity the node itself holds; the same holds of connections. -/
structure Graph where
  version : Nat
  name : String
  nodes : OrderedMap NodeId Node
  connections : OrderedMap ConnectionId Connection
  nextSerial : Nat

/-- What reconfiguring a node did: whether its slots changed, and the connections it lost. -/
structure Reconfiguration where
  slotsChanged : Bool
  removed : List Connection

namespace Graph

/-- A graph without nodes. -/
def empty (name : String) : Graph := ⟨graphVersion, name, .empty, .empty, 0⟩

/-- The graph that a session starts from when it is given no name. -/
def untitled : Graph := empty "Untitled"

section Queries

def node? (g : Graph) (id : NodeId) : Option Node := g.nodes.get? id

def nodeCount (g : Graph) : Nat := g.nodes.size

def connection? (g : Graph) (id : ConnectionId) : Option Connection := g.connections.get? id

def connectionCount (g : Graph) : Nat := g.connections.size

/-- The first connection that ends at an input slot. -/
def connectionInto (g : Graph) (id : NodeId) (slot : String) : Option Connection :=
  g.connections.values.find? (·.feeds id slot)

/-- The connections that start at an output slot. -/
def connectionsFrom (g : Graph) (id : NodeId) (slot : String) : List Connection :=
  g.connections.values.filter (·.drains id slot)

/-- The connections that start or end at a node. -/
def connectionsOf (g : Graph) (id : NodeId) : List Connection :=
  g.connections.values.filter (·.involves id)

/-- The nodes that feed a node, each once, in the order of the connections. -/
def dependencies (g : Graph) (id : NodeId) : List NodeId :=
  ((g.connections.values.filter (·.toNode = id)).map (·.fromNode)).eraseDups

end Queries

section Edits

/-- Add a node under its identity and give it the next serial. A node that is present under this
identity is replaced where it stands. -/
def addNode (g : Graph) (n : Node) : Graph :=
  { g with
    nodes := g.nodes.insert n.id { n with serial := g.nextSerial }
    nextSerial := g.nextSerial + 1 }

/-- Remove a node and the connections at it. -/
def removeNode (g : Graph) (id : NodeId) : Graph :=
  { g with
    nodes := g.nodes.erase id
    connections := g.connections.filter fun _ c => !c.involves id }

/-- Remove a connection. -/
def disconnect (g : Graph) (id : ConnectionId) : Graph :=
  { g with connections := g.connections.erase id }

/-- Whether a connection starts at an output slot and ends at an input slot, found among slots of
that direction. -/
def hasEndpoints (nodes : OrderedMap NodeId Node) (c : Connection) : Bool :=
  ((nodes.get? c.fromNode).bind (·.output? c.fromSlot)).isSome &&
    ((nodes.get? c.toNode).bind (·.input? c.toSlot)).isSome

/-- Change the kind of a node and bring its slots in line with it. If its slots changed, connections
that lost an endpoint are removed. -/
def configureNode (g : Graph) (id : NodeId) (configure : NodeKind → NodeKind) :
    Option (Graph × Reconfiguration) :=
  (g.nodes.get? id).map fun n =>
    let (synced, changed) := { n with kind := configure n.kind }.syncSlots
    let nodes := g.nodes.modify id fun _ => synced
    if changed then
      ({ g with nodes, connections := g.connections.filter fun _ c => hasEndpoints nodes c },
        ⟨true, g.connections.values.filter fun c => !hasEndpoints nodes c⟩)
    else ({ g with nodes }, ⟨false, []⟩)

end Edits

end Graph

end ShaderGraph
