import ShaderGraph.Graph

/-!
# Connecting slots

The rules a connection obeys, and the two places that enforce them: `connect`, which adds one
connection, and `validate`, which goes through the connections of a graph built in another way.
Both report the first broken rule, in the order of `checkEndpoints` and then the occupied input;
`connect` also refuses to join a node to itself.
-/

namespace ShaderGraph

/-- Why a connection is refused. -/
inductive ConnectionError
  | nodeNotFound (id : NodeId)
  | slotNotFound (name : String)
  | wrongDirection
  | incompatibleSlots
  | inputOccupied (name : String)
  | selfLoop
deriving DecidableEq

def ConnectionError.message : ConnectionError → String
  | nodeNotFound id => "Node not found: NodeId(" ++ id.uuid.toText ++ ")"
  | slotNotFound name => "Slot not found: " ++ name
  | wrongDirection => "Connections must run from an output slot to an input slot"
  | incompatibleSlots => "Incompatible slot types"
  | inputOccupied name => "Duplicate input: slot " ++ name ++ " is already connected"
  | selfLoop => "Self-loop not allowed"

namespace Graph

/-- Both nodes exist, both slots exist, and the first can feed the second. -/
def checkEndpoints (nodes : OrderedMap NodeId Node) (c : Connection) :
    Except ConnectionError Unit :=
  match nodes.get? c.fromNode with
  | none => .error (.nodeNotFound c.fromNode)
  | some source =>
    match nodes.get? c.toNode with
    | none => .error (.nodeNotFound c.toNode)
    | some target =>
      match source.slot? c.fromSlot with
      | none => .error (.slotNotFound c.fromSlot)
      | some output =>
        match target.slot? c.toSlot with
        | none => .error (.slotNotFound c.toSlot)
        | some input =>
          if !(output.isOutput && input.isInput) then .error .wrongDirection
          else if !output.canFeed input then .error .incompatibleSlots
          else .ok ()

/-- Add a connection under a fresh identity. -/
def connect (g : Graph) (c : Connection) : Except ConnectionError Graph :=
  match checkEndpoints g.nodes c with
  | .error e => .error e
  | .ok () =>
    if (g.connectionInto c.toNode c.toSlot).isSome then .error (.inputOccupied c.toSlot)
    else if c.fromNode = c.toNode then .error .selfLoop
    else .ok { g with connections := g.connections.insert c.id c }

/-- Check connections one after the other; `occupied` holds the inputs taken so far. -/
def validateFrom (nodes : OrderedMap NodeId Node) :
    List (NodeId × String) → List Connection → Except ConnectionError Unit
  | _, [] => .ok ()
  | occupied, c :: rest =>
    match checkEndpoints nodes c with
    | .error e => .error e
    | .ok () =>
      if (c.toNode, c.toSlot) ∈ occupied then .error (.inputOccupied c.toSlot)
      else validateFrom nodes ((c.toNode, c.toSlot) :: occupied) rest

/-- The first broken rule among the connections of a graph. -/
def validate (g : Graph) : Except ConnectionError Unit :=
  validateFrom g.nodes [] g.connections.values

end Graph

end ShaderGraph
