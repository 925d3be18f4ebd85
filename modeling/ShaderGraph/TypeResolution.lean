import ShaderGraph.Graph

/-!
# Type resolution

Dynamic slots take their types from what is connected, node by node in dependency order:

* a connected input takes the type of the output that feeds it;
* a dynamic output takes the widest type among the connected dynamic inputs;
* an unconnected dynamic input takes the same type as a dynamic output;
* with nothing connected, that type is `defaultDynamicType`.
-/

namespace ShaderGraph

/-- The type of dynamic slots that nothing decides. -/
def defaultDynamicType : ConcreteType := .vector4

/-- The types found so far, the latest first. A slot is known by its node and its name. -/
structure TypeTable where
  entries : List ((NodeId × String) × ConcreteType)

namespace TypeTable

def empty : TypeTable := ⟨[]⟩

def get? (t : TypeTable) (id : NodeId) (slot : String) : Option ConcreteType :=
  t.entries.lookup (id, slot)

def insert (t : TypeTable) (id : NodeId) (slot : String) (type : ConcreteType) : TypeTable :=
  ⟨((id, slot), type) :: t.entries⟩

/-- The type of a slot: as found, else as declared. -/
def concreteType (t : TypeTable) (n : Node) (s : Slot) : ConcreteType :=
  ((t.get? n.id s.name).or s.type.concrete?).getD defaultDynamicType

end TypeTable

namespace Graph

/-- The type that reaches an input slot through its connection: as found at the feeding slot, else
as that slot declares it. -/
def incomingType? (g : Graph) (types : TypeTable) (id : NodeId) (slot : String) :
    Option ConcreteType :=
  (g.connectionInto id slot).bind fun c =>
    (types.get? c.fromNode c.fromSlot).or
      (((g.node? c.fromNode).bind (·.output? c.fromSlot)).bind (·.type.concrete?))

/-- The type of the dynamic outputs and the unconnected dynamic inputs of a node. -/
def dynamicWidth (g : Graph) (types : TypeTable) (id : NodeId) (n : Node) : ConcreteType :=
  let incoming := (n.inputs.filter (·.type.isDynamic)).filterMap fun s =>
    incomingType? g types id s.name
  (ConcreteType.maximum? (incoming.filter (·.isVector))).getD defaultDynamicType

/-- The type of one slot of a node, given the types of the nodes that feed it. -/
def slotType (g : Graph) (types : TypeTable) (id : NodeId) (n : Node) (s : Slot) : ConcreteType :=
  match s.type with
  | .fixed t => t
  | .dynamic =>
    if s.isInput then (incomingType? g types id s.name).getD (dynamicWidth g types id n)
    else dynamicWidth g types id n

/-- Add the types of the slots of one node. -/
def resolveNode (g : Graph) (types : TypeTable) (id : NodeId) : TypeTable :=
  match g.node? id with
  | none => types
  | some n => n.slots.foldl (fun t s => t.insert id s.name (slotType g types id n s)) types

/-- The types of the slots of the nodes in `order`, which lists feeding nodes first. -/
def resolveTypes (g : Graph) (order : List NodeId) : TypeTable :=
  order.foldl (resolveNode g) .empty

end Graph

end ShaderGraph
