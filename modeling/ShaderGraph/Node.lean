import ShaderGraph.NodeKind
import ShaderGraph.Uuid

/-!
# Nodes

A node has an identity, a serial that numbers its variables, a name, a kind and a list of slots.
The slots may be edited apart from the kind; `syncSlots` brings them back to what the kind requires.
-/

namespace ShaderGraph

structure Node where
  id : NodeId
  serial : Nat
  name : String
  kind : NodeKind
  slots : List Slot
deriving DecidableEq

namespace Node

/-- Put `s` in the place of the first slot of its name, or at the end. -/
def putSlot (s : Slot) : List Slot → List Slot
  | [] => [s]
  | t :: rest => if t.name = s.name then s :: rest else t :: putSlot s rest

/-- Add a slot, replacing the slot of its name. -/
def addSlot (n : Node) (s : Slot) : Node := { n with slots := putSlot s n.slots }

/-- Keep the slots whose name is listed; the names of the others are given back. -/
def keepSlots (n : Node) (names : List String) : Node × List String :=
  ({ n with slots := n.slots.filter (names.contains ·.name) },
    (n.slots.filter (!names.contains ·.name)).map (·.name))

/-- Every required slot is put in, slots of other names are dropped, and the rest stand in the order
of the required ones. -/
def syncedSlots (required slots : List Slot) : List Slot :=
  let added := required.foldl (fun l s => putSlot s l) slots
  required.flatMap fun d => added.filter (·.name = d.name)

/-- Bring the slots in line with the kind; tells whether any slot changed. -/
def syncSlots (n : Node) : Node × Bool :=
  let slots := syncedSlots n.kind.requiredSlots n.slots
  ({ n with slots }, slots != n.slots)

/-- A node of the given kind with its required slots and default name. -/
def ofKind (id : NodeId) (kind : NodeKind) : Node :=
  (syncSlots ⟨id, 0, kind.displayName, kind, []⟩).1

/-- The first slot of a name. -/
def slot? (n : Node) (name : String) : Option Slot := n.slots.find? (·.name = name)

/-- The first input slot of a name. -/
def input? (n : Node) (name : String) : Option Slot :=
  n.slots.find? fun s => s.isInput && s.name = name

/-- The first output slot of a name. -/
def output? (n : Node) (name : String) : Option Slot :=
  n.slots.find? fun s => s.isOutput && s.name = name

def inputs (n : Node) : List Slot := n.slots.filter (·.isInput)

def outputs (n : Node) : List Slot := n.slots.filter (·.isOutput)

/-- The start of every name the node declares, such as `texture3`. -/
def variableBase (n : Node) : String := n.kind.slug ++ toString n.serial

/-- Name of the variable that holds the value of the node. -/
def outputVariable (n : Node) : String := n.variableBase ++ "_out"

/-- Name of the material property of the node. -/
def propertyName (n : Node) : String := "_" ++ n.variableBase

end Node

end ShaderGraph
