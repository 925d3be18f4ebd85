import ShaderGraph.ValueType

/-!
# Slots

A slot is a named place on a node where a value enters or leaves. Slots of one node are found by
name; where a name is repeated, the first slot of that name counts.
-/

namespace ShaderGraph

inductive SlotDirection
  | input
  | output
deriving DecidableEq

/-- The name of the direction in documents and listings. -/
def SlotDirection.label : SlotDirection → String
  | .input => "Input"
  | .output => "Output"

def SlotDirection.all : List SlotDirection := [.input, .output]

/-- A named input or output of a node. -/
structure Slot where
  name : String
  direction : SlotDirection
  type : SlotType
deriving DecidableEq

namespace Slot

def isInput (s : Slot) : Bool := s.direction == .input

def isOutput (s : Slot) : Bool := s.direction == .output

/-- Whether an output slot can feed an input slot. -/
def canFeed (source target : Slot) : Bool :=
  source.isOutput && target.isInput && source.type.canFeed target.type

/-- An input slot of a concrete type. -/
def fixedInput (name : String) (t : ConcreteType) : Slot := ⟨name, .input, .fixed t⟩

/-- An output slot of a concrete type. -/
def fixedOutput (name : String) (t : ConcreteType) : Slot := ⟨name, .output, .fixed t⟩

end Slot

end ShaderGraph
