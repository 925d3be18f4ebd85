import ShaderGraph.Document.Choice
import ShaderGraph.Graph.Connecting

/-!
# Graph documents

A graph is saved as a document and loaded back from one. `graphShape` says what a document holds;
`Graph.toValue` and `Graph.ofValue?` pass between a graph and the value of its document.

* `Graph.toDocument` : the document of a graph;
* `Graph.ofDocument` : the graph of a document, after the checks a loaded graph has to pass.
-/

namespace ShaderGraph

open Document

section Slots

def slotShape : Shape :=
  .record "Slot" <|
    .required "name" anyText <|
    .required "direction" (symbolShape SlotDirection.all (·.label)) <|
    .required "value_type" (symbolShape SlotType.all (·.label)) .nil

def Slot.toValue (s : Slot) : Value :=
  .record "Slot"
    [("name", .text s.name), ("direction", .symbol s.direction.label),
      ("value_type", .symbol s.type.label)]

def Slot.ofValue? : Value → Option Slot
  | .record _ [(_, .text name), (_, direction), (_, type)] => do
    let direction ← ofSymbol? SlotDirection.all (·.label) direction
    let type ← ofSymbol? SlotType.all (·.label) type
    some ⟨name, direction, type⟩
  | _ => none

end Slots

section Kinds

/-- The value of a constant: a number, or a tuple of two to four numbers. -/
def constantValueShape : Shape :=
  .choice <|
    .enclosed "Vector1" .number <|
    .enclosed "Vector2" (.tuple 2 .number) <|
    .enclosed "Vector3" (.tuple 3 .number) <|
    .enclosed "Vector4" (.tuple 4 .number) .nil

def ConstantValue.toValue : ConstantValue → Value
  | vector1 x => .enclosed "Vector1" (.number x)
  | vector2 x y => .enclosed "Vector2" (.tuple [.number x, .number y])
  | vector3 x y z => .enclosed "Vector3" (.tuple [.number x, .number y, .number z])
  | vector4 x y z w => .enclosed "Vector4" (.tuple [.number x, .number y, .number z, .number w])

def ConstantValue.ofValue? : Value → Option ConstantValue
  | .enclosed _ (.number x) => some (vector1 x)
  | .enclosed _ (.tuple [.number x, .number y]) => some (vector2 x y)
  | .enclosed _ (.tuple [.number x, .number y, .number z]) => some (vector3 x y z)
  | .enclosed _ (.tuple [.number x, .number y, .number z, .number w]) => some (vector4 x y z w)
  | _ => none

def functionShape : Shape :=
  .record "FunctionNode" <|
    .required "function" (symbolShape MathFunction.all (·.label)) .nil

def textureShape : Shape :=
  .record "TextureNode" <|
    .optional "texture" (.option (.enclosed "TextureHandle" anyText)) (.symbol "None") <|
    .required "texture_type" (symbolShape TextureType.all (·.label)) <|
    .required "exposed" .flag .nil

def constantShape : Shape :=
  .record "ConstantNode" <|
    .required "value" constantValueShape <|
    .required "exposed" .flag .nil

def kindShape : Shape :=
  .choice <|
    .enclosed "Function" functionShape <|
    .enclosed "Texture" textureShape <|
    .enclosed "Uv" (.unit "UvNode") <|
    .enclosed "Constant" constantShape <|
    .enclosed "SurfaceOutput" (.unit "SurfaceOutputNode") .nil

/-- The texture bound to a sampler. -/
def textureValue : Option String → Value
  | none => .symbol "None"
  | some handle => .enclosed "Some" (.enclosed "TextureHandle" (.text handle))

def textureOfValue? : Value → Option (Option String)
  | .symbol _ => some none
  | .enclosed _ (.enclosed _ (.text handle)) => some (some handle)
  | _ => none

def NodeKind.toValue : NodeKind → Value
  | function f => .enclosed "Function" (.record "FunctionNode" [("function", .symbol f.label)])
  | texture t =>
    .enclosed "Texture" <| .record "TextureNode"
      [("texture", textureValue t.texture), ("texture_type", .symbol t.type.label),
        ("exposed", .flag t.exposed)]
  | uv => .enclosed "Uv" (.symbol "UvNode")
  | constant c =>
    .enclosed "Constant" <| .record "ConstantNode"
      [("value", c.value.toValue), ("exposed", .flag c.exposed)]
  | surfaceOutput => .enclosed "SurfaceOutput" (.symbol "SurfaceOutputNode")

def NodeKind.ofValue? : Value → Option NodeKind
  | .enclosed _ (.record _ [(_, f)]) => (ofSymbol? MathFunction.all (·.label) f).map function
  | .enclosed _ (.record _ [(_, handle), (_, type), (_, .flag exposed)]) => do
    let handle ← textureOfValue? handle
    let type ← ofSymbol? TextureType.all (·.label) type
    some (texture ⟨handle, type, exposed⟩)
  | .enclosed _ (.record _ [(_, value), (_, .flag exposed)]) => do
    let value ← ConstantValue.ofValue? value
    some (constant ⟨value, exposed⟩)
  | .enclosed name (.symbol _) => some (if name = "Uv" then uv else surfaceOutput)
  | _ => none

end Kinds

section Identities

/-- A text that stands for a unique identifier, after the name of its type. -/
def identityShape (name : String) : Shape :=
  .enclosed name (.text fun s => (Uuid.ofText? s).isSome)

def identityValue (name : String) (u : Uuid) : Value := .enclosed name (.text u.toText)

def uuidOfValue? : Value → Option Uuid
  | .enclosed _ (.text s) => Uuid.ofText? s
  | _ => none

def NodeId.toValue (id : NodeId) : Value := identityValue "NodeId" id.uuid

def NodeId.ofValue? (v : Value) : Option NodeId := (uuidOfValue? v).map NodeId.mk

def ConnectionId.toValue (id : ConnectionId) : Value := identityValue "ConnectionId" id.uuid

def ConnectionId.ofValue? (v : Value) : Option ConnectionId := (uuidOfValue? v).map ConnectionId.mk

end Identities

section Nodes

def nodeShape : Shape :=
  .record "Node" <|
    .required "id" (identityShape "NodeId") <|
    .required "serial" word32 <|
    .required "name" anyText <|
    .required "kind" kindShape <|
    .required "slots" (.list slotShape) .nil

def Node.toValue (n : Node) : Value :=
  .record "Node"
    [("id", n.id.toValue), ("serial", .natural n.serial), ("name", .text n.name),
      ("kind", n.kind.toValue), ("slots", .list (n.slots.map (·.toValue)))]

def Node.ofValue? : Value → Option Node
  | .record _ [(_, id), (_, .natural serial), (_, .text name), (_, kind), (_, .list slots)] => do
    let id ← NodeId.ofValue? id
    let kind ← NodeKind.ofValue? kind
    let slots ← slots.mapM Slot.ofValue?
    some ⟨id, serial, name, kind, slots⟩
  | _ => none

def connectionShape : Shape :=
  .record "Connection" <|
    .required "id" (identityShape "ConnectionId") <|
    .required "from_node" (identityShape "NodeId") <|
    .required "from_slot" anyText <|
    .required "to_node" (identityShape "NodeId") <|
    .required "to_slot" anyText .nil

def Connection.toValue (c : Connection) : Value :=
  .record "Connection"
    [("id", c.id.toValue), ("from_node", c.fromNode.toValue), ("from_slot", .text c.fromSlot),
      ("to_node", c.toNode.toValue), ("to_slot", .text c.toSlot)]

def Connection.ofValue? : Value → Option Connection
  | .record _ [(_, id), (_, fromNode), (_, .text fromSlot), (_, toNode), (_, .text toSlot)] => do
    let id ← ConnectionId.ofValue? id
    let fromNode ← NodeId.ofValue? fromNode
    let toNode ← NodeId.ofValue? toNode
    some ⟨id, fromNode, fromSlot, toNode, toSlot⟩
  | _ => none

end Nodes

/-- What a graph document holds. The version and the serial counter may be left out. -/
def graphShape : Shape :=
  .record "Graph" <|
    .optional "version" word32 (.natural graphVersion) <|
    .required "name" anyText <|
    .required "nodes" (.map (identityShape "NodeId") nodeShape) <|
    .required "connections" (.map (identityShape "ConnectionId") connectionShape) <|
    .optional "next_serial" word32 (.natural 0) .nil

/-- Why a graph cannot be loaded. -/
inductive GraphLoadError
  /-- The file cannot be read. -/
  | unreadable
  | unparsable (e : ReadError)
  | unsupportedVersion (found : Nat)
  | invalidConnection (e : ConnectionError)
  | duplicateSerial (serial : Nat)
deriving DecidableEq

/-- The message, without the details that the file system or the reader add. -/
def GraphLoadError.message : GraphLoadError → String
  | unreadable => "I/O error:"
  | unparsable _ => "Invalid graph document:"
  | unsupportedVersion found =>
    "Graph version " ++ toString found ++ " is newer than supported version " ++
      toString graphVersion
  | invalidConnection e => "Invalid connection in graph document: " ++ e.message
  | duplicateSerial serial => "Duplicate node serial " ++ toString serial ++ " in graph document"

namespace Graph

def toValue (g : Graph) : Value :=
  .record "Graph"
    [("version", .natural g.version), ("name", .text g.name),
      ("nodes", .map (g.nodes.entries.map fun e => (e.1.toValue, e.2.toValue))),
      ("connections", .map (g.connections.entries.map fun e => (e.1.toValue, e.2.toValue))),
      ("next_serial", .natural g.nextSerial)]

/-- The entries of a map value. -/
def entriesOfValue? {κ α : Type} (key? : Value → Option κ) (value? : Value → Option α)
    (entries : List (Value × Value)) : Option (List (κ × α)) :=
  entries.mapM fun e => do
    let k ← key? e.1
    let a ← value? e.2
    some (k, a)

def ofValue? : Value → Option Graph
  | .record _ [(_, .natural version), (_, .text name), (_, .map nodes), (_, .map connections),
      (_, .natural nextSerial)] => do
    let nodes ← entriesOfValue? NodeId.ofValue? Node.ofValue? nodes
    let connections ← entriesOfValue? ConnectionId.ofValue? Connection.ofValue? connections
    some ⟨version, name, .ofEntries nodes, .ofEntries connections, nextSerial⟩
  | _ => none

/-- The document of a graph. -/
def toDocument (g : Graph) : String := g.toValue.document

/-- The first number of a list that stands in it before. -/
def firstRepeated? (seen : List Nat) : List Nat → Option Nat
  | [] => none
  | n :: rest => if n ∈ seen then some n else firstRepeated? (n :: seen) rest

/-- The graph with its serial counter above every serial in use. -/
def raiseSerial (g : Graph) : Graph :=
  { g with nextSerial := (g.nodes.values.map (·.serial + 1)).foldl max g.nextSerial }

/-- The graph of a document. Its version is supported, its connections obey the rules and its
serials are distinct; slots stay as they are written. -/
def ofDocument (document : String) : Except GraphLoadError Graph :=
  match readDocument graphShape document with
  | .error e => .error (.unparsable e)
  | .ok v =>
    match ofValue? v with
    | none => .error (.unparsable .malformed)
    | some g =>
      if graphVersion < g.version then .error (.unsupportedVersion g.version)
      else
        match g.validate with
        | .error e => .error (.invalidConnection e)
        | .ok () =>
          match firstRepeated? [] (g.nodes.values.map (·.serial)) with
          | some serial => .error (.duplicateSerial serial)
          | none => .ok g.raiseSerial

end Graph

end ShaderGraph
