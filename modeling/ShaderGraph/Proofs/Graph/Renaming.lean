import Mathlib.Data.Prod.Basic
import Mathlib.Logic.Embedding.Basic
import ShaderGraph.Graph.Connecting
import ShaderGraph.Graph.Order
import ShaderGraph.Proofs.OrderedMap
import ShaderGraph.TypeResolution

/-!
# Graphs under other identities

Identities are drawn at random, so nothing may depend on more than which of them are equal. A
`Renaming` gives every node and every connection another identity, apart from those of the others;
it is applied to keys, to the identities that nodes and connections hold and to the ends of
connections. Every query answers for the renamed graph what it answers for the graph, renamed.

* `Renaming`, `Graph.rename` : a graph whose nodes and connections have other identities;
* `node?_rename`, `connectionInto_rename`, `dependencies_rename` : its queries;
* `topologicalOrder_rename` : its order or its cycle;
* `validate_rename` : its first broken rule;
* `resolveTypes_rename` : the types of its slots, along any order.
-/

namespace ShaderGraph

open Function

/-- Other identities for nodes and for connections, with no two of one kind made equal. -/
structure Renaming where
  node : NodeId ↪ NodeId
  connection : ConnectionId ↪ ConnectionId

section Maps

variable {κ α : Type}

/-- A map whose keys and values are replaced. -/
def OrderedMap.rename (m : OrderedMap κ α) (key : κ ↪ κ) (value : α → α) : OrderedMap κ α :=
  ⟨m.entries.map (Prod.map key value), by
    rw [List.map_map, Prod.map_fst', ← List.map_map]
    exact m.nodup.map key.injective⟩

/-- A look-up under a new key finds what the old key found. -/
theorem lookup_map_prodMap {β : Type} [BEq κ] [LawfulBEq κ] {key : κ → κ} (hkey : Injective key)
    (value : α → β) (k : κ) (l : List (κ × α)) :
    (l.map (Prod.map key value)).lookup (key k) = (l.lookup k).map value := by
  induction l with
  | nil => rfl
  | cons e rest ih =>
    rw [List.map_cons, List.lookup_cons, List.lookup_cons, ih]
    cases hk : k == e.1 with
    | true => simp [eq_of_beq hk]
    | false =>
      have hne : key k ≠ key e.1 := fun h => ne_of_beq_false hk (hkey h)
      rw [Prod.map_fst, beq_false_of_ne hne]

variable {m : OrderedMap κ α} {key : κ ↪ κ} {value : α → α}

theorem OrderedMap.get?_rename [DecidableEq κ] (k : κ) :
    (m.rename key value).get? (key k) = (m.get? k).map value :=
  lookup_map_prodMap key.injective value k m.entries

theorem OrderedMap.keys_rename : (m.rename key value).keys = m.keys.map key := by
  simp [OrderedMap.rename, OrderedMap.keys]

theorem OrderedMap.values_rename : (m.rename key value).values = m.values.map value := by
  simp [OrderedMap.rename, OrderedMap.values]

end Maps

section Renaming

def Node.rename (r : Renaming) (n : Node) : Node := { n with id := r.node n.id }

def Connection.rename (r : Renaming) (c : Connection) : Connection :=
  { c with
    id := r.connection c.id
    fromNode := r.node c.fromNode
    toNode := r.node c.toNode }

/-- The graph with its keys, the identities held under them and the ends of connections renamed. -/
def Graph.rename (r : Renaming) (g : Graph) : Graph :=
  { g with
    nodes := g.nodes.rename r.node (Node.rename r)
    connections := g.connections.rename r.connection (Connection.rename r) }

def CycleError.rename (r : Renaming) (e : CycleError) : CycleError := ⟨e.nodes.map r.node⟩

def ConnectionError.rename (r : Renaming) : ConnectionError → ConnectionError
  | nodeNotFound id => nodeNotFound (r.node id)
  | e => e

/-- An input slot of a node, or an output slot, with the node renamed. -/
def Renaming.slot (r : Renaming) : NodeId × String → NodeId × String := Prod.map r.node id

theorem Renaming.slot_injective (r : Renaming) : Injective r.slot :=
  r.node.injective.prodMap injective_id

/-- A table of slots holds under a renamed slot what it held under the slot. -/
theorem Renaming.lookup_slot {α : Type} (r : Renaming) (id : NodeId) (slot : String)
    (l : List ((NodeId × String) × α)) :
    (l.map (Prod.map r.slot fun a => a)).lookup (r.node id, slot) = l.lookup (id, slot) := by
  have hlookup := lookup_map_prodMap r.slot_injective (fun a : α => a) (id, slot) l
  rwa [Option.map_id'] at hlookup

def TypeTable.rename (r : Renaming) (t : TypeTable) : TypeTable :=
  ⟨t.entries.map (Prod.map r.slot id)⟩

theorem TypeTable.get?_rename (r : Renaming) (types : TypeTable) (id : NodeId) (slot : String) :
    (types.rename r).get? (r.node id) slot = types.get? id slot :=
  r.lookup_slot id slot types.entries

end Renaming

namespace Graph

variable (r : Renaming) (g : Graph)

section Queries

theorem node?_rename (id : NodeId) :
    (g.rename r).node? (r.node id) = (g.node? id).map (Node.rename r) :=
  OrderedMap.get?_rename id

theorem nodeCount_rename : (g.rename r).nodeCount = g.nodeCount := List.length_map _

theorem connectionCount_rename : (g.rename r).connectionCount = g.connectionCount :=
  List.length_map _

theorem connections_rename :
    (g.rename r).connections.values = g.connections.values.map (Connection.rename r) :=
  OrderedMap.values_rename

theorem feeds_rename (c : Connection) (id : NodeId) (slot : String) :
    (c.rename r).feeds (r.node id) slot = c.feeds id slot := by
  rw [Bool.eq_iff_iff]
  simp [Connection.feeds, Connection.rename]

theorem connectionInto_rename (id : NodeId) (slot : String) :
    (g.rename r).connectionInto (r.node id) slot =
      (g.connectionInto id slot).map (Connection.rename r) := by
  have hfeeds : (·.feeds (r.node id) slot) ∘ Connection.rename r = (·.feeds id slot) :=
    funext fun c => feeds_rename r c id slot
  rw [connectionInto, connections_rename, List.find?_map, hfeeds]
  rfl

/-- What is repeated in a list is repeated in its image, and nothing else is. -/
theorem eraseDups_map {f : NodeId → NodeId} (hf : Injective f) :
    ∀ l : List NodeId, (l.map f).eraseDups = l.eraseDups.map f
  | [] => rfl
  | a :: l => by
    have hshorter : (l.filter fun b => !b == a).length < l.length + 1 :=
      Nat.lt_succ_of_le (List.length_filter_le _ _)
    have hrest : (l.map f).filter (fun b => !b == f a) = (l.filter fun b => !b == a).map f := by
      rw [List.filter_map]
      refine congrArg (List.map f) (List.filter_congr fun b _ => ?_)
      simp [hf.eq_iff]
    rw [List.map_cons, List.eraseDups_cons, List.eraseDups_cons, List.map_cons, hrest,
      eraseDups_map hf]
termination_by l => l.length

theorem dependencies_rename (id : NodeId) :
    (g.rename r).dependencies (r.node id) = (g.dependencies id).map r.node := by
  have hinto : ((g.rename r).connections.values.filter (·.toNode = r.node id)).map (·.fromNode) =
      ((g.connections.values.filter (·.toNode = id)).map (·.fromNode)).map r.node := by
    rw [connections_rename, List.filter_map, List.map_map, List.map_map]
    refine congrArg (List.map _) (List.filter_congr fun c _ => ?_)
    simp [Connection.rename]
  rw [dependencies, hinto, eraseDups_map r.node.injective]
  rfl

end Queries

section Order

/-- A fold whose steps answer alike under a renaming does so as a whole. -/
theorem foldlM_rename {ε α β : Type} {step step' : β → α → Except ε β} {f : α → α} {b : β → β}
    {e : ε → ε} (h : ∀ acc a, step' (b acc) (f a) = ((step acc a).map b).mapError e) (l : List α)
    (acc : β) : (l.map f).foldlM step' (b acc) = ((l.foldlM step acc).map b).mapError e := by
  induction l generalizing acc with
  | nil => rfl
  | cons a l ih =>
    rw [List.map_cons, List.foldlM_cons, List.foldlM_cons, h]
    cases step acc a with
    | error _ => rfl
    | ok acc' => exact ih acc'

theorem cycleAt_rename (id : NodeId) (path : List NodeId) :
    cycleAt (r.node id) (path.map r.node) = (cycleAt id path).rename r := by
  have htake : (path.map r.node).takeWhile (· ≠ r.node id) =
      (path.takeWhile (· ≠ id)).map r.node := by
    rw [List.takeWhile_map]
    congr 2
    funext id'
    simp
  rw [cycleAt, htake, ← List.map_reverse]
  rfl

theorem visit_rename (fuel : ℕ) (path finished : List NodeId) (id : NodeId) :
    visit (g.rename r) fuel (path.map r.node) (finished.map r.node) (r.node id) =
      ((visit g fuel path finished id).map (List.map r.node)).mapError (CycleError.rename r) := by
  -- what is searched next has a longer path, and what came before it has finished more nodes
  induction fuel generalizing path finished id with
  | zero => exact congrArg Except.error (cycleAt_rename r id path)
  | succ fuel ih =>
    have hdependencies := foldlM_rename (ih (id :: path)) (g.dependencies id) finished
    rw [← dependencies_rename, List.map_cons] at hdependencies
    rw [visit, visit, hdependencies, cycleAt_rename]
    simp only [List.mem_map_of_injective r.node.injective]
    by_cases hfinished : id ∈ finished
    · simp only [if_pos hfinished]
      rfl
    · by_cases hpath : id ∈ path
      · simp only [if_neg hfinished, if_pos hpath]
        rfl
      · simp only [if_neg hfinished, if_neg hpath]
        cases (g.dependencies id).foldlM (visit g fuel (id :: path)) finished <;> rfl

/-- The order of the renamed graph, or its cycle. -/
theorem topologicalOrder_rename :
    (g.rename r).topologicalOrder =
      (g.topologicalOrder.map (List.map r.node)).mapError (CycleError.rename r) := by
  have hvisit := foldlM_rename (visit_rename r g (g.connectionCount + 2) []) g.nodes.keys []
  have hkeys : (g.rename r).nodes.keys = g.nodes.keys.map r.node := OrderedMap.keys_rename
  rw [topologicalOrder, topologicalOrder, connectionCount_rename, hkeys]
  rw [List.map_nil] at hvisit
  rw [hvisit]
  cases g.nodes.keys.foldlM (visit g (g.connectionCount + 2) []) [] with
  | error _ => rfl
  | ok finished => exact congrArg Except.ok List.map_reverse.symm

end Order

section Rules

theorem checkEndpoints_rename (nodes : OrderedMap NodeId Node) (c : Connection) :
    checkEndpoints (nodes.rename r.node (Node.rename r)) (c.rename r) =
      (checkEndpoints nodes c).mapError (ConnectionError.rename r) := by
  have hget : ∀ id, (nodes.rename r.node (Node.rename r)).get? (r.node id) =
      (nodes.get? id).map (Node.rename r) := OrderedMap.get?_rename
  have hslot : ∀ (n : Node) name, (n.rename r).slot? name = n.slot? name := fun _ _ => rfl
  unfold checkEndpoints
  simp only [Connection.rename, hget]
  cases nodes.get? c.fromNode with
  | none => rfl
  | some source =>
    cases nodes.get? c.toNode with
    | none => rfl
    | some target =>
      simp only [Option.map_some, hslot]
      cases source.slot? c.fromSlot with
      | none => rfl
      | some output =>
        cases target.slot? c.toSlot with
        | none => rfl
        | some input =>
          dsimp only
          split_ifs <;> rfl

theorem validateFrom_rename (nodes : OrderedMap NodeId Node) (occupied : List (NodeId × String))
    (l : List Connection) :
    validateFrom (nodes.rename r.node (Node.rename r)) (occupied.map r.slot)
        (l.map (Connection.rename r)) =
      (validateFrom nodes occupied l).mapError (ConnectionError.rename r) := by
  induction l generalizing occupied with
  | nil => rfl
  | cons c l ih =>
    have hrest := ih ((c.toNode, c.toSlot) :: occupied)
    have htaken : ((c.rename r).toNode, (c.rename r).toSlot) ∈ occupied.map r.slot ↔
        (c.toNode, c.toSlot) ∈ occupied := by
      show r.slot (c.toNode, c.toSlot) ∈ occupied.map r.slot ↔ (c.toNode, c.toSlot) ∈ occupied
      exact List.mem_map_of_injective r.slot_injective
    rw [List.map_cons, validateFrom, validateFrom, checkEndpoints_rename]
    cases checkEndpoints nodes c with
    | error _ => rfl
    | ok _ =>
      by_cases hmem : (c.toNode, c.toSlot) ∈ occupied
      · simp only [Except.mapError, if_pos hmem, if_pos (htaken.2 hmem)]
        rfl
      · simp only [Except.mapError, if_neg hmem, if_neg (mt htaken.1 hmem)]
        exact hrest

theorem validate_rename :
    (g.rename r).validate = g.validate.mapError (ConnectionError.rename r) := by
  rw [validate, connections_rename]
  exact validateFrom_rename r g.nodes [] g.connections.values

end Rules

section Types

theorem incomingType?_rename (types : TypeTable) (id : NodeId) (slot : String) :
    incomingType? (g.rename r) (types.rename r) (r.node id) slot =
      incomingType? g types id slot := by
  rw [incomingType?, incomingType?, connectionInto_rename, Option.bind_map]
  refine Option.bind_congr fun c _ => ?_
  have hnode : (g.rename r).node? (c.rename r).fromNode =
      (g.node? c.fromNode).map (Node.rename r) := node?_rename r g c.fromNode
  have htype : (types.rename r).get? (c.rename r).fromNode (c.rename r).fromSlot =
      types.get? c.fromNode c.fromSlot := TypeTable.get?_rename r types c.fromNode c.fromSlot
  rw [Function.comp_apply, htype, hnode, Option.bind_map]
  rfl

theorem slotType_rename (types : TypeTable) (id : NodeId) (n : Node) :
    slotType (g.rename r) (types.rename r) (r.node id) (n.rename r) = slotType g types id n := by
  have hinputs : (n.rename r).inputs = n.inputs := rfl
  have hwidth : dynamicWidth (g.rename r) (types.rename r) (r.node id) (n.rename r) =
      dynamicWidth g types id n := by
    simp only [dynamicWidth, incomingType?_rename, hinputs]
  funext s
  simp only [slotType, incomingType?_rename, hwidth]

theorem resolveNode_rename (types : TypeTable) (id : NodeId) :
    resolveNode (g.rename r) (types.rename r) (r.node id) = (resolveNode g types id).rename r := by
  rw [resolveNode, resolveNode, node?_rename]
  cases g.node? id with
  | none => rfl
  | some n =>
    have hslots : (n.rename r).slots = n.slots := rfl
    simp only [Option.map_some, slotType_rename, hslots]
    -- the types written are those of the whole node, so only the table varies
    generalize slotType g types id n = type
    generalize n.slots = slots
    induction slots generalizing types with
    | nil => rfl
    | cons s slots ih => exact ih (types.insert id s.name (type s))

/-- The types of the renamed graph along the renamed order, whatever the order is. -/
theorem resolveTypes_rename (order : List NodeId) :
    (g.rename r).resolveTypes (order.map r.node) = (g.resolveTypes order).rename r := by
  have hrun : ∀ types : TypeTable, (order.map r.node).foldl (resolveNode (g.rename r))
      (types.rename r) = (order.foldl (resolveNode g) types).rename r := by
    induction order with
    | nil => exact fun types => rfl
    | cons id order ih =>
      intro types
      rw [List.map_cons, List.foldl_cons, List.foldl_cons, resolveNode_rename]
      exact ih _
  exact hrun .empty

end Types

end Graph

end ShaderGraph
