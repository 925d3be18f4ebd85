import ShaderGraph.Proofs.Graph.Connecting
import ShaderGraph.Proofs.Node

/-!
# Changing the kind of a node

A node whose kind is changed gets the slots of the new kind, and the connections that lost an end go
with the slots. The ends are looked for in the whole graph, and only if the slots changed; in a
valid graph this is to remove the connections at the node whose slot is gone, and none else.

* `Node.configured` : the node afterwards;
* `configureNode_eq` : what reconfiguring does, for every graph;
* `configureNode_of_valid` : in a valid graph the ends may as well be looked for each time;
* `hasEndpoints_modify_iff` : which connections have both ends then;
* `configureNode_is_exact` : what is changed, what is removed and what stays.
-/

namespace ShaderGraph

section Slots

variable {n : Node} {name : String} {s : Slot}

/-- The node with its kind changed and its slots brought in line. -/
def Node.configured (n : Node) (f : NodeKind → NodeKind) : Node :=
  ({ n with kind := f n.kind } : Node).syncSlots.1

/-- Slots of distinct names become exactly those of the new kind. -/
theorem Node.slots_configured (hnames : (n.slots.map (·.name)).Nodup) (f : NodeKind → NodeKind) :
    (n.configured f).slots = (f n.kind).requiredSlots :=
  syncedSlots_eq (nodup_requiredSlots (f n.kind)) hnames

theorem Node.isSome_output?_iff : (n.output? name).isSome ↔ name ∈ n.outputs.map (·.name) := by
  simp [output?, outputs, List.find?_isSome, and_assoc]

theorem Node.isSome_input?_iff : (n.input? name).isSome ↔ name ∈ n.inputs.map (·.name) := by
  simp [input?, inputs, List.find?_isSome, and_assoc]

end Slots

namespace Graph

variable {g g' : Graph} {n m : Node} {id : NodeId} {c : Connection} {f : NodeKind → NodeKind}
  {r : Reconfiguration}

section Steps

theorem configureNode_eq (g : Graph) (id : NodeId) (f : NodeKind → NodeKind) :
    g.configureNode id f = (g.node? id).map fun n =>
      let nodes := g.nodes.modify id fun _ => n.configured f
      if (n.configured f).slots = n.slots then ({ g with nodes }, ⟨false, []⟩)
      else
        ({ g with nodes, connections := g.connections.filter fun _ c => hasEndpoints nodes c },
          ⟨true, g.connections.values.filter fun c => !hasEndpoints nodes c⟩) := by
  rw [configureNode, node?]
  refine Option.map_congr fun n _ => ?_
  simp only [Node.configured, Node.syncSlots]
  by_cases h : Node.syncedSlots (f n.kind).requiredSlots n.slots = n.slots
  · simp [h]
  · simp [h]

theorem configureNode_eq_none_iff : g.configureNode id f = none ↔ id ∉ g.nodes.keys := by
  rw [configureNode_eq, Option.map_eq_none_iff, node?, OrderedMap.get?_eq_none_iff]

/-- Reconfiguring changes one node where it stands, and makes no connection. -/
theorem exists_of_configureNode (h : g.configureNode id f = some (g', r)) :
    ∃ n, g.node? id = some n ∧ g'.nodes = g.nodes.modify id (fun _ => n.configured f) ∧
      g'.connections.entries.Sublist g.connections.entries ∧
      g'.version = g.version ∧ g'.name = g.name ∧ g'.nextSerial = g.nextSerial := by
  rw [configureNode_eq] at h
  obtain ⟨n, hn, h⟩ := Option.map_eq_some_iff.1 h
  refine ⟨n, hn, ?_⟩
  dsimp only at h
  split_ifs at h with hslots
  · obtain ⟨rfl, -⟩ := Prod.mk.inj h
    exact ⟨rfl, List.Sublist.refl _, rfl, rfl, rfl⟩
  · obtain ⟨rfl, -⟩ := Prod.mk.inj h
    exact ⟨rfl, List.filter_sublist, rfl, rfl, rfl⟩

end Steps

section Ends

/-- A connection that obeys the rules has both ends. -/
theorem Fits.hasEndpoints {nodes : OrderedMap NodeId Node} (h : Fits nodes c) :
    hasEndpoints nodes c = true := by
  obtain ⟨source, target, output, input, hsource, htarget, houtput, hinput, hfeed⟩ := h
  simp only [Slot.canFeed, Bool.and_eq_true] at hfeed
  obtain ⟨houtputMem, houtputName⟩ := Node.slot?_eq_some houtput
  obtain ⟨hinputMem, hinputName⟩ := Node.slot?_eq_some hinput
  rw [Graph.hasEndpoints, hsource, htarget, Option.bind_some, Option.bind_some, Bool.and_eq_true,
    Node.isSome_output?_iff, Node.isSome_input?_iff]
  constructor
  · rw [← houtputName]
    exact List.mem_map_of_mem (List.mem_filter.2 ⟨houtputMem, hfeed.1.1⟩)
  · rw [← hinputName]
    exact List.mem_map_of_mem (List.mem_filter.2 ⟨hinputMem, hfeed.1.2⟩)

/-- After a node is changed where it stands, a connection has both ends if the node still has those
that are at it. -/
theorem hasEndpoints_modify_iff (hc : hasEndpoints g.nodes c = true) (hn : g.node? id = some n) :
    hasEndpoints (g.nodes.modify id fun _ => m) c = true ↔
      (c.fromNode = id → c.fromSlot ∈ m.outputs.map (·.name)) ∧
        (c.toNode = id → c.toSlot ∈ m.inputs.map (·.name)) := by
  have hget : (g.nodes.modify id fun _ => m).get? id = some m := OrderedMap.get?_modify_self hn
  have hother : ∀ k, k ≠ id → (g.nodes.modify id fun _ => m).get? k = g.nodes.get? k :=
    fun k hk => OrderedMap.get?_modify_of_ne hk _
  rw [hasEndpoints, Bool.and_eq_true] at hc ⊢
  refine and_congr ?_ ?_
  · by_cases hsource : c.fromNode = id
    · simp [hsource, hget, ← Node.isSome_output?_iff]
    · simp [hsource, hother, hc.1]
  · by_cases htarget : c.toNode = id
    · simp [htarget, hget, ← Node.isSome_input?_iff]
    · simp [htarget, hother, hc.2]

/-- In a valid graph nothing is lost by looking for the ends each time: a node with the same slots
has them all. -/
theorem configureNode_of_valid (hvalid : g.validate = .ok ()) (id : NodeId)
    (f : NodeKind → NodeKind) :
    g.configureNode id f = (g.node? id).map fun n =>
      let nodes := g.nodes.modify id fun _ => n.configured f
      ({ g with nodes, connections := g.connections.filter fun _ c => hasEndpoints nodes c },
        ⟨(n.configured f).slots != n.slots,
          g.connections.values.filter fun c => !hasEndpoints nodes c⟩) := by
  rw [configureNode_eq]
  refine Option.map_congr fun n hn => ?_
  dsimp only
  split_ifs with hslots
  · have hall : ∀ c ∈ g.connections.values,
        hasEndpoints (g.nodes.modify id fun _ => n.configured f) c = true := by
      intro c hc
      have hfits := (validate_eq_ok_iff.1 hvalid).1 c hc
      refine (hfits.of_slots fun k a _ ha => ?_).hasEndpoints
      by_cases hk : k = id
      · subst hk
        obtain rfl : a = n := Option.some.inj (ha.symm.trans hn)
        exact ⟨_, OrderedMap.get?_modify_self ha, hslots⟩
      · exact ⟨a, by rw [OrderedMap.get?_modify_of_ne hk, ha], rfl⟩
    have hkept : (g.connections.filter fun _ c =>
        hasEndpoints (g.nodes.modify id fun _ => n.configured f) c) = g.connections := by
      refine OrderedMap.eq_of_entries (List.filter_eq_self.2 ?_)
      intro e he
      exact hall e.2 (List.mem_map_of_mem he)
    have hnone : (g.connections.values.filter fun c =>
        !hasEndpoints (g.nodes.modify id fun _ => n.configured f) c) = [] := by
      rw [List.filter_eq_nil_iff]
      intro c hc
      simp [hall c hc]
    rw [hkept, hnone, hslots, bne_self_eq_false]
  · rw [bne_iff_ne.2 hslots]

end Ends

section Exactness

/-- The graph after a node is reconfigured; without such a node it stays as it is. -/
def configured (g : Graph) (id : NodeId) (f : NodeKind → NodeKind) : Graph :=
  ((g.configureNode id f).map Prod.fst).getD g

/-- **Reconfiguring removes and reports exactly the right connections.** In a valid graph nothing
happens, and nothing is reported, exactly if there is no such node. Otherwise one node has another
kind and the slots of that kind, and all other nodes, the order of the nodes and the rest of the
graph are as before. The connections are split, in order, into those that stay and those that are
reported: the ones that start at the node where it has no output of the name any more, or end at it
where it has no input of the name. -/
theorem configureNode_is_exact (hvalid : g.validate = .ok ()) (id : NodeId)
    (f : NodeKind → NodeKind) :
    (g.configureNode id f = none ↔ id ∉ g.nodes.keys) ∧
    (id ∉ g.nodes.keys → g.configured id f = g) ∧
    ∀ g' r, g.configureNode id f = some (g', r) → ∃ n m,
      g.node? id = some n ∧ g'.node? id = some m ∧
      m.id = n.id ∧ m.serial = n.serial ∧ m.name = n.name ∧ m.kind = f n.kind ∧
      (∀ k, k ≠ id → g'.node? k = g.node? k) ∧ g'.nodes.keys = g.nodes.keys ∧
      g'.name = g.name ∧ g'.version = g.version ∧ g'.nextSerial = g.nextSerial ∧
      (r.slotsChanged = true ↔ m.slots ≠ n.slots) ∧
      g'.connections.entries.Sublist g.connections.entries ∧
      r.removed.Sublist g.connections.values ∧
      g'.connections.values.Disjoint r.removed ∧
      (g'.connections.values ++ r.removed).Perm g.connections.values ∧
      ∀ c, c ∈ r.removed ↔ c ∈ g.connections.values ∧
        (c.fromNode = id ∧ c.fromSlot ∉ m.outputs.map (·.name) ∨
          c.toNode = id ∧ c.toSlot ∉ m.inputs.map (·.name)) := by
  refine ⟨configureNode_eq_none_iff, fun h => ?_, fun g' r h => ?_⟩
  · rw [configured, configureNode_eq_none_iff.2 h]
    rfl
  · rw [configureNode_of_valid hvalid] at h
    obtain ⟨n, hn, h⟩ := Option.map_eq_some_iff.1 h
    obtain ⟨rfl, rfl⟩ := Prod.mk.inj h
    set nodes := g.nodes.modify id fun _ => n.configured f
    have hvalues := OrderedMap.values_filter g.connections fun c => hasEndpoints nodes c
    refine ⟨n, n.configured f, hn, OrderedMap.get?_modify_self hn, rfl, rfl, rfl, rfl,
      fun k hk => OrderedMap.get?_modify_of_ne hk _, OrderedMap.keys_modify _ _ _, rfl, rfl, rfl,
      bne_iff_ne, List.filter_sublist, List.filter_sublist, ?_, ?_, ?_⟩
    · rw [hvalues, List.disjoint_left]
      intro c hkept hremoved
      rw [List.mem_filter] at hkept hremoved
      simp [hkept.2] at hremoved
    · rw [hvalues]
      exact List.filter_append_perm _ _
    · intro c
      rw [List.mem_filter]
      refine and_congr_right fun hc => ?_
      have hends := ((validate_eq_ok_iff.1 hvalid).1 c hc).hasEndpoints
      rw [Bool.not_eq_true', ← Bool.not_eq_true, hasEndpoints_modify_iff hends hn]
      tauto

/-- Mesh coordinates feed two arguments of an interpolation and, in between, an absolute value. -/
def lerpGraph : Graph :=
  let node (k : ℕ) : NodeId := ⟨.ofNat k⟩
  let wire (k target : ℕ) (slot : String) : ConnectionId × Connection :=
    (⟨.ofNat k⟩, ⟨⟨.ofNat k⟩, node 1, "UV", node target, slot⟩)
  { empty "Lerp" with
    nodes := .ofEntries
      [(node 1, .ofKind (node 1) .uv), (node 2, .ofKind (node 2) (.function .lerp)),
        (node 3, .ofKind (node 3) (.function .abs))]
    connections := .ofEntries [wire 0 2 "Input3", wire 1 3 "Input1", wire 2 2 "Input1"] }

/-- The interpolation becomes a function of one argument. -/
theorem configureNode_lerpGraph :
    let id : NodeId := ⟨.ofNat 2⟩
    let lost : Connection := ⟨⟨.ofNat 0⟩, ⟨.ofNat 1⟩, "UV", id, "Input3"⟩
    lerpGraph.validate = .ok () ∧
      ∃ g r n m, lerpGraph.configureNode id (fun _ => .function .saturate) = some (g, r) ∧
        r.slotsChanged = true ∧ r.removed = [lost] ∧
        lerpGraph.node? id = some n ∧ g.node? id = some m ∧ m.serial = n.serial ∧
        m.kind = .function .saturate ∧
        (∀ k, k ≠ id → g.node? k = lerpGraph.node? k) ∧ g.nodes.keys = lerpGraph.nodes.keys ∧
        (g.connections.values ++ [lost]).Perm lerpGraph.connections.values ∧
        ∀ c, c ∈ [lost] ↔ c ∈ lerpGraph.connections.values ∧
          (c.fromNode = id ∧ c.fromSlot ∉ m.outputs.map (·.name) ∨
            c.toNode = id ∧ c.toSlot ∉ m.inputs.map (·.name)) := by
  intro id lost
  have hconfigure : ∃ g, lerpGraph.configureNode id (fun _ => .function .saturate) =
      some (g, ⟨true, [lost]⟩) := ⟨_, rfl⟩
  obtain ⟨g, hg⟩ := hconfigure
  obtain ⟨-, -, hexact⟩ :=
    configureNode_is_exact (g := lerpGraph) rfl id fun _ => .function .saturate
  obtain ⟨n, m, hn, hm, -, hserial, -, hkind, hothers, hkeys, -, -, -, -, -, -, -, hperm,
    hremoved⟩ := hexact g _ hg
  exact ⟨rfl, g, _, n, m, hg, rfl, rfl, hn, hm, hserial, hkind, hothers, hkeys, hperm, hremoved⟩

end Exactness

end Graph

end ShaderGraph
