import ShaderGraph.Proofs.Generation.Closure
import ShaderGraph.Proofs.Generation.Pass
import ShaderGraph.Proofs.Graph.Connecting
import ShaderGraph.Proofs.Graph.StableOrder
import ShaderGraph.Proofs.Shader.Sink

/-!
# A new node only appends

A node that is added has no connections yet. It comes last in the order, nothing that was there
reads it, and so a pass does what it did before and then comes to this node.

* `Keeps` : a graph that has all that another one has;
* `Keeps.resolveTypes_eq`, `Keeps.outcomes_eq` : the types and the outcomes of the nodes of the
  other;
* `runPass_addNode` : the pass with one more outcome;
* `generate_addNode` : what this means for the shader.
-/

namespace ShaderGraph

namespace Graph

variable {g g' : Graph} {types : TypeTable} {order : List NodeId} {id : NodeId} {n : Node}

section Keeping

/-- The second graph has the nodes of the first and the same connections. -/
structure Keeps (g g' : Graph) : Prop where
  nodes : ∀ id ∈ g.nodes.keys, g'.node? id = g.node? id
  connections : g'.connections = g.connections

theorem keeps_addNode (hnew : n.id ∉ g.nodes.keys) : Keeps g (g.addNode n) := by
  refine ⟨fun id hid => node?_addNode_of_ne ?_, rfl⟩
  rintro rfl
  exact hnew hid

theorem Keeps.connectionInto_eq (h : Keeps g g') (id : NodeId) (slot : String) :
    g'.connectionInto id slot = g.connectionInto id slot := by
  rw [connectionInto, connectionInto, h.connections]

theorem Keeps.incomingType?_eq (h : Keeps g g') (hg : g.Joined) (types : TypeTable) (id : NodeId)
    (slot : String) : incomingType? g' types id slot = incomingType? g types id slot := by
  rw [incomingType?, incomingType?, h.connectionInto_eq]
  refine Option.bind_congr fun c hc => ?_
  rw [h.nodes c.fromNode (hg.left (feeds_of_connectionInto hc))]

theorem Keeps.resolveNode_eq (h : Keeps g g') (hg : g.Joined) (types : TypeTable)
    (hid : id ∈ g.nodes.keys) : resolveNode g' types id = resolveNode g types id := by
  have htypes : slotType g' types id = slotType g types id :=
    funext fun n => slotType_congr (h.incomingType?_eq hg types id) n
  rw [resolveNode, resolveNode, h.nodes id hid, htypes]

theorem Keeps.resolveTypes_eq (h : Keeps g g') (hg : g.Joined) (horder : order ⊆ g.nodes.keys) :
    g'.resolveTypes order = g.resolveTypes order :=
  List.foldl_ext _ _ _ fun types _ hid => h.resolveNode_eq hg types (horder hid)

/-- A new node leaves the types of the others. -/
theorem get?_resolveTypes_addNode (hg : g.Joined) (hnew : n.id ∉ g.nodes.keys)
    (horder : order ⊆ g.nodes.keys) (hid : id ∈ g.nodes.keys) (name : String) :
    ((g.addNode n).resolveTypes (order ++ [n.id])).get? id name =
      (g.resolveTypes order).get? id name := by
  have hne : id ≠ n.id := fun heq => hnew (heq ▸ hid)
  rw [← (keeps_addNode hnew).resolveTypes_eq hg horder, resolveTypes, List.foldl_append]
  exact get?_resolveNode_of_ne hne name

end Keeping

end Graph

open ShaderGraph.Graph

section Emission

variable {g g' : Graph} {mode : Mode} {types types' : TypeTable} {table : VariableTable}
  {ids : List NodeId} {id : NodeId} {n : Node}

theorem Graph.Keeps.emit_eq (h : Keeps g g')
    (htypes : ∀ slot ∈ n.slots, types'.concreteType n slot = types.concreteType n slot) :
    Scope.emit ⟨g', n, mode, types', table⟩ = Scope.emit ⟨g, n, mode, types, table⟩ := by
  refine Scope.emit_congr rfl rfl (fun slot _ => ?_) htypes
  rw [Scope.feed?, Scope.feed?, h.connectionInto_eq]

theorem Graph.Keeps.publishNode_eq (h : Keeps g g') (hn : g.node? id = some n)
    (htypes : ∀ slot ∈ n.slots, types'.concreteType n slot = types.concreteType n slot) :
    publishNode g' mode types' table id = publishNode g mode types table id := by
  have hn' : g'.node? id = some n := (h.nodes id (OrderedMap.mem_keys_of_get? hn)).trans hn
  have hemit : Scope.emit ⟨g', n, mode, types', table⟩ = Scope.emit ⟨g, n, mode, types, table⟩ :=
    h.emit_eq htypes
  cases he : Scope.emit ⟨g, n, mode, types, table⟩ with
  | error e => rw [publishNode_of_error hn he, publishNode_of_error hn' (hemit.trans he)]
  | ok f =>
    rw [publishNode_of_ok hn he, publishNode_of_ok hn' (hemit.trans he)]
    refine Scope.publish_congr rfl rfl rfl fun slot hslot => ?_
    exact htypes slot (mem_slots_of_outputs hslot).1

/-- The nodes of a graph have the outcomes that they have where there are more. -/
theorem Graph.Keeps.outcomes_eq (h : Keeps g g') (hids : ids ⊆ g.nodes.keys)
    (htypes : ∀ n ∈ g.nodes.values, ∀ slot ∈ n.slots,
      types'.concreteType n slot = types.concreteType n slot) :
    outcomes g' mode types' table ids = outcomes g mode types table ids := by
  induction ids generalizing table with
  | nil => rfl
  | cons id ids ih =>
    rw [List.cons_subset] at hids
    obtain ⟨n, hn⟩ : ∃ n, g.node? id = some n := OrderedMap.exists_get?_of_mem_keys hids.1
    have hn' : g'.node? id = some n := (h.nodes id hids.1).trans hn
    have hslots := htypes n (OrderedMap.mem_values_of_get? hn)
    rw [outcomes_cons_of_some hn, outcomes_cons_of_some hn', h.emit_eq hslots,
      h.publishNode_eq hn hslots, ih hids.2]

end Emission

section Passes

variable {g : Graph} {mode : Mode} {settings : Settings} {order : List NodeId} {pass : Pass}
  {n : Node}

theorem grows_foldl_addFragment (p : Precision) (fs : List Fragment) (k : Sink) :
    k.Grows (fs.foldl (Sink.addFragment p) k) := by
  refine foldl_addFragment_induction (P := k.Grows) ?_ ?_ (.refl k) p fs
  · exact fun k' s text unique _ h => h.trans (Sink.grows_addChunk k' s text unique)
  · exact fun k' q h => h.trans (Sink.grows_addProperty k' q)

/-- A pass comes to the new node after all that it did before. -/
theorem outcomes_addNode (mode : Mode) (hkeyed : g.Keyed) (hjoined : g.Joined)
    (hnew : n.id ∉ g.nodes.keys) (horder : g.topologicalOrder = .ok order) :
    ∃ o, outcomes (g.addNode n) mode ((g.addNode n).resolveTypes (order ++ [n.id])) .empty
        (order ++ [n.id]) =
      outcomes g mode (g.resolveTypes order) .empty order ++ [o] := by
  have hkeys : order ⊆ g.nodes.keys := (perm_keys_of_topologicalOrder hjoined horder).subset
  have htypes : ∀ m ∈ g.nodes.values, ∀ slot ∈ m.slots,
      ((g.addNode n).resolveTypes (order ++ [n.id])).concreteType m slot =
        (g.resolveTypes order).concreteType m slot := by
    intro m hm slot _
    have hid : m.id ∈ g.nodes.keys := OrderedMap.mem_keys_of_get? (hkeyed.node?_id hm)
    rw [TypeTable.concreteType, TypeTable.concreteType,
      get?_resolveTypes_addNode hjoined hnew hkeys hid]
  rw [outcomes_concat node?_addNode_self, (keeps_addNode hnew).outcomes_eq hkeys htypes]
  exact ⟨_, rfl⟩

theorem runPass_addNode (hkeyed : g.Keyed) (hjoined : g.Joined) (hnew : n.id ∉ g.nodes.keys)
    (hroom : g.nodeCount < settings.maxNodes) (hrun : runPass g mode settings = .ok pass) :
    ∃ o pass', runPass (g.addNode n) mode settings = .ok pass' ∧
      pass'.outcomes = pass.outcomes ++ [o] ∧ pass.sink.Grows pass'.sink := by
  obtain ⟨-, order, horder, rfl⟩ := runPass_eq_ok_iff.1 hrun
  have horder' : (g.addNode n).topologicalOrder = .ok (order ++ [n.id]) := by
    rw [topologicalOrder_addNode hjoined hnew, horder]
    rfl
  have hlimit : (g.addNode n).nodeCount ≤ settings.maxNodes := by
    rw [nodeCount_addNode hnew]
    exact hroom
  obtain ⟨o, houtcomes⟩ := outcomes_addNode mode hkeyed hjoined hnew horder
  have hfragments : fragmentsOf (g.addNode n) mode (order ++ [n.id]) =
      fragmentsOf g mode order ++ [o].filterMap (·.fragment?) := by
    rw [fragmentsOf, houtcomes, List.filterMap_append]
    rfl
  refine ⟨o, _, runPass_eq mode hlimit horder', houtcomes, ?_⟩
  rw [hfragments, List.foldl_append]
  exact grows_foldl_addFragment settings.precision _ _

/-- **A new node only appends.** Where nodes are found under their identities and connections join
nodes, a node under a new identity comes last in the order, or the cycle is the same. A graph that
has a shader still has one with the new node, if there is room for it; each section, the properties
and the errors begin with what they were, and every slot that was there has its type. -/
theorem generate_addNode (g : Graph) (n : Node) (mode : Mode) (settings : Settings)
    (hkeyed : g.Keyed) (hjoined : g.Joined) (hnew : n.id ∉ g.nodes.keys)
    (hroom : g.nodeCount < settings.maxNodes) :
    (∀ order, g.topologicalOrder = .ok order →
      (g.addNode n).topologicalOrder = .ok (order ++ [n.id])) ∧
    (∀ e, g.topologicalOrder = .error e → (g.addNode n).topologicalOrder = .error e) ∧
    ∀ shader, generate g mode settings = .ok shader → ∃ order pass pass' shader',
      g.topologicalOrder = .ok order ∧ runPass g mode settings = .ok pass ∧
      shader = ⟨pass.sink.assemble settings, pass.sink.registered, pass.errors⟩ ∧
      runPass (g.addNode n) mode settings = .ok pass' ∧
      generate (g.addNode n) mode settings = .ok shader' ∧
      shader' = ⟨pass'.sink.assemble settings, pass'.sink.registered, pass'.errors⟩ ∧
      (∀ s, pass.sink.chunks s <+: pass'.sink.chunks s) ∧
      shader.properties <+: shader'.properties ∧ shader.errors <+: shader'.errors ∧
      ∀ m ∈ g.nodes.values, ∀ slot ∈ m.slots, ∃ t,
        (g.resolveTypes order).get? m.id slot.name = some t ∧
        ((g.addNode n).resolveTypes (order ++ [n.id])).get? m.id slot.name = some t := by
  refine ⟨fun order h => ?_, fun e h => ?_, fun shader h => ?_⟩
  · rw [topologicalOrder_addNode hjoined hnew, h]
    rfl
  · rw [topologicalOrder_addNode hjoined hnew, h]
    rfl
  · obtain ⟨pass, hrun, rfl⟩ := generate_eq_ok_iff.1 h
    obtain ⟨-, order, horder, -⟩ := runPass_eq_ok_iff.1 hrun
    obtain ⟨o, pass', hrun', houtcomes, hgrows⟩ :=
      runPass_addNode hkeyed hjoined hnew hroom hrun
    refine ⟨order, pass, pass', _, horder, hrun, rfl, hrun', generate_eq hrun', rfl, hgrows.chunks,
      hgrows.registered, ?_, fun m hm slot hslot => ?_⟩
    · show pass.errors <+: pass'.errors
      rw [Pass.errors, Pass.errors, houtcomes, List.filterMap_append]
      exact List.prefix_append _ _
    · obtain ⟨t, ht⟩ := exists_get?_resolveTypes hkeyed horder hm hslot
      have hid : m.id ∈ g.nodes.keys := OrderedMap.mem_keys_of_get? (hkeyed.node?_id hm)
      have hkeys : order ⊆ g.nodes.keys := (perm_keys_of_topologicalOrder hjoined horder).subset
      exact ⟨t, ht, (get?_resolveTypes_addNode hjoined hnew hkeys hid slot.name).trans ht⟩

/-- A texture that is not among the tiles. -/
def spareTexture : Node := .ofKind ⟨.ofNat 9⟩ (.texture .unbound)

/-- A second texture is sampled after all else; the mesh coordinates are there already. -/
theorem generate_addNode_tiledGraph :
    tiledGraph.Keyed ∧ tiledGraph.Joined ∧ spareTexture.id ∉ tiledGraph.nodes.keys ∧
    tiledGraph.nodeCount < Settings.standard.maxNodes ∧
    ∃ order pass pass' shader', tiledGraph.topologicalOrder = .ok order ∧
      (tiledGraph.addNode spareTexture).topologicalOrder = .ok (order ++ [spareTexture.id]) ∧
      runPass tiledGraph .surface .standard = .ok pass ∧
      runPass (tiledGraph.addNode spareTexture) .surface .standard = .ok pass' ∧
      generate (tiledGraph.addNode spareTexture) .surface .standard = .ok shader' ∧
      (∀ s, pass.sink.chunks s <+: pass'.sink.chunks s) ∧
      pass.sink.body.length = 5 ∧
      pass'.sink.body.drop 5 = ["half4 texture5_out = tex2D(_texture5, IN.meshUV0.xy);"] ∧
      pass.sink.vertex = [meshUVChunk] ∧ pass'.sink.vertex = [meshUVChunk] ∧
      pass'.sink.registered.map (·.name) = ["_vector21", "_texture3", "_texture5"] := by
  have hnew : spareTexture.id ∉ tiledGraph.nodes.keys := by decide
  have hroom : tiledGraph.nodeCount < Settings.standard.maxNodes := by decide
  have hjoined := joined_of_validate wellFormed_tiledGraph.valid
  obtain ⟨horder', -, hshader⟩ := generate_addNode tiledGraph spareTexture .surface .standard
    wellFormed_tiledGraph.keyed hjoined hnew hroom
  obtain ⟨order, pass, pass', shader', horder, hrun, -, hrun', hgenerate', -, hchunks, -⟩ :=
    hshader _ rfl
  refine ⟨wellFormed_tiledGraph.keyed, hjoined, hnew, hroom, order, pass, pass', shader', horder,
    horder' order horder, hrun, hrun', hgenerate', hchunks, ?_⟩
  obtain rfl := Except.ok.inj (hrun.symm.trans rfl)
  obtain rfl := Except.ok.inj (hrun'.symm.trans rfl)
  exact ⟨rfl, rfl, rfl, rfl, rfl⟩

end Passes

end ShaderGraph
