import ShaderGraph.Proofs.Generation.Closure
import ShaderGraph.Proofs.Generation.Pass
import ShaderGraph.Proofs.Graph.Connecting

/-!
# What a node depends on

The cone of a node is the node and all that feed it, directly or through others, with the
connections that end at them. Two graphs with the same cone of a node may differ in everything else:
in the other nodes and connections, in the order of all of them, and in what fails. The node then
has the same types and the same outcome in both.

* `Graph.inputsOf`, `Graph.source?` : what is connected to the inputs of a node;
* `SameCone` : two graphs with one cone;
* `SameCone.get?_resolveTypes` : the same types, along the order of one of the graphs;
* `SameCone.emit` : the same fragment or the same error;
* `generate_cone` : passes over both graphs.
-/

namespace ShaderGraph

open Relation

namespace Graph

variable {g g' : Graph} {types types' : TypeTable} {order order' : List NodeId} {id m : NodeId}
  {slot : String}

section Sources

/-- The connected inputs of a node, each with the node and the slot that feed it. -/
def inputsOf (g : Graph) (id : NodeId) : List (NodeId × String × String) :=
  (g.connections.values.filter (·.toNode = id)).map fun c => (c.fromNode, c.fromSlot, c.toSlot)

/-- The node and the slot that feed an input. -/
def source? (g : Graph) (id : NodeId) (slot : String) : Option (NodeId × String) :=
  (g.connectionInto id slot).map fun c => (c.fromNode, c.fromSlot)

theorem mem_inputsOf {output : String} :
    (m, output, slot) ∈ g.inputsOf id ↔ ∃ c ∈ g.connections.values,
      c.toNode = id ∧ c.toSlot = slot ∧ c.fromNode = m ∧ c.fromSlot = output := by
  simp only [inputsOf, List.mem_map, List.mem_filter, decide_eq_true_eq, Prod.mk.injEq]
  constructor
  · rintro ⟨c, ⟨hc, hid⟩, hm, houtput, hslot⟩
    exact ⟨c, hc, hid, hslot, hm, houtput⟩
  · rintro ⟨c, hc, hid, hslot, hm, houtput⟩
    exact ⟨c, ⟨hc, hid⟩, hm, houtput, hslot⟩

/-- At most one slot feeds an input of a valid graph, so the order of the connections is nothing to
it. -/
theorem source?_eq_some_iff (hvalid : g.validate = .ok ()) {output : String} :
    g.source? id slot = some (m, output) ↔ (m, output, slot) ∈ g.inputsOf id := by
  rw [source?, Option.map_eq_some_iff, mem_inputsOf]
  constructor
  · rintro ⟨c, hc, hends⟩
    obtain ⟨hmem, hid, hslot⟩ := (connectionInto_eq_some_iff hvalid).1 hc
    obtain ⟨hm, houtput⟩ := Prod.mk.inj hends
    exact ⟨c, hmem, hid, hslot, hm, houtput⟩
  · rintro ⟨c, hmem, hid, hslot, hm, houtput⟩
    exact ⟨c, (connectionInto_eq_some_iff hvalid).2 ⟨hmem, hid, hslot⟩, by rw [hm, houtput]⟩

theorem feeds_of_source? {output : String} (h : g.source? id slot = some (m, output)) :
    g.Feeds m id := by
  obtain ⟨c, hc, hends⟩ := Option.map_eq_some_iff.1 h
  obtain ⟨rfl, -⟩ := Prod.mk.inj hends
  exact feeds_of_connectionInto hc

theorem incomingType?_eq (g : Graph) (types : TypeTable) (id : NodeId) (slot : String) :
    incomingType? g types id slot = (g.source? id slot).bind fun s =>
      (types.get? s.1 s.2).or (((g.node? s.1).bind (·.output? s.2)).bind (·.type.concrete?)) := by
  rw [incomingType?, source?, Option.bind_map]
  rfl

end Sources

section Cones

/-- The two graphs agree on the node and all that feed it, directly or through others, and on what
is connected to them. -/
structure SameCone (g g' : Graph) (id : NodeId) : Prop where
  nodes : ∀ m, ReflTransGen g.Feeds m id → g'.node? m = g.node? m
  inputs : ∀ m, ReflTransGen g.Feeds m id → ∀ w, w ∈ g'.inputsOf m ↔ w ∈ g.inputsOf m

/-- Two graphs have one cone of a node if they agree on some nodes to which the node belongs, as
does all that feeds any of them. -/
theorem sameCone_of_closed (ids : List NodeId) (hid : id ∈ ids)
    (hclosed : ∀ n ∈ ids, g.dependencies n ⊆ ids) (hnodes : ∀ n ∈ ids, g'.node? n = g.node? n)
    (hinputs : ∀ n ∈ ids, (g'.inputsOf n).Perm (g.inputsOf n)) : SameCone g g' id := by
  have hmem : ∀ m, ReflTransGen g.Feeds m id → m ∈ ids := by
    intro m hm
    induction hm using ReflTransGen.head_induction_on with
    | refl => exact hid
    | head hfeeds _ ih => exact hclosed _ ih (mem_dependencies.2 hfeeds)
  exact ⟨fun m hm => hnodes m (hmem m hm), fun m hm _ => (hinputs m (hmem m hm)).mem_iff⟩

/-- The cone of a node has the cones of those that feed it. -/
theorem SameCone.of_feeds (h : SameCone g g' id) (hfeeds : g.Feeds m id) : SameCone g g' m :=
  ⟨fun k hk => h.nodes k (hk.tail hfeeds), fun k hk => h.inputs k (hk.tail hfeeds)⟩

theorem SameCone.node?_eq (h : SameCone g g' id) : g'.node? id = g.node? id := h.nodes id .refl

theorem SameCone.source?_eq (h : SameCone g g' id) (hvalid : g.validate = .ok ())
    (hvalid' : g'.validate = .ok ()) (slot : String) : g'.source? id slot = g.source? id slot := by
  refine Option.ext fun ⟨m, output⟩ => ?_
  rw [source?_eq_some_iff hvalid, source?_eq_some_iff hvalid', h.inputs id .refl]

theorem SameCone.incomingType?_eq (h : SameCone g g' id) (hvalid : g.validate = .ok ())
    (hvalid' : g'.validate = .ok ())
    (htypes : ∀ m, g.Feeds m id → ∀ name, types.get? m name = types'.get? m name) (slot : String) :
    incomingType? g types id slot = incomingType? g' types' id slot := by
  rw [Graph.incomingType?_eq, Graph.incomingType?_eq, h.source?_eq hvalid hvalid']
  refine Option.bind_congr fun ⟨m, output⟩ hsource => ?_
  have hfeeds : g.Feeds m id := feeds_of_source? hsource
  rw [htypes m hfeeds, (h.of_feeds hfeeds).node?_eq]

/-- The slots of a node have the types that they have in another graph with the same cone. -/
theorem SameCone.get?_resolveTypes (h : SameCone g g' id) (hvalid : g.validate = .ok ())
    (hvalid' : g'.validate = .ok ()) (horder : g.topologicalOrder = .ok order)
    (horder' : g'.topologicalOrder = .ok order') (hid : id ∈ g.nodes.keys) :
    ∀ name, (g.resolveTypes order).get? id name = (g'.resolveTypes order').get? id name := by
  have hperm := perm_keys_of_topologicalOrder (joined_of_validate hvalid) horder
  have hperm' := perm_keys_of_topologicalOrder (joined_of_validate hvalid') horder'
  -- along the order of the first graph: what feeds a node has a smaller cone
  suffices hall : ∀ id ∈ order, SameCone g g' id →
      ∀ name, (g.resolveTypes order).get? id name = (g'.resolveTypes order').get? id name from
    hall id (hperm.mem_iff.2 hid) h
  refine forall_mem_of_topologicalOrder horder fun id hid ih h => ?_
  obtain ⟨n, hn⟩ : ∃ n, g.node? id = some n :=
    OrderedMap.exists_get?_of_mem_keys (hperm.mem_iff.1 hid)
  have hn' : g'.node? id = some n := h.node?_eq.trans hn
  have hid' : id ∈ order' := hperm'.mem_iff.2 (OrderedMap.mem_keys_of_get? hn')
  have hincoming := h.incomingType?_eq hvalid hvalid' fun m hfeeds =>
    ih m hfeeds (h.of_feeds hfeeds)
  intro name
  rw [get?_resolveTypes_self (finished_of_topologicalOrder horder) hid hn,
    get?_resolveTypes_self (finished_of_topologicalOrder horder') hid' hn',
    slotType_congr hincoming]

end Cones

end Graph

open ShaderGraph.Graph

section Emission

variable {g g' : Graph} {types types' : TypeTable} {order order' : List NodeId} {n : Node}

/-- An input is fed what the slot at the other end of its connection publishes. -/
theorem feed?_eq (mode : Mode) (types : TypeTable) (hkeyed : g.Keyed) (hjoined : g.Joined)
    (horder : g.topologicalOrder = .ok order) (slot : Slot) :
    (scopeAfter g mode types order n).feed? slot = (g.source? n.id slot.name).bind fun s =>
      (g.node? s.1).bind (·.published? mode types s.2) := by
  unfold source?
  cases hc : g.connectionInto n.id slot.name with
  | none => rw [feed?_of_none hc]; rfl
  | some c =>
    obtain ⟨m, hm, hfeed⟩ := feed?_of_some mode hkeyed hjoined horder hc
    rw [hfeed, Option.map_some, Option.bind_some, hm, Option.bind_some]

/-- A node emits what it emits in another graph with the same cone. -/
theorem Graph.SameCone.emit (mode : Mode) (h : SameCone g g' n.id) (hkeyed : g.Keyed)
    (hkeyed' : g'.Keyed) (hvalid : g.validate = .ok ()) (hvalid' : g'.validate = .ok ())
    (horder : g.topologicalOrder = .ok order) (horder' : g'.topologicalOrder = .ok order')
    (hn : g.node? n.id = some n) :
    (scopeAfter g mode (g.resolveTypes order) order n).emit =
      (scopeAfter g' mode (g'.resolveTypes order') order' n).emit := by
  have hjoined := joined_of_validate hvalid
  have hjoined' := joined_of_validate hvalid'
  have htypes := h.get?_resolveTypes hvalid hvalid' horder horder' (OrderedMap.mem_keys_of_get? hn)
  have hfeed : ∀ slot, (scopeAfter g mode (g.resolveTypes order) order n).feed? slot =
      (scopeAfter g' mode (g'.resolveTypes order') order' n).feed? slot := by
    intro slot
    rw [feed?_eq mode _ hkeyed hjoined horder, feed?_eq mode _ hkeyed' hjoined' horder',
      h.source?_eq hvalid hvalid']
    refine Option.bind_congr fun ⟨m, output⟩ hsource => ?_
    have hfeeds : g.Feeds m n.id := feeds_of_source? hsource
    have hcone := h.of_feeds hfeeds
    rw [hcone.node?_eq]
    refine Option.bind_congr fun k hk => published?_congr (fun s _ => ?_) output
    obtain rfl := hkeyed.id_of_node? hk
    have hkinds := hcone.get?_resolveTypes hvalid hvalid' horder horder' (hjoined.left hfeeds)
    rw [TypeTable.concreteType, TypeTable.concreteType, hkinds]
  refine Scope.emit_congr rfl rfl (fun slot _ => hfeed slot) fun slot _ => ?_
  change (g.resolveTypes order).concreteType n slot = (g'.resolveTypes order').concreteType n slot
  rw [TypeTable.concreteType, TypeTable.concreteType, htypes]

end Emission

section Passes

/-- A graph over which a pass runs: its nodes are found under their identities, its connections obey
the rules and close no cycle, and it is not too large. -/
structure Graph.Passable (g : Graph) (settings : Settings) : Prop where
  keyed : g.Keyed
  valid : g.validate = .ok ()
  acyclic : g.Acyclic
  limit : g.nodeCount ≤ settings.maxNodes

/-- What the pass over the graph makes of a node: it has this outcome and no other, the sections are
filled with what it and the other nodes emit, and its slots have these types. -/
def Yields (g : Graph) (mode : Mode) (settings : Settings) (o : Outcome)
    (slotTypes : String → Option ConcreteType) : Prop :=
  ∃ order pass, g.topologicalOrder = .ok order ∧ runPass g mode settings = .ok pass ∧
    generate g mode settings =
      .ok ⟨pass.sink.assemble settings, pass.sink.registered, pass.errors⟩ ∧
    pass.sink = pass.fragments.foldl (Sink.addFragment settings.precision) .empty ∧
    pass.outcomes.filter (·.node.id = o.node.id) = [o] ∧
    (g.resolveTypes order).get? o.node.id = slotTypes

variable {g g' : Graph} {order : List NodeId} {settings : Settings} {n : Node}

theorem Graph.Passable.yields (hg : g.Passable settings) (mode : Mode)
    (horder : g.topologicalOrder = .ok order) (hn : n ∈ g.nodes.values) :
    Yields g mode settings ⟨n, (scopeAfter g mode (g.resolveTypes order) order n).emit⟩
      ((g.resolveTypes order).get? n.id) := by
  have hrun := runPass_eq mode hg.limit horder
  refine ⟨order, _, horder, hrun, generate_eq hrun, rfl, ?_, rfl⟩
  exact filter_outcomes mode _ hg.keyed horder hn

/-- **What a node emits depends only on its cone.** If two graphs that can be generated agree on a
node, on all that it depends on, and on the connections into these nodes, then it fails at the same
slot in both or emits the same in both, and its slots have the same types. -/
theorem generate_cone (g g' : Graph) (mode : Mode) (settings : Settings) (id : NodeId) (n : Node)
    (hg : g.Passable settings) (hg' : g'.Passable settings) (hn : g.node? id = some n)
    (hcone : SameCone g g' id) :
    ∃ o slotTypes, o.node = n ∧ Yields g mode settings o slotTypes ∧
      Yields g' mode settings o slotTypes := by
  obtain rfl := hg.keyed.id_of_node? hn
  obtain ⟨order, horder⟩ := exists_topologicalOrder_of_acyclic hg.acyclic
  obtain ⟨order', horder'⟩ := exists_topologicalOrder_of_acyclic hg'.acyclic
  have hn' : g'.node? n.id = some n := hcone.node?_eq.trans hn
  have hyields := hg.yields mode horder (OrderedMap.mem_values_of_get? hn)
  have hyields' := hg'.yields mode horder' (OrderedMap.mem_values_of_get? hn')
  have hemit := hcone.emit mode hg.keyed hg'.keyed hg.valid hg'.valid horder horder' hn
  have htypes : (g.resolveTypes order).get? n.id = (g'.resolveTypes order').get? n.id :=
    funext (hcone.get?_resolveTypes hg.valid hg'.valid horder horder'
      (OrderedMap.mem_keys_of_get? hn))
  rw [← hemit, ← htypes] at hyields'
  exact ⟨_, _, rfl, hyields, hyields'⟩

/-- The tiles in other surroundings: everything comes in the opposite order, and a sine that has
lost its argument is all that the surface takes. -/
def crowdedGraph : Graph :=
  let broken := ((Node.ofKind ⟨.ofNat 9⟩ (.function .sin)).keepSlots ["Output"]).1
  let wires := (tiledGraph.connections.values.filter (·.toNode ≠ ⟨.ofNat 4⟩)).reverse ++
    [⟨⟨.ofNat 0⟩, broken.id, "Output", ⟨.ofNat 4⟩, "Alpha"⟩]
  { tiledGraph with
    nodes := .ofEntries ((broken.id, broken) :: tiledGraph.nodes.entries.reverse)
    connections := .ofEntries (wires.mapIdx fun k c => (⟨.ofNat k⟩, { c with id := ⟨.ofNat k⟩ })) }

/-- The texture emits the same sample, though the shader of the other graph has an error. -/
theorem generate_cone_crowdedGraph :
    tiledGraph.Passable .standard ∧ crowdedGraph.Passable .standard ∧
    SameCone tiledGraph crowdedGraph ⟨.ofNat 3⟩ ∧
    ∃ n o slotTypes shader shader', tiledGraph.node? ⟨.ofNat 3⟩ = some n ∧ o.node = n ∧
      Yields tiledGraph .surface .standard o slotTypes ∧
      Yields crowdedGraph .surface .standard o slotTypes ∧
      slotTypes "RGBA" = some .vector4 ∧
      (o.fragment?.map fun f => f.statements.map (·.text .half)) =
        some ["half4 texture3_out = tex2D(_texture3, multiply2_out.xy);"] ∧
      generate tiledGraph .surface .standard = .ok shader ∧ shader.errors = [] ∧
      generate crowdedGraph .surface .standard = .ok shader' ∧
      shader'.errors = [⟨⟨.ofNat 9⟩, "Sin", "Input1"⟩] := by
  have hcone : SameCone tiledGraph crowdedGraph ⟨.ofNat 3⟩ :=
    sameCone_of_closed ([0, 1, 2, 3].map fun k => ⟨.ofNat k⟩) (by decide) (by decide) (by decide)
      (by decide)
  have hkeyed : crowdedGraph.Keyed := by
    unfold Keyed
    decide
  have hg : tiledGraph.Passable .standard :=
    ⟨wellFormed_tiledGraph.keyed, rfl,
      (joined_of_validate wellFormed_tiledGraph.valid).acyclic_of_topologicalOrder rfl, by decide⟩
  have hg' : crowdedGraph.Passable .standard :=
    ⟨hkeyed, rfl, (joined_of_validate rfl).acyclic_of_topologicalOrder rfl, by decide⟩
  obtain ⟨o, slotTypes, hnode, hyields, hyields'⟩ :=
    generate_cone tiledGraph crowdedGraph .surface .standard ⟨.ofNat 3⟩ _ hg hg' rfl hcone
  have hid : o.node.id = ⟨.ofNat 3⟩ := by rw [hnode]; rfl
  have hyielded := hyields
  obtain ⟨order, pass, horder, hrun, -, -, hone, rfl⟩ := hyielded
  obtain rfl := Except.ok.inj (horder.symm.trans rfl)
  obtain rfl := Except.ok.inj (hrun.symm.trans rfl)
  rw [hid] at hone
  have htexts := congrArg
    (List.map fun o : Outcome => o.fragment?.map fun f => f.statements.map (·.text .half)) hone
  refine ⟨hg, hg', hcone, _, o, _, _, _, rfl, hnode, hyields, hyields', ?_,
    (List.cons.inj (htexts.symm.trans rfl)).1, rfl, rfl, rfl, rfl⟩
  rw [hid]
  rfl

end Passes

end ShaderGraph
