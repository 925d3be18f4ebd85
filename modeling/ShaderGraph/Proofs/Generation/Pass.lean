import ShaderGraph.Proofs.Generation.Failure
import ShaderGraph.Proofs.Generation.Sections

/-!
# Passes as a whole

Which graphs have a shader, and where each node of a graph is found in its pass.

* `exists_generate_iff` : the graphs that have a shader;
* `outcomes_append` : the nodes of a pass one after the other;
* `ordered_perm`, `any_errors` : the nodes in the order of a pass, and those that fail;
* `mem_outcomes_iff`, `filter_outcomes` : every node has its outcome, with the whole table at hand;
* `published?_congr`, `isSome_published?` : what the table holds for a node.
-/

namespace ShaderGraph

open ShaderGraph.Graph

variable {g : Graph} {mode : Mode} {types types' : TypeTable} {order : List NodeId} {n : Node}

section Success

variable {settings : Settings}

/-- A graph whose connections join its nodes has a shader unless it is too large or has a cycle. -/
theorem exists_generate_iff (hjoined : g.Joined) :
    (∃ shader, generate g mode settings = .ok shader) ↔
      g.nodeCount ≤ settings.maxNodes ∧ g.Acyclic := by
  constructor
  · rintro ⟨shader, h⟩
    obtain ⟨pass, hrun, -⟩ := generate_eq_ok_iff.1 h
    obtain ⟨hlimit, order, horder, -⟩ := runPass_eq_ok_iff.1 hrun
    exact ⟨hlimit, hjoined.acyclic_of_topologicalOrder horder⟩
  · rintro ⟨hlimit, hacyclic⟩
    obtain ⟨order, horder⟩ := exists_topologicalOrder_of_acyclic hacyclic
    exact ⟨_, generate_eq (runPass_eq mode hlimit horder)⟩

end Success

section Nodes

/-- The nodes of a pass come one after the other. -/
theorem outcomes_append (g : Graph) (mode : Mode) (types : TypeTable) (table : VariableTable)
    (ids ids' : List NodeId) :
    outcomes g mode types table (ids ++ ids') = outcomes g mode types table ids ++
      outcomes g mode types (tableFrom g mode types table ids) ids' := by
  induction ids generalizing table with
  | nil => rfl
  | cons id ids ih =>
    rw [List.cons_append, tableFrom, List.foldl_cons]
    cases hn : g.node? id with
    | none =>
      rw [outcomes_cons_of_none hn, outcomes_cons_of_none hn, publishNode_of_none hn]
      exact ih table
    | some n =>
      rw [outcomes_cons_of_some hn, outcomes_cons_of_some hn, List.cons_append]
      exact congrArg (_ :: ·) (ih _)

/-- One more node. -/
theorem outcomes_concat {ids : List NodeId} {id : NodeId} (hn : g.node? id = some n) :
    outcomes g mode types .empty (ids ++ [id]) =
      outcomes g mode types .empty ids ++ [⟨n, (scopeAfter g mode types ids n).emit⟩] := by
  rw [outcomes_append, outcomes_cons_of_some hn]
  rfl

theorem errors_outcomes (mode : Mode) (types : TypeTable) (hkeyed : g.Keyed)
    (horder : g.topologicalOrder = .ok order) :
    (outcomes g mode types .empty order).filterMap (·.error?) =
      (order.filterMap g.node?).filterMap (·.failure?) := by
  rw [outcomes_eq mode types hkeyed horder, List.filterMap_map]
  refine List.filterMap_congr fun n _ => ?_
  exact error?_emit (scopeAfter g mode types order n)

theorem mem_ordered_iff (hkeyed : g.Keyed) (hkeys : g.nodes.keys ⊆ order) {n : Node} :
    n ∈ order.filterMap g.node? ↔ n ∈ g.nodes.values := by
  rw [List.mem_filterMap]
  constructor
  · rintro ⟨id, -, hn⟩
    exact OrderedMap.mem_values_of_get? hn
  · intro hn
    have hfound := hkeyed.node?_id hn
    exact ⟨n.id, hkeys (OrderedMap.mem_keys_of_get? hfound), hfound⟩

theorem nodup_ordered (hkeyed : g.Keyed) (horder : order.Nodup) :
    ((order.filterMap g.node?).map (·.id)).Nodup := by
  rw [List.map_filterMap]
  refine horder.filterMap fun id id' key hkey hkey' => ?_
  obtain ⟨n, hn, rfl⟩ := Option.map_eq_some_iff.1 hkey
  obtain ⟨m, hm, hmn⟩ := Option.map_eq_some_iff.1 hkey'
  rw [← hkeyed.id_of_node? hn, ← hkeyed.id_of_node? hm, hmn]

/-- The nodes in the order of the pass are those of the graph, each once. -/
theorem ordered_perm (hkeyed : g.Keyed) (horder : g.topologicalOrder = .ok order) :
    (order.filterMap g.node?).Perm g.nodes.values := by
  have hkeys : g.nodes.values.map (·.id) = g.nodes.keys := by
    rw [OrderedMap.values, OrderedMap.keys, List.map_map]
    exact List.map_congr_left hkeyed
  have hvalues : g.nodes.values.Nodup := .of_map (·.id) (hkeys ▸ g.nodes.nodup_keys)
  have hordered := nodup_ordered hkeyed (nodup_of_topologicalOrder horder)
  rw [List.perm_ext_iff_of_nodup hordered.of_map hvalues]
  exact fun n => mem_ordered_iff hkeyed (keys_subset_of_topologicalOrder horder)

/-- Whether the node of this identity fails. -/
def Graph.fails (g : Graph) (id : NodeId) : Bool := ((g.node? id).bind (·.failure?)).isSome

/-- The reported nodes are those that fail. -/
theorem any_errors (hkeyed : g.Keyed) (hkeys : g.nodes.keys ⊆ order) (id : NodeId) :
    ((order.filterMap g.node?).filterMap (·.failure?)).any (·.node = id) = g.fails id := by
  rw [Bool.eq_iff_iff, List.any_eq_true, fails, Option.isSome_iff_exists]
  constructor
  · rintro ⟨e, he, hid⟩
    obtain ⟨n, hn, hfailure⟩ := List.mem_filterMap.1 he
    obtain ⟨d, -, rfl⟩ := Option.map_eq_some_iff.1 hfailure
    obtain rfl : n.id = id := of_decide_eq_true hid
    have hfound := hkeyed.node?_id ((mem_ordered_iff hkeyed hkeys).1 hn)
    exact ⟨_, Option.bind_eq_some_iff.2 ⟨n, hfound, hfailure⟩⟩
  · rintro ⟨e, he⟩
    obtain ⟨n, hn, hfailure⟩ := Option.bind_eq_some_iff.1 he
    have hmem := (mem_ordered_iff hkeyed hkeys).2 (OrderedMap.mem_values_of_get? hn)
    refine ⟨e, List.mem_filterMap.2 ⟨n, hmem, hfailure⟩, ?_⟩
    obtain ⟨d, -, rfl⟩ := Option.map_eq_some_iff.1 hfailure
    exact decide_eq_true (hkeyed.id_of_node? hn)

theorem mem_outcomes_iff (mode : Mode) (types : TypeTable) (hkeyed : g.Keyed)
    (horder : g.topologicalOrder = .ok order) {o : Outcome} :
    o ∈ outcomes g mode types .empty order ↔
      o.node ∈ g.nodes.values ∧ o.result = (scopeAfter g mode types order o.node).emit := by
  have hnode : ∀ n, n ∈ order.filterMap g.node? ↔ n ∈ g.nodes.values := fun n =>
    mem_ordered_iff hkeyed (keys_subset_of_topologicalOrder horder)
  rw [outcomes_eq mode types hkeyed horder, List.mem_map]
  constructor
  · rintro ⟨n, hn, rfl⟩
    exact ⟨(hnode n).1 hn, rfl⟩
  · rintro ⟨hn, hresult⟩
    exact ⟨o.node, (hnode o.node).2 hn, by rw [← hresult]⟩

/-- A node of the graph has one outcome. -/
theorem filter_outcomes (mode : Mode) (types : TypeTable) (hkeyed : g.Keyed)
    (horder : g.topologicalOrder = .ok order) (hn : n ∈ g.nodes.values) :
    (outcomes g mode types .empty order).filter (·.node.id = n.id) =
      [⟨n, (scopeAfter g mode types order n).emit⟩] := by
  have hids := nodup_ordered hkeyed (nodup_of_topologicalOrder horder)
  have hmem := (mem_ordered_iff hkeyed (keys_subset_of_topologicalOrder horder)).2 hn
  have hone := filter_key_eq hids hmem
  rw [outcomes_eq mode types hkeyed horder, List.filter_map]
  exact congrArg (List.map _) hone

end Nodes

section Publishing

theorem published?_congr (h : ∀ slot ∈ n.outputs, types.concreteType n slot =
    types'.concreteType n slot) (slot : String) :
    n.published? mode types slot = n.published? mode types' slot := by
  have hpublish : (n.alone mode types).publish = (n.alone mode types').publish :=
    Scope.publish_congr rfl rfl rfl h
  rw [Node.published?, Node.published?, hpublish]

/-- A node publishes its output slots if it does not fail, and nothing else. -/
theorem isSome_published? (n : Node) (mode : Mode) (types : TypeTable) (name : String) :
    (n.published? mode types name).isSome = (n.failure?.isNone && (n.output? name).isSome) := by
  unfold Node.published?
  cases hfailure : n.failure? with
  | some e => rfl
  | none =>
    rw [VariableTable.get?, entries_publish]
    have hrows := isSome_lookup_rows n.id n.outputs
      (fun slot => ((n.alone mode types).outputExpression slot,
        (n.alone mode types).concreteType slot)) name
    have hfind : (n.output? name).isSome = n.outputs.any (·.name = name) := by
      rw [Node.output?, Node.outputs, List.any_filter, List.isSome_find?]
    simp only [Option.isSome_none, Bool.false_eq_true, if_false, Option.isNone_none, Bool.true_and,
      hfind, ← hrows]
    exact congrArg Option.isSome (congrArg (List.lookup _) (List.append_nil _))

end Publishing

end ShaderGraph
