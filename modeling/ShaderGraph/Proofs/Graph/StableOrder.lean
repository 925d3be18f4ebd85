import ShaderGraph.Proofs.Graph.TopologicalOrder
import ShaderGraph.Proofs.Graph.WellFormed

/-!
# The topological order is stable

The search descends from a node only into those that feed it and are not finished yet. Where all of
them are, it finishes the node right away (`visit_of_finished`); so nodes that come after those that
feed them are finished in the order in which they come.

* `foldlM_visit_of_finished` : a search that never descends;
* `topologicalOrder_stable` : the nodes of a graph that are in order already stay so;
* `topologicalOrder_addNode` : a node without connections comes last.
-/

namespace ShaderGraph.Graph

variable {g : Graph} {id : NodeId} {path finished l : List NodeId} {fuel : ℕ}

section Descending

/-- Finished nodes are passed over. -/
theorem foldlM_visit_of_subset (h : l ⊆ finished) :
    l.foldlM (visit g (fuel + 1) path) finished = .ok finished := by
  induction l with
  | nil => rfl
  | cons id l ih =>
    rw [List.cons_subset] at h
    rw [List.foldlM_cons, visit, if_pos h.1]
    exact ih h.2

/-- A node is finished at once if those that feed it are. -/
theorem visit_of_finished (hnew : id ∉ finished) (hpath : id ∉ path)
    (hfed : ∀ d, g.Feeds d id → d ∈ finished) :
    visit g (fuel + 2) path finished id = .ok (id :: finished) := by
  have hdependencies : g.dependencies id ⊆ finished := fun d hd => hfed d (mem_dependencies.1 hd)
  rw [visit, if_neg hnew, if_neg hpath, foldlM_visit_of_subset hdependencies]

/-- Nodes that come after those that feed them are finished one after the other. -/
theorem foldlM_visit_of_finished (h : g.Finished l.reverse) :
    l.foldlM (visit g (fuel + 2) []) [] = .ok l.reverse := by
  induction l using List.reverseRecOn with
  | nil => rfl
  | append_singleton l id ih =>
    rw [List.reverse_append, List.reverse_singleton, List.singleton_append] at h ⊢
    obtain ⟨hnew, hfed, hrest⟩ := h
    rw [List.foldlM_append, ih hrest]
    show [id].foldlM (visit g (fuel + 2) []) l.reverse = .ok (id :: l.reverse)
    rw [List.foldlM_cons, visit_of_finished hnew (List.not_mem_nil) hfed]
    rfl

end Descending

section Stability

theorem topologicalOrder_of_feedingOrder (h : g.FeedingOrder g.nodes.keys) :
    g.topologicalOrder = .ok g.nodes.keys := by
  rw [topologicalOrder, foldlM_visit_of_finished (finished_of_feedingOrder h)]
  exact congrArg Except.ok (List.reverse_reverse _)

/-- **The order is stable.** Where connections join nodes of the graph, the order is that of the
node map exactly if the map lists the feeding node of each connection before the node it feeds; and
then it stays so in whatever order the connections come. -/
theorem topologicalOrder_stable (g : Graph) (hg : g.Joined) :
    (g.topologicalOrder = .ok g.nodes.keys ↔ ∀ c ∈ g.connections.values,
      g.nodes.keys.idxOf c.fromNode < g.nodes.keys.idxOf c.toNode) ∧
    ((∀ c ∈ g.connections.values,
        g.nodes.keys.idxOf c.fromNode < g.nodes.keys.idxOf c.toNode) →
      ∀ connections : OrderedMap ConnectionId Connection,
        connections.values.Perm g.connections.values →
          { g with connections }.topologicalOrder = .ok g.nodes.keys) := by
  refine ⟨⟨fun horder c hc => ?_, fun hsorted => ?_⟩, fun hsorted connections hperm => ?_⟩
  · exact idxOf_lt_of_topologicalOrder horder (hg c hc).2 (feeds_of_mem hc)
  · exact topologicalOrder_of_feedingOrder ⟨.refl _, hsorted⟩
  · have hsorted' : { g with connections }.FeedingOrder g.nodes.keys :=
      ⟨.refl _, fun c hc => hsorted c (hperm.mem_iff.1 hc)⟩
    exact topologicalOrder_of_feedingOrder hsorted'

/-- Three nodes, each fed by all before it. -/
def sortedGraph : Graph :=
  let node (k : ℕ) : NodeId := ⟨.ofNat k⟩
  { loopGraph with
    nodes := .ofEntries ([1, 2, 3].map fun k => (node k, .ofKind (node k) (.function .add)))
    connections := loopGraph.connections.erase ⟨.ofNat 3⟩ }

theorem topologicalOrder_sortedGraph :
    let backwards := OrderedMap.ofEntries sortedGraph.connections.entries.reverse
    sortedGraph.Joined ∧ sortedGraph.nodes.keys = [⟨.ofNat 1⟩, ⟨.ofNat 2⟩, ⟨.ofNat 3⟩] ∧
      sortedGraph.connectionCount = 3 ∧ sortedGraph.topologicalOrder = .ok sortedGraph.nodes.keys ∧
      backwards.values ≠ sortedGraph.connections.values ∧
      { sortedGraph with connections := backwards }.topologicalOrder =
        .ok sortedGraph.nodes.keys := by
  intro backwards
  have hjoined : sortedGraph.Joined := by unfold Joined; decide
  have hsorted : ∀ c ∈ sortedGraph.connections.values,
      sortedGraph.nodes.keys.idxOf c.fromNode < sortedGraph.nodes.keys.idxOf c.toNode := by decide
  obtain ⟨hiff, hany⟩ := topologicalOrder_stable sortedGraph hjoined
  exact ⟨hjoined, rfl, rfl, hiff.2 hsorted, by decide, hany hsorted backwards (by decide)⟩

end Stability

section Adding

variable {n : Node}

/-- A new node without connections comes last. -/
theorem topologicalOrder_addNode (hg : g.Joined) (hnew : n.id ∉ g.nodes.keys) :
    (g.addNode n).topologicalOrder = g.topologicalOrder.map (· ++ [n.id]) := by
  have hconnections : (g.addNode n).connections = g.connections := rfl
  rw [topologicalOrder, keys_addNode hnew, visit_start_congr hconnections]
  cases hsearch : g.nodes.keys.foldlM (visit g (g.connectionCount + 2) []) [] with
  | error e =>
    have hall : (g.nodes.keys ++ [n.id]).foldlM (visit g (g.connectionCount + 2) []) [] =
        .error e := by
      rw [List.foldlM_append, hsearch]
      rfl
    rw [hall, topologicalOrder, hsearch]
    rfl
  | ok finished =>
    have horder : g.topologicalOrder = .ok finished.reverse := by rw [topologicalOrder, hsearch]
    -- what is finished are the old nodes, and none of them feeds the new one
    have hold : n.id ∉ finished := fun hmem =>
      hnew ((perm_keys_of_topologicalOrder hg horder).mem_iff.1 (List.mem_reverse.2 hmem))
    have hfed : ∀ d, g.Feeds d n.id → d ∈ finished := by
      rintro d ⟨c, hc, -, hto⟩
      exact absurd (hto ▸ (hg c hc).2) hnew
    have hall : (g.nodes.keys ++ [n.id]).foldlM (visit g (g.connectionCount + 2) []) [] =
        .ok (n.id :: finished) := by
      rw [List.foldlM_append, hsearch]
      show [n.id].foldlM (visit g (g.connectionCount + 2) []) finished = .ok (n.id :: finished)
      rw [List.foldlM_cons, visit_of_finished hold List.not_mem_nil hfed]
      rfl
    rw [hall, horder, Except.map, ← List.reverse_cons]

end Adding

end ShaderGraph.Graph
