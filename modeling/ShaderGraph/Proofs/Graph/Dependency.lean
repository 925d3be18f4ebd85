import Mathlib.Data.List.Chain
import Mathlib.Logic.Relation
import ShaderGraph.Graph
import ShaderGraph.Proofs.OrderedMap

/-!
# Dependency between nodes

One node feeds another if a connection runs from it into the other. This file has the relation, the
graphs without a cycle of it, and what a list of nodes has to be to show a cycle.

* `Graph.Feeds`, `Graph.Acyclic`, `Graph.Joined` : the relation and two conditions on it;
* `Graph.IsCycle` : a list of nodes that runs around a cycle.
-/

namespace ShaderGraph.Graph

open Relation

variable {g : Graph} {a b : NodeId}

section Feeding

/-- A connection runs from the first node into the second. -/
def Feeds (g : Graph) (a b : NodeId) : Prop :=
  ∃ c ∈ g.connections.values, c.fromNode = a ∧ c.toNode = b

/-- No node feeds itself, directly or through others. -/
def Acyclic (g : Graph) : Prop := ∀ n, ¬ TransGen g.Feeds n n

/-- Every connection joins two nodes of the graph. -/
def Joined (g : Graph) : Prop :=
  ∀ c ∈ g.connections.values, c.fromNode ∈ g.nodes.keys ∧ c.toNode ∈ g.nodes.keys

theorem feeds_of_mem {c : Connection} (h : c ∈ g.connections.values) :
    g.Feeds c.fromNode c.toNode :=
  ⟨c, h, rfl, rfl⟩

theorem feeds_of_connectionInto {slot : String} {c : Connection}
    (h : g.connectionInto b slot = some c) : g.Feeds c.fromNode b := by
  have hfeeds := List.find?_some h
  rw [Connection.feeds, Bool.and_eq_true, beq_iff_eq] at hfeeds
  exact ⟨c, List.mem_of_find?_eq_some h, rfl, hfeeds.1⟩

/-- The dependencies of a node are the nodes that feed it. -/
theorem mem_dependencies : a ∈ g.dependencies b ↔ g.Feeds a b := by
  simp [dependencies, List.mem_eraseDups, Feeds, and_assoc, and_comm]

theorem Joined.left (hg : g.Joined) (h : g.Feeds a b) : a ∈ g.nodes.keys := by
  obtain ⟨c, hc, rfl, -⟩ := h
  exact (hg c hc).1

/-- Fewer connections make no new cycle. -/
theorem Acyclic.mono {g' : Graph} (hg : g.Acyclic) (h : ∀ a b, g'.Feeds a b → g.Feeds a b) :
    g'.Acyclic :=
  fun n hn => hg n (TransGen.mono h n n hn)

end Feeding

section Cycles

/-- The nodes are distinct, each is fed by the next one and the last by the first. -/
structure IsCycle (g : Graph) (nodes : List NodeId) : Prop where
  nonempty : nodes ≠ []
  nodup : nodes.Nodup
  fed : nodes.IsChain fun a b => g.Feeds b a
  closed : g.Feeds (nodes.head nonempty) (nodes.getLast nonempty)

variable {nodes : List NodeId}

theorem IsCycle.not_acyclic (h : g.IsCycle nodes) : ¬ g.Acyclic := by
  intro hg
  have hback : ReflTransGen (fun a b => g.Feeds b a) (nodes.head h.nonempty)
      (nodes.getLast h.nonempty) :=
    List.relationReflTransGen_of_exists_isChain nodes h.fed h.nonempty
  have hforth : ReflTransGen g.Feeds (nodes.getLast h.nonempty) (nodes.head h.nonempty) :=
    reflTransGen_swap.1 hback
  exact hg _ (TransGen.head' h.closed hforth)

/-- Every node of a cycle feeds some node. -/
theorem IsCycle.exists_feeds (h : g.IsCycle nodes) (ha : a ∈ nodes) : ∃ b, g.Feeds a b := by
  obtain ⟨l₁, l₂, rfl⟩ := List.append_of_mem ha
  rcases List.eq_nil_or_concat l₁ with rfl | ⟨l, b, rfl⟩
  · exact ⟨_, h.closed⟩
  · have hchain := h.fed
    rw [List.concat_eq_append, List.append_assoc] at hchain
    exact ⟨b, (List.isChain_append_cons_cons.1 hchain).2.1⟩

end Cycles

end ShaderGraph.Graph
