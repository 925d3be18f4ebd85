import Mathlib.Data.List.Nodup
import ShaderGraph.Graph.Connecting
import ShaderGraph.Proofs.OrderedMap

/-!
# Well-formed graphs

The graphs of a session whose edits went through the checks: identities and serials tell nodes
apart, the connections obey the rules, and no node has a slot that its kind does not require.

* `WellFormed` : these four conditions;
* `WellFormed.eq_of_serial`, `WellFormed.node?_inj` : nodes told apart;
* `node?_addNode_self`, `node?_addNode_of_ne`, `Keyed.addNode` : a graph with one more node;
* `Shaped` : the two conditions that the types of a graph rest on;
* `Shaped.eq_of_slot_name`, `Shaped.isVector_of_slot` : what the required slots give.
-/

namespace ShaderGraph

section RequiredSlots

variable {k : NodeKind}

theorem nodup_requiredSlots (k : NodeKind) : (k.requiredSlots.map (·.name)).Nodup := by
  cases k with
  | function f => cases f <;> decide
  | texture t =>
    exact (by decide : (["RGBA", "R", "G", "B", "A", "UV"] : List String).Nodup)
  | uv => decide
  | constant c => exact (by decide : (["Value"] : List String).Nodup)
  | surfaceOutput => decide

theorem isVector_requiredSlots {s : Slot} (hs : s ∈ k.requiredSlots) {t : ConcreteType}
    (ht : s.type.concrete? = some t) : t.isVector = true := by
  have hne : ∀ s ∈ k.requiredSlots, s.type ≠ .fixed .texture2D := by
    cases k with
    | function f => cases f <;> decide
    | texture t => simp [NodeKind.requiredSlots, Slot.fixedOutput, Slot.fixedInput]
    | uv => decide
    | constant c =>
      obtain ⟨value, exposed⟩ := c
      cases value <;> simp [NodeKind.requiredSlots, Slot.fixedOutput, ConstantValue.type]
    | surfaceOutput => decide
  have htype := hne s hs
  cases hst : s.type with
  | fixed u =>
    rw [hst] at ht htype
    obtain rfl : u = t := Option.some.inj ht
    cases u with
    | texture2D => exact absurd rfl htype
    | _ => rfl
  | dynamic =>
    rw [hst] at ht
    cases ht

end RequiredSlots

namespace Graph

/-- A node is found under its own identity. -/
def Keyed (g : Graph) : Prop := ∀ e ∈ g.nodes.entries, e.2.id = e.1

instance (g : Graph) : Decidable g.Keyed :=
  inferInstanceAs (Decidable (∀ e ∈ g.nodes.entries, e.2.id = e.1))

/-- A graph as the edits of a session leave it. -/
structure WellFormed (g : Graph) : Prop where
  keyed : g.Keyed
  serials : (g.nodes.values.map (·.serial)).Nodup
  valid : g.validate = .ok ()
  /-- Every slot is one that the kind requires; required ones may be missing. -/
  slots : ∀ n ∈ g.nodes.values, n.slots ⊆ n.kind.requiredSlots

variable {g : Graph} {n m : Node} {id : NodeId}

theorem Keyed.id_of_node? (hg : g.Keyed) (h : g.node? id = some n) : n.id = id :=
  hg _ (OrderedMap.get?_eq_some_iff.1 h)

theorem Keyed.node?_id (hg : g.Keyed) (hn : n ∈ g.nodes.values) : g.node? n.id = some n := by
  obtain ⟨id, hentry⟩ := OrderedMap.mem_values_iff.1 hn
  obtain rfl : n.id = id := hg _ hentry
  exact OrderedMap.get?_eq_some_iff.2 hentry

section Adding

/-- A node is added with the next serial. -/
theorem node?_addNode_self :
    (g.addNode n).node? n.id = some { n with serial := g.nextSerial } :=
  OrderedMap.get?_insert_self

theorem node?_addNode_of_ne (hne : id ≠ n.id) : (g.addNode n).node? id = g.node? id :=
  OrderedMap.get?_insert_of_ne hne _

theorem keys_addNode (hnew : n.id ∉ g.nodes.keys) :
    (g.addNode n).nodes.keys = g.nodes.keys ++ [n.id] :=
  OrderedMap.keys_insert_of_not_mem hnew

theorem values_addNode (hnew : n.id ∉ g.nodes.keys) :
    (g.addNode n).nodes.values = g.nodes.values ++ [{ n with serial := g.nextSerial }] :=
  OrderedMap.values_insert_of_not_mem hnew

theorem nodeCount_addNode (hnew : n.id ∉ g.nodes.keys) :
    (g.addNode n).nodeCount = g.nodeCount + 1 := by
  have hentries : (g.addNode n).nodes.entries = g.nodes.entries ++ [(n.id, _)] :=
    OrderedMap.entries_insert_of_not_mem hnew
  rw [nodeCount, OrderedMap.size, hentries, List.length_append]
  rfl

theorem Keyed.addNode (hg : g.Keyed) (n : Node) : (g.addNode n).Keyed := by
  intro e he
  rcases OrderedMap.mem_entries_insert.1 he with rfl | ⟨he, -⟩
  · rfl
  · exact hg e he

end Adding

/-- Nodes are found under their identities and have slots of their kinds. The serials may clash and
the connections may be any. -/
structure Shaped (g : Graph) : Prop where
  keyed : g.Keyed
  slots : ∀ n ∈ g.nodes.values, n.slots ⊆ n.kind.requiredSlots

theorem Shaped.eq_of_slot_name (hg : g.Shaped) (hn : n ∈ g.nodes.values) {s s' : Slot}
    (hs : s ∈ n.slots) (hs' : s' ∈ n.slots) (h : s.name = s'.name) : s = s' :=
  List.inj_on_of_nodup_map (nodup_requiredSlots n.kind) (hg.slots n hn hs) (hg.slots n hn hs') h

theorem Shaped.isVector_of_slot (hg : g.Shaped) (hn : n ∈ g.nodes.values) {s : Slot}
    (hs : s ∈ n.slots) {t : ConcreteType} (ht : s.type.concrete? = some t) :
    t.isVector = true :=
  isVector_requiredSlots (hg.slots n hn hs) ht

namespace WellFormed

theorem shaped (hg : g.WellFormed) : g.Shaped := ⟨hg.keyed, hg.slots⟩

theorem eq_of_serial (hg : g.WellFormed) (hn : n ∈ g.nodes.values) (hm : m ∈ g.nodes.values)
    (h : n.serial = m.serial) : n = m :=
  List.inj_on_of_nodup_map hg.serials hn hm h

/-- Two identities at which nodes of one serial are found are the same. -/
theorem node?_inj (hg : g.WellFormed) {id' : NodeId} (hn : g.node? id = some n)
    (hm : g.node? id' = some m) (h : n.serial = m.serial) : id = id' := by
  have hnm : n = m := hg.eq_of_serial (OrderedMap.mem_values_of_get? hn)
    (OrderedMap.mem_values_of_get? hm) h
  rw [← hg.shaped.keyed.id_of_node? hn, ← hg.shaped.keyed.id_of_node? hm, hnm]

end WellFormed

end Graph

end ShaderGraph
