import ShaderGraph.Emission
import ShaderGraph.Proofs.Graph.Numbering
import ShaderGraph.Proofs.Graph.WellFormed

/-!
# What loading asks of a graph

A document writes a node beside its key, and the node has an identity of its own; the same holds of
connections. Edits keep the two equal and the names of the slots of a node distinct. Loading asks
for neither: it admits the graphs whose version, connections and serials pass its checks, and those
only.

* `Graph.Addressed` : keys are identities, and slot names are distinct;
* `storable_of_ofDocument` : what a loaded graph has passed;
* `feed?_of_stray` : nothing feeds a node whose identity is not among the keys;
* `loads_exactly_storable` : the graphs that loading admits;
* `loading_admits_strays` : it admits graphs that are not addressed, in each of the three ways.
-/

namespace ShaderGraph.Graph

variable {g : Graph} {n : Node}

section Addresses

/-- Every connection is stored under its own identity. -/
def ConnectionsKeyed (g : Graph) : Prop := ∀ e ∈ g.connections.entries, e.2.id = e.1

/-- No node has two slots of one name. -/
def SlotsDistinct (g : Graph) : Prop := ∀ n ∈ g.nodes.values, (n.slots.map (·.name)).Nodup

/-- Nodes, connections and slots are found under what identifies them. -/
structure Addressed (g : Graph) : Prop where
  nodes : g.Keyed
  connections : g.ConnectionsKeyed
  slots : g.SlotsDistinct

/-- The words of constants have no part in this. -/
theorem addressed_canonical : g.canonical.Addressed ↔ g.Addressed := by
  have hnodes : g.canonical.Keyed ↔ g.Keyed := List.forall_mem_map
  have hslots : g.canonical.SlotsDistinct ↔ g.SlotsDistinct := by
    unfold SlotsDistinct
    rw [canonical, OrderedMap.values, OrderedMap.values, List.map_map, List.forall_mem_map,
      List.forall_mem_map]
    rfl
  constructor
  · rintro ⟨hn, hc, hs⟩
    exact ⟨hnodes.1 hn, hc, hslots.1 hs⟩
  · rintro ⟨hn, hc, hs⟩
    exact ⟨hnodes.2 hn, hc, hslots.2 hs⟩

end Addresses

section Loading

theorem validate_of_canonical (h : g.canonical.validate = .ok ()) : g.validate = .ok () := by
  rw [validate_eq_ok_iff] at h ⊢
  refine ⟨fun c hc => (h.1 c hc).of_slots fun id n _ hn => ?_, h.2⟩
  rw [get?_canonical] at hn
  obtain ⟨m, hm, rfl⟩ := Option.map_eq_some_iff.1 hn
  exact ⟨m, hm, rfl⟩

/-- Raising the counter leaves the connections and the nodes. -/
theorem validate_raiseSerial (g : Graph) : g.raiseSerial.validate = g.validate := rfl

/-- A graph that was loaded, up to the words of its constants, has passed every check. -/
theorem storable_of_ofDocument {document : String} (hnext : g.nextSerial ≤ 0xffffffff)
    (h : ofDocument document = .ok g.canonical) : g.Storable := by
  have hnumbered := numbered_of_ofDocument h hnext
  obtain ⟨-, g₁, -, -, -, hvalid, -, hraised⟩ := exists_raiseSerial_of_ofDocument h
  rw [← validate_raiseSerial, ← hraised] at hvalid
  have hserials := hnumbered.serials
  rw [map_serial_canonical] at hserials
  refine ⟨hnumbered.version, validate_of_canonical hvalid, hserials, fun n hn => ?_, hnext⟩
  have hmem : n.serial ∈ g.canonical.nodes.values.map (·.serial) := by
    rw [map_serial_canonical]
    exact List.mem_map_of_mem hn
  obtain ⟨m, hm, hserial⟩ := List.mem_map.1 hmem
  exact hserial ▸ hnumbered.below m hm

/-- Connections end at keys, and what feeds a node is looked for at its identity. -/
theorem feed?_of_stray (hvalid : g.validate = .ok ()) (hstray : n.id ∉ g.nodes.keys) (mode : Mode)
    (types : TypeTable) (table : VariableTable) (slot : Slot) :
    Scope.feed? ⟨g, n, mode, types, table⟩ slot = none := by
  have hinto : g.connectionInto n.id slot.name = none := by
    cases hc : g.connectionInto n.id slot.name with
    | none => rfl
    | some c =>
      obtain ⟨c, hmem, -, hto⟩ := feeds_of_connectionInto hc
      exact absurd (hto ▸ (joined_of_validate hvalid c hmem).2) hstray
  exact congrArg (Option.bind · _) hinto

/-- **What loading admits.** A graph, up to the words of its constants, comes from some document
exactly if its version is known, its connections obey the rules and its serials are distinct and
below the counter. Whether it is addressed is not asked, and loading does not change that. Where the
identity of a node is not among the keys, connections into the node do not reach it: none of its
inputs is fed, in no pass. -/
theorem loads_exactly_storable (hnext : g.nextSerial ≤ 4294967295) :
    ((∃ document, ofDocument document = .ok g.canonical) ↔
        g.version ≤ 1 ∧ g.validate = .ok () ∧ (g.nodes.values.map (·.serial)).Nodup ∧
          ∀ n ∈ g.nodes.values, n.serial < g.nextSerial) ∧
      (g.canonical.Addressed ↔ g.Addressed) ∧
      (g.validate = .ok () → ∀ n ∈ g.nodes.values, n.id ∉ g.nodes.keys →
        ∀ mode types table slot, Scope.feed? ⟨g, n, mode, types, table⟩ slot = none) := by
  refine ⟨⟨?_, ?_⟩, addressed_canonical, fun hvalid n _ hstray => feed?_of_stray hvalid hstray⟩
  · rintro ⟨document, h⟩
    obtain ⟨hversion, hvalid, hserials, hbelow, -⟩ := storable_of_ofDocument hnext h
    exact ⟨hversion, hvalid, hserials, hbelow⟩
  · rintro ⟨hversion, hvalid, hserials, hbelow⟩
    have hstorable : g.Storable := ⟨hversion, hvalid, hserials, hbelow, hnext⟩
    exact ⟨g.toDocument, hstorable.ofDocument_toDocument⟩

end Loading

section Strays

/-- A constant that feeds an absolute value. The second node, the connection and the slots of the
node are as given, and the keys stay. -/
def strayGraph (id : NodeId) (connection : ConnectionId) (more : List Slot) : Graph where
  version := 1
  name := "Stray"
  nodes := .ofEntries
    [(⟨.ofNat 1⟩, ⟨⟨.ofNat 1⟩, 0, "Constant", .constant ⟨.vector1 .one, false⟩,
      [.fixedOutput "Value" .vector1]⟩),
    (⟨.ofNat 2⟩, ⟨id, 1, "Absolute", .function .abs,
      (NodeKind.function .abs).requiredSlots ++ more⟩)]
  connections := .ofEntries
    [(⟨.ofNat 3⟩, ⟨connection, ⟨.ofNat 1⟩, "Value", ⟨.ofNat 2⟩, "Input1"⟩)]
  nextSerial := 2

/-- It is loaded from its document whatever these are. -/
theorem storable_strayGraph (id : NodeId) (connection : ConnectionId) (more : List Slot) :
    (strayGraph id connection more).Storable := by
  have hserials : (strayGraph id connection more).nodes.values.map (·.serial) = [0, 1] := rfl
  have hbelow : ∀ serial ∈ [0, 1], serial < 2 := by decide
  refine ⟨Nat.le_refl 1, rfl, ?_, fun n hn => ?_, (by decide : 2 ≤ 0xffffffff)⟩
  · rw [hserials]
    decide
  · exact hbelow n.serial (hserials ▸ List.mem_map_of_mem hn)

theorem ofDocument_strayGraph (id : NodeId) (connection : ConnectionId) (more : List Slot) :
    ofDocument (strayGraph id connection more).toDocument = .ok (strayGraph id connection more) :=
  (storable_strayGraph id connection more).ofDocument_toDocument

/-- The graph with a stray node is loaded, and the constant does not reach the node. -/
theorem loads_strayGraph :
    let g := strayGraph ⟨.ofNat 9⟩ ⟨.ofNat 3⟩ []
    let stray : Node :=
      ⟨⟨.ofNat 9⟩, 1, "Absolute", .function .abs, (NodeKind.function .abs).requiredSlots⟩
    g.nextSerial ≤ 4294967295 ∧ (∃ document, ofDocument document = .ok g.canonical) ∧
      stray ∈ g.nodes.values ∧
      ∀ mode types table slot, Scope.feed? ⟨g, stray, mode, types, table⟩ slot = none := by
  intro g stray
  obtain ⟨hloaded, -, hunfed⟩ := loads_exactly_storable (g := g) (by decide)
  have hstray : stray ∈ g.nodes.values := by decide
  exact ⟨by decide, hloaded.2 ⟨by decide, rfl, by decide, by decide⟩, hstray,
    hunfed rfl stray hstray (by decide)⟩

/-- **Loading admits graphs that are not addressed.** Of three documents that load, one has a node
under a key that is not its identity, one a connection, and one a node with two slots of a name;
each is otherwise in order. -/
theorem loading_admits_strays :
    let strayNode := strayGraph ⟨.ofNat 9⟩ ⟨.ofNat 3⟩ []
    let strayConnection := strayGraph ⟨.ofNat 2⟩ ⟨.ofNat 4⟩ []
    let straySlot := strayGraph ⟨.ofNat 2⟩ ⟨.ofNat 3⟩ [.fixedInput "Input1" .vector2]
    (ofDocument strayNode.toDocument = .ok strayNode ∧
        ¬ strayNode.Keyed ∧ strayNode.ConnectionsKeyed ∧ strayNode.SlotsDistinct) ∧
      (ofDocument strayConnection.toDocument = .ok strayConnection ∧
        strayConnection.Keyed ∧ ¬ strayConnection.ConnectionsKeyed ∧
          strayConnection.SlotsDistinct) ∧
      ofDocument straySlot.toDocument = .ok straySlot ∧
        straySlot.Keyed ∧ straySlot.ConnectionsKeyed ∧ ¬ straySlot.SlotsDistinct := by
  refine ⟨⟨ofDocument_strayGraph _ _ _, ?node⟩, ⟨ofDocument_strayGraph _ _ _, ?connection⟩,
    ofDocument_strayGraph _ _ _, ?slot⟩ <;>
  · unfold Keyed ConnectionsKeyed SlotsDistinct
    decide

end Strays

end ShaderGraph.Graph
