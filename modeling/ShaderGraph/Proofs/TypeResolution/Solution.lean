import ShaderGraph.Proofs.Graph.Connecting
import ShaderGraph.Proofs.Graph.Loading
import ShaderGraph.Proofs.Node
import ShaderGraph.Proofs.TypeResolution

/-!
# The types of a graph as the solution of its rules

Resolution goes through the nodes once, along an order that lists feeding nodes first. Which types
it finds can be said without an order: every slot has the type that the rules give it from the types
of other slots. The rules look at the connections only as a set, and along any such order they leave
one choice at each slot.

* `Gathers`, `Width`, `Admits`, `Solves` : the rules;
* `Resolvable.solves_resolveTypes` : what resolution finds obeys them;
* `Solves.get?_eq` : nothing else does;
* `resolveTypes_is_the_solution` : so neither the order of the nodes nor that of the connections
  matters.
-/

namespace ShaderGraph.Graph

variable {g g' : Graph} {types types' : TypeTable} {n : Node} {id : NodeId} {s : Slot}
  {t u : ConcreteType} {order : List NodeId}

section Rules

/-- A connection ends at the slot. -/
def Connected (g : Graph) (id : NodeId) (s : Slot) : Prop :=
  ∃ c ∈ g.connections.values, c.toNode = id ∧ c.toSlot = s.name

/-- The slot is a connected dynamic input of the node. -/
def Gathers (g : Graph) (id : NodeId) (n : Node) (s : Slot) : Prop :=
  s ∈ n.inputs ∧ s.type = .dynamic ∧ g.Connected id s

/-- The type is the widest among the connected dynamic inputs of the node, four components if it has
no such input. -/
def Width (g : Graph) (types : TypeTable) (id : NodeId) (n : Node) (t : ConcreteType) : Prop :=
  ((∃ s, g.Gathers id n s ∧ types.get? id s.name = some t) ∧
      ∀ s u, g.Gathers id n s → types.get? id s.name = some u → u.components ≤ t.components) ∨
    (¬ ∃ s, g.Gathers id n s) ∧ t = .vector4

/-- What the rules say of the type of one slot. -/
structure Admits (g : Graph) (types : TypeTable) (id : NodeId) (n : Node) (s : Slot)
    (t : ConcreteType) : Prop where
  /-- A slot that declares a type has it. -/
  declared : ∀ u, s.type = .fixed u → t = u
  /-- A connected dynamic input has the type of the slot that feeds it. -/
  fed : g.Gathers id n s → ∀ c ∈ g.connections.values, c.toNode = id → c.toSlot = s.name →
    types.get? c.fromNode c.fromSlot = some t
  /-- A dynamic output and a dynamic input that is not connected have the width of the node. -/
  width : s.type = .dynamic → s ∈ n.outputs ∨ ¬ g.Connected id s → g.Width types id n t

/-- Every slot of every node has a type, and the rules admit it. -/
def Solves (g : Graph) (types : TypeTable) : Prop :=
  ∀ id n, g.node? id = some n → ∀ s ∈ n.slots,
    ∃ t, types.get? id s.name = some t ∧ g.Admits types id n s t

/-- The rules ask which connections there are, not in which order. -/
theorem Solves.of_perm (hnodes : g'.nodes = g.nodes)
    (hperm : g'.connections.values.Perm g.connections.values) (h : g'.Solves types) :
    g.Solves types := by
  have hconnected : g.Connected = g'.Connected := by
    ext id s
    simp only [Connected, hperm.mem_iff]
  have hgathers : g.Gathers = g'.Gathers := by
    ext id n s
    rw [Gathers, Gathers, hconnected]
  have hwidth : g.Width = g'.Width := by
    ext types id n t
    rw [Width, Width, hgathers]
  intro id n hn s hs
  obtain ⟨t, ht, hadmits⟩ := h id n (by rw [node?, hnodes]; exact hn) s hs
  refine ⟨t, ht, hadmits.declared, fun hs c hc => ?_, fun hdynamic hs => ?_⟩
  · exact hadmits.fed (hgathers ▸ hs) c (hperm.mem_iff.2 hc)
  · rw [hwidth]
    exact hadmits.width hdynamic (hconnected ▸ hs)

end Rules

section Existence

/-- A slot whose name is its own has the type that the table in the end gives there. -/
theorem get?_resolveTypes_slot (horder : g.Finished order.reverse) (hid : id ∈ order)
    (hn : g.node? id = some n) (hnames : (n.slots.map (·.name)).Nodup) (hs : s ∈ n.slots) :
    (g.resolveTypes order).get? id s.name =
      some (slotType g (g.resolveTypes order) id n s) := by
  have hname : ∀ s' ∈ n.slots, s'.name = s.name → s' = s := fun s' hs' h =>
    List.inj_on_of_nodup_map hnames hs' hs h
  rw [get?_resolveTypes_self horder hid hn, ← List.append_nil (rows ..), lookup_rows hs hname]

theorem slotType_output (hs : s ∈ n.outputs) (hdynamic : s.type = .dynamic) :
    slotType g types id n s = dynamicWidth g types id n := by
  rw [slotType, hdynamic]
  simp [Slot.isInput_eq_not_isOutput, (List.mem_filter.1 hs).2]

theorem slotType_input (hs : s ∈ n.inputs) (hdynamic : s.type = .dynamic) :
    slotType g types id n s =
      (incomingType? g types id s.name).getD (dynamicWidth g types id n) := by
  rw [slotType, hdynamic]
  exact if_pos (List.mem_filter.1 hs).2

/-- An output that is no sampler has a vector type. -/
theorem isVector_slotType_of_output (hs : s ∈ n.outputs) (htexture : s.type.isTexture = false) :
    (slotType g types id n s).isVector = true := by
  rcases htype : s.type with t | _
  · rw [htype] at htexture
    rw [slotType, htype]
    cases t with
    | texture2D => cases htexture
    | _ => rfl
  · rw [slotType_output hs htype]
    exact isVector_dynamicWidth

/-- A valid graph whose slots have names of their own, and its nodes in an order, feeding nodes
first. -/
structure Resolvable (g : Graph) (order : List NodeId) : Prop where
  valid : g.validate = .ok ()
  names : g.SlotsDistinct
  finished : g.Finished order.reverse
  keys : g.nodes.keys ⊆ order

namespace Resolvable

theorem get?_slot (h : g.Resolvable order) (hn : g.node? id = some n) (hs : s ∈ n.slots) :
    (g.resolveTypes order).get? id s.name =
      some (slotType g (g.resolveTypes order) id n s) :=
  get?_resolveTypes_slot h.finished (h.keys (OrderedMap.mem_keys_of_get? hn)) hn
    (h.names n (OrderedMap.mem_values_of_get? hn)) hs

/-- The slot that feeds an input was resolved, to a vector if the input is dynamic. -/
theorem exists_source (h : g.Resolvable order) {c : Connection}
    (hc : c ∈ g.connections.values) :
    ∃ u, (g.resolveTypes order).get? c.fromNode c.fromSlot = some u ∧
      ∀ n s, g.node? c.toNode = some n → s ∈ n.slots → s.name = c.toSlot → s.type = .dynamic →
        u.isVector = true := by
  obtain ⟨source, target, output, input, hsource, htarget, houtput, hinput, hfeed⟩ :=
    (validate_eq_ok_iff.1 h.valid).1 c hc
  obtain ⟨hmem, hname⟩ := Node.slot?_eq_some houtput
  have hget := h.get?_slot hsource hmem
  rw [hname] at hget
  refine ⟨_, hget, ?_⟩
  intro n s hn hs hslot hdynamic
  obtain rfl : n = target := Option.some.inj (hn.symm.trans htarget)
  have hfound := Node.slot?_of_mem (h.names n (OrderedMap.mem_values_of_get? hn)) hs
  rw [hslot] at hfound
  obtain rfl : s = input := Option.some.inj (hfound.symm.trans hinput)
  simp only [Slot.canFeed, SlotType.canFeed, Bool.and_eq_true, beq_iff_eq] at hfeed
  obtain ⟨⟨hout, -⟩, htexture⟩ := hfeed
  refine isVector_slotType_of_output (List.mem_filter.2 ⟨hmem, hout⟩) ?_
  rw [htexture, hdynamic]
  rfl

/-- What reaches an input is the type of the slot that feeds it. -/
theorem incomingType?_eq_some_iff (h : g.Resolvable order) {name : String} :
    incomingType? g (g.resolveTypes order) id name = some u ↔
      ∃ c ∈ g.connections.values, c.toNode = id ∧ c.toSlot = name ∧
        (g.resolveTypes order).get? c.fromNode c.fromSlot = some u := by
  rw [incomingType?, Option.bind_eq_some_iff]
  constructor
  · rintro ⟨c, hc, hu⟩
    obtain ⟨hmem, hnode, hslot⟩ := (connectionInto_eq_some_iff h.valid).1 hc
    obtain ⟨v, hv, -⟩ := h.exists_source hmem
    rw [hv, Option.some_or] at hu
    exact ⟨c, hmem, hnode, hslot, hv.trans hu⟩
  · rintro ⟨c, hmem, hnode, hslot, hu⟩
    exact ⟨c, (connectionInto_eq_some_iff h.valid).2 ⟨hmem, hnode, hslot⟩, by rw [hu]; rfl⟩

theorem incomingType?_eq_none (h : g.Resolvable order) (hs : ¬ g.Connected id s) :
    incomingType? g (g.resolveTypes order) id s.name = none := by
  rw [Option.eq_none_iff_forall_ne_some]
  intro u hu
  obtain ⟨c, hc, hnode, hslot, -⟩ := h.incomingType?_eq_some_iff.1 hu
  exact hs ⟨c, hc, hnode, hslot⟩

/-- A connected dynamic input was resolved to what reaches it, a vector. -/
theorem exists_gathered (h : g.Resolvable order) (hn : g.node? id = some n)
    (hs : g.Gathers id n s) :
    ∃ u, incomingType? g (g.resolveTypes order) id s.name = some u ∧
      (g.resolveTypes order).get? id s.name = some u ∧ u.isVector = true := by
  obtain ⟨hinput, hdynamic, c, hc, hnode, hslot⟩ := hs
  have hmem : s ∈ n.slots := (List.mem_filter.1 hinput).1
  obtain ⟨u, hu, hvector⟩ := h.exists_source hc
  have hincoming : incomingType? g (g.resolveTypes order) id s.name = some u :=
    h.incomingType?_eq_some_iff.2 ⟨c, hc, hnode, hslot, hu⟩
  refine ⟨u, hincoming, ?_, hvector n s (hnode ▸ hn) hmem hslot.symm hdynamic⟩
  rw [h.get?_slot hn hmem, slotType_input hinput hdynamic, hincoming, Option.getD_some]

/-- The list whose maximum is the width holds the types of the connected dynamic inputs. -/
theorem mem_incoming_iff (h : g.Resolvable order) (hn : g.node? id = some n) :
    u ∈ ((n.inputs.filter (·.type.isDynamic)).filterMap fun s =>
        incomingType? g (g.resolveTypes order) id s.name).filter (·.isVector) ↔
      ∃ s, g.Gathers id n s ∧ (g.resolveTypes order).get? id s.name = some u := by
  simp only [List.mem_filter, List.mem_filterMap, SlotType.isDynamic, beq_iff_eq]
  constructor
  · rintro ⟨⟨s, ⟨hs, hdynamic⟩, hu⟩, -⟩
    obtain ⟨c, hc, hnode, hslot, -⟩ := h.incomingType?_eq_some_iff.1 hu
    have hgathers : g.Gathers id n s := ⟨hs, hdynamic, c, hc, hnode, hslot⟩
    obtain ⟨v, hv, hget, -⟩ := h.exists_gathered hn hgathers
    exact ⟨s, hgathers, hget.trans (hv.symm.trans hu)⟩
  · rintro ⟨s, hs, hu⟩
    obtain ⟨v, hv, hget, hvector⟩ := h.exists_gathered hn hs
    obtain rfl : v = u := Option.some.inj (hget.symm.trans hu)
    exact ⟨⟨s, ⟨hs.1, hs.2.1⟩, hv⟩, hvector⟩

theorem components_le_of_rank_le (ht : t.isVector = true) (hu : u.isVector = true)
    (hle : u.rank ≤ t.rank) : u.components ≤ t.components := by
  revert ht hu hle
  cases u <;> cases t <;> decide

/-- The width computed at a node is the one the rules name. -/
theorem width_dynamicWidth (h : g.Resolvable order) (hn : g.node? id = some n) :
    g.Width (g.resolveTypes order) id n (dynamicWidth g (g.resolveTypes order) id n) := by
  obtain ⟨hmem, hrank⟩ := maximum?_getD_eq_iff.1
    (Eq.refl (dynamicWidth g (g.resolveTypes order) id n))
  rcases hmem with hmem | ⟨hnil, hdefault⟩
  · refine .inl ⟨(h.mem_incoming_iff hn).1 hmem, ?_⟩
    intro s u hs hu
    have hu := (h.mem_incoming_iff hn).2 ⟨s, hs, hu⟩
    exact components_le_of_rank_le isVector_dynamicWidth (List.mem_filter.1 hu).2 (hrank u hu)
  · refine .inr ⟨?_, hdefault⟩
    rintro ⟨s, hs⟩
    obtain ⟨u, -, hget, -⟩ := h.exists_gathered hn hs
    have hu := (h.mem_incoming_iff hn).2 ⟨s, hs, hget⟩
    rw [hnil] at hu
    cases hu

/-- Resolution along an order of feeding nodes first obeys the rules. -/
theorem solves_resolveTypes (h : g.Resolvable order) : g.Solves (g.resolveTypes order) := by
  intro id n hn s hs
  refine ⟨_, h.get?_slot hn hs, ?declared, ?fed, ?width⟩
  case declared =>
    intro u hu
    rw [slotType, hu]
  case fed =>
    intro hgathers c hc hnode hslot
    obtain ⟨u, hu, hget, -⟩ := h.exists_gathered hn hgathers
    obtain ⟨v, hv, -⟩ := h.exists_source hc
    have hincoming := h.incomingType?_eq_some_iff.2 ⟨c, hc, hnode, hslot, hv⟩
    rw [hv, ← hincoming, hu, ← hget, h.get?_slot hn hs]
  case width =>
    intro hdynamic hend
    by_cases houtput : s ∈ n.outputs
    · rw [slotType_output houtput hdynamic]
      exact h.width_dynamicWidth hn
    · have hfree := hend.resolve_left houtput
      rw [slotType_input (Node.mem_inputs_of_not_mem_outputs hs houtput) hdynamic,
        h.incomingType?_eq_none hfree]
      exact h.width_dynamicWidth hn

end Resolvable

end Existence

section Uniqueness

theorem components_injective (h : t.components = u.components) : t = u := by
  revert h
  cases t <;> cases u <;> decide

/-- Tables that agree on the connected dynamic inputs of a node give it one width. -/
theorem Width.unique (hsame : ∀ s, g.Gathers id n s →
      types.get? id s.name = types'.get? id s.name)
    (ht : g.Width types id n t) (hu : g.Width types' id n u) : t = u := by
  obtain ⟨⟨s, hs, hst⟩, ht⟩ | ⟨hnone, rfl⟩ := ht <;>
    obtain ⟨⟨s', hs', hsu⟩, hu⟩ | ⟨hnone', rfl⟩ := hu
  · rw [hsame s hs] at hst
    rw [← hsame s' hs'] at hsu
    exact components_injective (Nat.le_antisymm (hu s t hs hst) (ht s' u hs' hsu))
  · exact absurd ⟨s, hs⟩ hnone'
  · exact absurd ⟨s', hs'⟩ hnone
  · rfl

/-- What the rules admit at a slot is decided by the slots that feed the node and by its connected
dynamic inputs. -/
theorem Admits.unique (hsource : ∀ c ∈ g.connections.values, c.toNode = id →
      types.get? c.fromNode c.fromSlot = types'.get? c.fromNode c.fromSlot)
    (hsame : ∀ s, g.Gathers id n s → types.get? id s.name = types'.get? id s.name)
    (hs : s ∈ n.slots) (ht : g.Admits types id n s t) (hu : g.Admits types' id n s u) : t = u := by
  rcases htype : s.type with v | _
  · exact (ht.declared v htype).trans (hu.declared v htype).symm
  · by_cases hend : s ∈ n.outputs ∨ ¬ g.Connected id s
    · exact Width.unique hsame (ht.width htype hend) (hu.width htype hend)
    · rw [not_or, not_not] at hend
      obtain ⟨houtput, c, hc, hnode, hslot⟩ := hend
      have hinput : s ∈ n.inputs := Node.mem_inputs_of_not_mem_outputs hs houtput
      have hgathers : g.Gathers id n s := ⟨hinput, htype, c, hc, hnode, hslot⟩
      have hfed := ht.fed hgathers c hc hnode hslot
      rw [hsource c hc hnode, hu.fed hgathers c hc hnode hslot] at hfed
      exact (Option.some.inj hfed).symm

/-- A connected dynamic input has the type that feeds it, in every table that obeys the rules. -/
theorem Solves.get?_of_gathers (h : g.Solves types) (hn : g.node? id = some n)
    (hs : g.Gathers id n s) {c : Connection} (hc : c ∈ g.connections.values)
    (hnode : c.toNode = id) (hslot : c.toSlot = s.name) :
    types.get? id s.name = types.get? c.fromNode c.fromSlot := by
  obtain ⟨t, ht, hadmits⟩ := h id n hn s (List.mem_filter.1 hs.1).1
  rw [ht, hadmits.fed hs c hc hnode hslot]

/-- Two solutions of the rules are the same, by induction along an order of feeding nodes first. -/
theorem Solves.get?_eq (hg : g.Resolvable order) (h : g.Solves types) (h' : g.Solves types')
    (hn : g.node? id = some n) (hs : s ∈ n.slots) :
    types.get? id s.name = types'.get? id s.name := by
  suffices hall : ∀ id ∈ order.reverse, ∀ n, g.node? id = some n → ∀ s ∈ n.slots,
      types.get? id s.name = types'.get? id s.name from
    hall id (List.mem_reverse.2 (hg.keys (OrderedMap.mem_keys_of_get? hn))) n hn s hs
  refine hg.finished.forall_mem ?_
  intro id _ ih n hn s hs
  have hsource : ∀ c ∈ g.connections.values, c.toNode = id →
      types.get? c.fromNode c.fromSlot = types'.get? c.fromNode c.fromSlot := by
    rintro c hc rfl
    obtain ⟨source, -, output, -, hfrom, -, houtput, -⟩ := (validate_eq_ok_iff.1 hg.valid).1 c hc
    obtain ⟨hmem, hname⟩ := Node.slot?_eq_some houtput
    rw [← hname]
    exact ih c.fromNode (feeds_of_mem hc) source hfrom output hmem
  have hsame : ∀ s, g.Gathers id n s → types.get? id s.name = types'.get? id s.name := by
    intro s hs
    obtain ⟨c, hc, hnode, hslot⟩ := hs.2.2
    rw [h.get?_of_gathers hn hs hc hnode hslot, h'.get?_of_gathers hn hs hc hnode hslot]
    exact hsource c hc hnode
  obtain ⟨t, ht, hadmits⟩ := h id n hn s hs
  obtain ⟨u, hu, hadmits'⟩ := h' id n hn s hs
  rw [ht, hu, hadmits.unique hsource hsame hs hadmits']

end Uniqueness

/-- **Type resolution computes the one solution of its rules, whatever order is used.** Where the
connections obey the rules and the slots of every node have names of their own, resolution along any
order that lists each node once and feeding nodes first gives every slot a type that the rules
admit. A table that does the same has the same types, so another such order, and another order of
the connections, give no other types. -/
theorem resolveTypes_is_the_solution (g : Graph) (hvalid : g.validate = .ok ())
    (hnames : g.SlotsDistinct) (order : List NodeId) (horder : g.FeedingOrder order) :
    g.Solves (g.resolveTypes order) ∧
      (∀ types, g.Solves types → ∀ id n, g.node? id = some n → ∀ s ∈ n.slots,
        types.get? id s.name = (g.resolveTypes order).get? id s.name) ∧
      ∀ g' : Graph, g'.nodes = g.nodes → g'.connections.values.Perm g.connections.values →
        ∀ order', g'.FeedingOrder order' → ∀ id n, g.node? id = some n → ∀ s ∈ n.slots,
          (g'.resolveTypes order').get? id s.name = (g.resolveTypes order).get? id s.name := by
  have hg : g.Resolvable order :=
    ⟨hvalid, hnames, finished_of_feedingOrder horder, horder.perm.symm.subset⟩
  refine ⟨hg.solves_resolveTypes, ?_, ?_⟩
  · intro types h id n hn s hs
    exact h.get?_eq hg hg.solves_resolveTypes hn hs
  · intro g' hnodes hperm order' horder' id n hn s hs
    have hvalid' : g'.validate = .ok () := by
      rw [validate_eq_ok_iff, hnodes]
      obtain ⟨hfits, hinputs⟩ := validate_eq_ok_iff.1 hvalid
      exact ⟨fun c hc => hfits c (hperm.mem_iff.1 hc), (hperm.map _).nodup_iff.2 hinputs⟩
    have hnames' : g'.SlotsDistinct := by
      rw [SlotsDistinct, hnodes]
      exact hnames
    have hg' : g'.Resolvable order' :=
      ⟨hvalid', hnames', finished_of_feedingOrder horder', horder'.perm.symm.subset⟩
    exact (hg'.solves_resolveTypes.of_perm hnodes hperm).get?_eq hg hg.solves_resolveTypes hn hs

/-- A constant of two components goes through a sine into a sum, whose other input has the mesh
coordinates. The connections are in the order given. -/
def sumGraph (wires : List ℕ) : Graph :=
  let node (k : ℕ) : NodeId := ⟨.ofNat k⟩
  let wire : ℕ → Connection
    | 0 => ⟨⟨.ofNat 0⟩, node 1, "Value", node 3, "Input1"⟩
    | 1 => ⟨⟨.ofNat 1⟩, node 3, "Output", node 4, "Input1"⟩
    | _ => ⟨⟨.ofNat 2⟩, node 2, "UV", node 4, "Input2"⟩
  { empty "Sum" with
    nodes := .ofEntries
      [(node 4, .ofKind (node 4) (.function .add)), (node 3, .ofKind (node 3) (.function .sin)),
        (node 2, .ofKind (node 2) .uv),
        (node 1, .ofKind (node 1) (.constant ⟨.vector2 .zero .one, false⟩))]
    connections := .ofEntries (wires.map fun k => ((wire k).id, wire k)) }

/-- Two orders of its nodes, and two orders of its connections. -/
theorem types_of_sumGraph :
    let node (k : ℕ) : NodeId := ⟨.ofNat k⟩
    let g := sumGraph [0, 1, 2]
    let g' := sumGraph [2, 1, 0]
    let order := [1, 3, 2, 4].map node
    let order' := [2, 1, 3, 4].map node
    g.validate = .ok () ∧ g.SlotsDistinct ∧ g.FeedingOrder order ∧ g'.FeedingOrder order' ∧
      g'.connections.values.Perm g.connections.values ∧
      g.Solves (g.resolveTypes order) ∧
      (∀ types, g.Solves types → types.get? (node 3) "Output" = some .vector2 ∧
        types.get? (node 4) "Input1" = some .vector2 ∧
        types.get? (node 4) "Output" = some .vector4) ∧
      ∀ id n, g.node? id = some n → ∀ s ∈ n.slots,
        (g'.resolveTypes order').get? id s.name = (g.resolveTypes order).get? id s.name := by
  intro node g g' order order'
  have hnames : g.SlotsDistinct := by unfold SlotsDistinct; decide
  have horder : g.FeedingOrder order := ⟨by decide, by decide⟩
  have horder' : g'.FeedingOrder order' := ⟨by decide, by decide⟩
  have hperm : g'.connections.values.Perm g.connections.values := by decide
  obtain ⟨hsolves, hunique, hsame⟩ := resolveTypes_is_the_solution g rfl hnames order horder
  refine ⟨rfl, hnames, horder, horder', hperm, hsolves, fun types htypes => ?_,
    hsame g' rfl hperm order' horder'⟩
  have hsum := hunique types htypes (node 4) _ rfl
  refine ⟨?_, ?_, ?_⟩
  · exact hunique types htypes (node 3) _ rfl ⟨"Output", .output, .dynamic⟩ (by decide)
  · exact hsum ⟨"Input1", .input, .dynamic⟩ (by decide)
  · exact hsum ⟨"Output", .output, .dynamic⟩ (by decide)

end ShaderGraph.Graph
