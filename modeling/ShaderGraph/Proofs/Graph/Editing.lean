import ShaderGraph.Proofs.Graph.Configuring
import ShaderGraph.Proofs.GraphDocument

/-!
# Edits keep a graph sound

What holds of a new graph and is kept by every edit and by saving and loading. A change of a node's
kind is the delicate edit: connections stay if both ends still have a slot of the right direction,
which is enough for the rules, for no kind requires a texture slot and names of required slots are
distinct.

* `Sound` : the invariant;
* `Sound.addNode`, `Sound.removeNode`, `Sound.connect`, `Sound.disconnect`, `Sound.configureNode`,
  `Sound.reload` : one step of each kind;
* `Reached`, `every_reached_graph_is_sound` : whole runs.
-/

namespace ShaderGraph.Graph

variable {g g' : Graph} {n : Node} {id : NodeId} {c : Connection}

section Invariant

/-- The slots are, in order, those that the kind requires. -/
def InLine (n : Node) : Prop := n.slots = n.kind.requiredSlots

/-- A graph as edits leave it. -/
structure Sound (g : Graph) : Prop where
  version : g.version = graphVersion
  keyed : ∀ e ∈ g.nodes.entries, e.2.id = e.1
  connectionKeyed : ∀ e ∈ g.connections.entries, e.2.id = e.1
  inLine : ∀ n ∈ g.nodes.values, InLine n
  fits : ∀ c ∈ g.connections.values, Fits g.nodes c
  inputs : (g.connections.values.map fun c => (c.toNode, c.toSlot)).Nodup
  noLoop : ∀ c ∈ g.connections.values, c.fromNode ≠ c.toNode
  serials : (g.nodes.values.map (·.serial)).Nodup
  below : ∀ n ∈ g.nodes.values, n.serial < g.nextSerial
  next : g.nextSerial ≤ 0xffffffff

theorem Sound.valid (hg : g.Sound) : g.validate = .ok () :=
  validate_eq_ok_iff.2 ⟨hg.fits, hg.inputs⟩

theorem Sound.storable (hg : g.Sound) : g.Storable :=
  ⟨hg.version.le, hg.valid, hg.serials, hg.below, hg.next⟩

theorem sound_empty (name : String) : (empty name).Sound where
  version := rfl
  keyed := by simp [empty, OrderedMap.empty]
  connectionKeyed := by simp [empty, OrderedMap.empty]
  inLine := by simp [empty, OrderedMap.empty, OrderedMap.values]
  fits := by simp [empty, OrderedMap.empty, OrderedMap.values]
  inputs := by simp [empty, OrderedMap.empty, OrderedMap.values]
  noLoop := by simp [empty, OrderedMap.empty, OrderedMap.values]
  serials := by simp [empty, OrderedMap.empty, OrderedMap.values]
  below := by simp [empty, OrderedMap.empty, OrderedMap.values]
  next := by simp [empty]

end Invariant

section Nodes

theorem Sound.addNode (hg : g.Sound) (hn : InLine n) (hfresh : g.node? n.id = none)
    (hroom : g.nextSerial < 0xffffffff) : (g.addNode n).Sound := by
  have hvalues :
      (g.addNode n).nodes.values = g.nodes.values ++ [{ n with serial := g.nextSerial }] :=
    values_addNode (OrderedMap.get?_eq_none_iff.1 hfresh)
  have hkeyed : (g.addNode n).Keyed := Keyed.addNode hg.keyed n
  refine { hg with
    keyed := hkeyed, inLine := ?_, fits := ?_, serials := ?_, below := ?_, next := hroom }
  · intro m hm
    rw [hvalues, List.mem_append, List.mem_singleton] at hm
    obtain hm | rfl := hm
    · exact hg.inLine m hm
    · exact hn
  · refine fun c hc => (hg.fits c hc).of_slots fun id m _ hm => ⟨m, ?_, rfl⟩
    have hne : id ≠ n.id := by
      rintro rfl
      exact absurd (hm.symm.trans hfresh) (by simp)
    rw [← hm]
    exact node?_addNode_of_ne hne
  · have hnew : g.nextSerial ∉ g.nodes.values.map (·.serial) := by
      intro hmem
      obtain ⟨m, hm, heq⟩ := List.mem_map.1 hmem
      exact (hg.below m hm).ne heq
    rw [hvalues, List.map_append, List.map_singleton, ← List.concat_eq_append]
    exact hg.serials.concat hnew
  · intro m hm
    rw [hvalues, List.mem_append, List.mem_singleton] at hm
    obtain hm | rfl := hm
    · exact (hg.below m hm).trans (Nat.lt_succ_self _)
    · exact Nat.lt_succ_self _

/-- A node at which no connection starts or ends can be erased. -/
theorem Sound.eraseNode (hg : g.Sound)
    (hfree : ∀ c ∈ g.connections.values, c.involves id = false) :
    { g with nodes := g.nodes.erase id }.Sound := by
  have hnodes : ∀ m ∈ (g.nodes.erase id).values, m ∈ g.nodes.values := fun m =>
    OrderedMap.mem_values_of_mem_filter
  refine { hg with keyed := ?_, inLine := ?_, fits := ?_, serials := ?_, below := ?_ }
  · exact fun e he => hg.keyed e (OrderedMap.mem_entries_filter.1 he).1
  · exact fun m hm => hg.inLine m (hnodes m hm)
  · refine fun c hc => (hg.fits c hc).of_slots fun k m hk hm => ⟨m, ?_, rfl⟩
    have hfree := hfree c hc
    simp only [Connection.involves, Bool.or_eq_false_iff, beq_eq_false_iff_ne] at hfree
    have hne : k ≠ id := by
      obtain rfl | rfl := hk
      · exact hfree.1
      · exact hfree.2
    rw [← hm]
    exact OrderedMap.get?_erase_of_ne hne
  · exact hg.serials.sublist ((OrderedMap.values_filter_sublist _ _).map _)
  · exact fun m hm => hg.below m (hnodes m hm)

/-- A node can be changed where it stands if its slots are in line and suit the connections. -/
theorem Sound.replaceNode (hg : g.Sound) {m : Node} (hn : g.nodes.get? id = some n)
    (hid : m.id = n.id) (hserial : m.serial = n.serial) (hline : InLine m)
    (hfits : ∀ c ∈ g.connections.values, Fits (g.nodes.modify id fun _ => m) c) :
    { g with nodes := g.nodes.modify id fun _ => m }.Sound := by
  have hold : ∀ e ∈ g.nodes.entries, e.1 = id → e.2 = n := by
    rintro ⟨k, a⟩ he rfl
    exact Option.some.inj ((OrderedMap.get?_eq_some_iff.2 he).symm.trans hn)
  have hentry : ∀ e ∈ (g.nodes.modify id fun _ => m).entries, ∃ a, (e.1, a) ∈ g.nodes.entries ∧
      e.2.id = a.id ∧ e.2.serial = a.serial ∧ InLine e.2 := by
    intro e he
    obtain ⟨⟨k, a⟩, ha, rfl⟩ := List.mem_map.1 he
    refine ⟨a, ha, ?_⟩
    by_cases hk : k = id
    · obtain rfl : a = n := hold _ ha hk
      simpa [hk, hid, hserial] using hline
    · simpa [hk] using hg.inLine a (OrderedMap.mem_values_iff.2 ⟨k, ha⟩)
  have hserials : (g.nodes.modify id fun _ => m).values.map (·.serial) =
      g.nodes.values.map (·.serial) := OrderedMap.map_values_modify hn hserial
  refine { hg with keyed := ?_, inLine := ?_, fits := hfits, serials := ?_, below := ?_ }
  · intro e he
    obtain ⟨a, ha, hid, -⟩ := hentry e he
    exact hid.trans (hg.keyed _ ha)
  · intro a ha
    obtain ⟨k, hk⟩ := OrderedMap.mem_values_iff.1 ha
    obtain ⟨-, -, -, -, hline⟩ := hentry _ hk
    exact hline
  · exact hserials ▸ hg.serials
  · intro a ha
    obtain ⟨k, hk⟩ := OrderedMap.mem_values_iff.1 ha
    obtain ⟨b, hb, -, hserial, -⟩ := hentry _ hk
    exact hserial ▸ hg.below b (OrderedMap.mem_values_iff.2 ⟨k, hb⟩)

end Nodes

section Connections

theorem Sound.filterConnections (hg : g.Sound) (p : ConnectionId → Connection → Bool) :
    { g with connections := g.connections.filter p }.Sound := by
  have hmem : ∀ c ∈ (g.connections.filter p).values, c ∈ g.connections.values := fun c =>
    OrderedMap.mem_values_of_mem_filter
  refine { hg with connectionKeyed := ?_, fits := ?_, inputs := ?_, noLoop := ?_ }
  · exact fun e he => hg.connectionKeyed e (OrderedMap.mem_entries_filter.1 he).1
  · exact fun c hc => hg.fits c (hmem c hc)
  · exact hg.inputs.sublist ((OrderedMap.values_filter_sublist _ _).map _)
  · exact fun c hc => hg.noLoop c (hmem c hc)

theorem Sound.connect (hg : g.Sound) (hfresh : g.connection? c.id = none)
    (h : g.connect c = .ok g') : g'.Sound := by
  obtain ⟨hfits, hfree, hloop, rfl⟩ := connect_eq_ok_iff.1 h
  have hvalues : (g.connections.insert c.id c).values = g.connections.values ++ [c] :=
    OrderedMap.values_insert_of_not_mem (OrderedMap.get?_eq_none_iff.1 hfresh)
  refine { hg with connectionKeyed := ?_, fits := ?_, inputs := ?_, noLoop := ?_ }
  · intro e he
    obtain rfl | ⟨he, -⟩ := OrderedMap.mem_entries_insert.1 he
    · rfl
    · exact hg.connectionKeyed e he
  · rw [hvalues, List.forall_mem_append, List.forall_mem_singleton]
    exact ⟨hg.fits, hfits⟩
  · have hinput :
        (c.toNode, c.toSlot) ∉ g.connections.values.map fun c => (c.toNode, c.toSlot) := by
      intro hmem
      obtain ⟨d, hd, heq⟩ := List.mem_map.1 hmem
      rw [Prod.mk.injEq] at heq
      have hnone := List.find?_eq_none.1 hfree d hd
      simp [Connection.feeds, heq] at hnone
    rw [hvalues, List.map_append, List.map_singleton, ← List.concat_eq_append]
    exact hg.inputs.concat hinput
  · rw [hvalues, List.forall_mem_append, List.forall_mem_singleton]
    exact ⟨hg.noLoop, hloop⟩

theorem Sound.disconnect (hg : g.Sound) (id : ConnectionId) : (g.disconnect id).Sound :=
  hg.filterConnections _

theorem Sound.removeNode (hg : g.Sound) (id : NodeId) : (g.removeNode id).Sound := by
  refine (hg.filterConnections fun _ c => !c.involves id).eraseNode fun c hc => ?_
  obtain ⟨k, hk⟩ := OrderedMap.mem_values_iff.1 hc
  simpa using (OrderedMap.mem_entries_filter.1 hk).2

end Connections

section Kinds

theorem InLine.nodup_names (hn : InLine n) : (n.slots.map (·.name)).Nodup :=
  hn ▸ nodup_requiredSlots n.kind

theorem InLine.isTexture_eq (hn : InLine n) {s : Slot} (hs : s ∈ n.slots) :
    s.type.isTexture = false := by
  cases htype : s.type with
  | dynamic => rfl
  | fixed t =>
    have hconcrete : s.type.concrete? = some t := by rw [htype]; rfl
    have hvector := isVector_requiredSlots (hn ▸ hs) hconcrete
    cases t with
    | texture2D => exact absurd hvector (by decide)
    | _ => rfl

/-- Where slots are in line, a connection is allowed as soon as both ends have a slot of its name
and direction: it is the only one of the name, and no slot is a texture. -/
theorem fits_of_hasEndpoints {nodes : OrderedMap NodeId Node}
    (hline : ∀ n ∈ nodes.values, InLine n) (h : hasEndpoints nodes c = true) : Fits nodes c := by
  rw [hasEndpoints, Bool.and_eq_true, Option.isSome_iff_exists, Option.isSome_iff_exists] at h
  obtain ⟨⟨output, houtput⟩, ⟨input, hinput⟩⟩ := h
  obtain ⟨source, hsource, houtput⟩ := Option.bind_eq_some_iff.1 houtput
  obtain ⟨target, htarget, hinput⟩ := Option.bind_eq_some_iff.1 hinput
  have hsourceLine := hline source (OrderedMap.mem_values_of_get? hsource)
  have htargetLine := hline target (OrderedMap.mem_values_of_get? htarget)
  obtain ⟨houtMem, hout, houtName⟩ := Node.output?_eq_some houtput
  obtain ⟨hinMem, hin, hinName⟩ := Node.input?_eq_some hinput
  refine ⟨source, target, output, input, hsource, htarget, ?_, ?_, ?_⟩
  · rw [← houtName]
    exact Node.slot?_of_mem hsourceLine.nodup_names houtMem
  · rw [← hinName]
    exact Node.slot?_of_mem htargetLine.nodup_names hinMem
  · simp [Slot.canFeed, SlotType.canFeed, hout, hin, hsourceLine.isTexture_eq houtMem,
      htargetLine.isTexture_eq hinMem]

theorem Sound.configureNode (hg : g.Sound) {f : NodeKind → NodeKind} {r : Reconfiguration}
    (h : g.configureNode id f = some (g', r)) : g'.Sound := by
  rw [configureNode_of_valid hg.valid] at h
  obtain ⟨n, hn, h⟩ := Option.map_eq_some_iff.1 h
  obtain ⟨rfl, -⟩ := Prod.mk.inj h
  have hline : InLine n := hg.inLine n (OrderedMap.mem_values_of_get? hn)
  have hnew : InLine (n.configured f) := Node.slots_configured hline.nodup_names f
  have hlines : ∀ a ∈ (g.nodes.modify id fun _ => n.configured f).values, InLine a := by
    intro a ha
    obtain ha | ⟨b, -, rfl⟩ := OrderedMap.mem_values_modify ha
    · exact hg.inLine a ha
    · exact hnew
  have hkept := hg.filterConnections fun _ c =>
    hasEndpoints (g.nodes.modify id fun _ => n.configured f) c
  refine hkept.replaceNode (m := n.configured f) hn rfl rfl hnew fun c hc => ?_
  rw [OrderedMap.values_filter, List.mem_filter] at hc
  exact fits_of_hasEndpoints hlines hc.2

end Kinds

section Documents

theorem requiredSlots_canonical (kind : NodeKind) :
    kind.canonical.requiredSlots = kind.requiredSlots := by
  cases kind with
  | constant c =>
    obtain ⟨value, exposed⟩ := c
    cases value <;> rfl
  | _ => rfl

theorem Sound.canonical (hg : g.Sound) : g.canonical.Sound := by
  have hentry : ∀ e ∈ g.canonical.nodes.entries, ∃ n, (e.1, n) ∈ g.nodes.entries ∧
      e.2 = n.canonical := by
    intro e he
    obtain ⟨⟨k, n⟩, hn, rfl⟩ := List.mem_map.1 he
    exact ⟨n, hn, rfl⟩
  refine { hg with keyed := ?_, inLine := ?_, fits := ?_, serials := ?_, below := ?_ }
  · intro e he
    obtain ⟨n, hn, heq⟩ := hentry e he
    rw [heq]
    exact hg.keyed _ hn
  · intro m hm
    obtain ⟨k, hk⟩ := OrderedMap.mem_values_iff.1 hm
    obtain ⟨n, hn, rfl⟩ := hentry _ hk
    exact (hg.inLine n (OrderedMap.mem_values_iff.2 ⟨k, hn⟩)).trans
      (requiredSlots_canonical n.kind).symm
  · exact fun c hc => (hg.fits c hc).canonical
  · rw [map_serial_canonical]
    exact hg.serials
  · intro m hm
    obtain ⟨k, hk⟩ := OrderedMap.mem_values_iff.1 hm
    obtain ⟨n, hn, rfl⟩ := hentry _ hk
    exact hg.below n (OrderedMap.mem_values_iff.2 ⟨k, hn⟩)

theorem Sound.reload (hg : g.Sound) (h : ofDocument g.toDocument = .ok g') : g'.Sound := by
  obtain rfl := Except.ok.inj (hg.storable.ofDocument_toDocument.symm.trans h)
  exact hg.canonical

end Documents

section Runs

/-- The graphs that a program reaches, with the nodes it has removed so far and may add again. Every
identity that is drawn is unused, and the serial counter has room. -/
inductive Reached : Graph → List Node → Prop
  | start (name : String) : Reached (empty name) []
  | add {g : Graph} {removed : List Node} (h : Reached g removed) (id : NodeId) (kind : NodeKind)
    (name : String) (hfresh : g.node? id = none) (hroom : g.nextSerial < 4294967295) :
    Reached (g.addNode { Node.ofKind id kind with name }) removed
  | restore {g : Graph} {removed : List Node} (h : Reached g removed) {n : Node}
    (hn : n ∈ removed) (hfresh : g.node? n.id = none) (hroom : g.nextSerial < 4294967295) :
    Reached (g.addNode n) removed
  | remove {g : Graph} {removed : List Node} (h : Reached g removed) (id : NodeId) :
    Reached (g.removeNode id) ((g.node? id).toList ++ removed)
  | connect {g g' : Graph} {removed : List Node} (h : Reached g removed) {c : Connection}
    (hfresh : g.connection? c.id = none) (hconnect : g.connect c = .ok g') : Reached g' removed
  | disconnect {g : Graph} {removed : List Node} (h : Reached g removed) (id : ConnectionId) :
    Reached (g.disconnect id) removed
  | configure {g g' : Graph} {removed : List Node} (h : Reached g removed) {id : NodeId}
    {f : NodeKind → NodeKind} {r : Reconfiguration}
    (hconfigure : g.configureNode id f = some (g', r)) : Reached g' removed
  | reload {g g' : Graph} {removed : List Node} (h : Reached g removed)
    (hload : ofDocument g.toDocument = .ok g') : Reached g' removed

/-- What one step preserves, every run does; removed nodes keep their slots. -/
theorem Reached.sound {removed : List Node} (h : Reached g removed) :
    g.Sound ∧ ∀ n ∈ removed, InLine n := by
  induction h with
  | start name => exact ⟨sound_empty name, by simp⟩
  | add h id kind name hfresh hroom ih =>
    exact ⟨ih.1.addNode (Node.slots_ofKind id kind) hfresh hroom, ih.2⟩
  | restore h hn hfresh hroom ih => exact ⟨ih.1.addNode (ih.2 _ hn) hfresh hroom, ih.2⟩
  | remove h id ih =>
    refine ⟨ih.1.removeNode id, fun n hn => ?_⟩
    obtain hn | hn := List.mem_append.1 hn
    · exact ih.1.inLine n (OrderedMap.mem_values_of_get? (Option.mem_toList.1 hn))
    · exact ih.2 n hn
  | connect h hfresh hconnect ih => exact ⟨ih.1.connect hfresh hconnect, ih.2⟩
  | disconnect h id ih => exact ⟨ih.1.disconnect id, ih.2⟩
  | configure h hconfigure ih => exact ⟨ih.1.configureNode hconfigure, ih.2⟩
  | reload h hload ih => exact ⟨ih.1.reload hload, ih.2⟩

/-- **Edits keep a graph sound.** In every graph that a program reaches, the connections obey the
rules, join different nodes and end at different inputs, nodes and connections are found under their
own identities, the slots of every node are, in order, those its kind requires, and the graph can be
saved and loaded. -/
theorem every_reached_graph_is_sound (g : Graph) (removed : List Node) (h : Reached g removed) :
    g.validate = .ok () ∧
    (∀ c ∈ g.connections.values, c.fromNode ≠ c.toNode) ∧
    (g.connections.values.map fun c => (c.toNode, c.toSlot)).Nodup ∧
    (∀ e ∈ g.nodes.entries, e.2.id = e.1) ∧
    (∀ e ∈ g.connections.entries, e.2.id = e.1) ∧
    (∀ n ∈ g.nodes.values, n.slots = n.kind.requiredSlots) ∧
    ∃ g', ofDocument g.toDocument = .ok g' := by
  have hg := h.sound.1
  exact ⟨hg.valid, hg.noLoop, hg.inputs, hg.keyed, hg.connectionKeyed, hg.inLine, _,
    hg.storable.ofDocument_toDocument⟩

/-- A texture that is fed mesh coordinates becomes such coordinates itself: its slot of that name
now is an output, and the connection is lost. Then the feeding node is taken out and put back. -/
theorem sound_after_kind_change :
    let mesh : Node := { Node.ofKind ⟨.ofNat 1⟩ .uv with name := "Mesh" }
    let g₁ := ((empty "Run").addNode mesh).addNode (.ofKind ⟨.ofNat 2⟩ (.texture .unbound))
    let c : Connection := ⟨⟨.ofNat 3⟩, ⟨.ofNat 1⟩, "UV", ⟨.ofNat 2⟩, "UV"⟩
    ∃ g₂ g₃ slotsChanged, g₁.connect c = .ok g₂ ∧
      g₂.configureNode ⟨.ofNat 2⟩ (fun _ => .uv) = some (g₃, ⟨slotsChanged, [c]⟩) ∧
      ∃ n, g₃.node? ⟨.ofNat 1⟩ = some n ∧
        let g := (g₃.removeNode ⟨.ofNat 1⟩).addNode n
        Reached g [n] ∧ g.nodes.keys = [⟨.ofNat 2⟩, ⟨.ofNat 1⟩] ∧ g.validate = .ok () ∧
          (∀ c ∈ g.connections.values, c.fromNode ≠ c.toNode) ∧
          (g.connections.values.map fun c => (c.toNode, c.toSlot)).Nodup ∧
          (∀ e ∈ g.nodes.entries, e.2.id = e.1) ∧
          (∀ e ∈ g.connections.entries, e.2.id = e.1) ∧
          (∀ n ∈ g.nodes.values, n.slots = n.kind.requiredSlots) ∧
          ∃ g', ofDocument g.toDocument = .ok g' := by
  intro mesh g₁ c
  have h₁ : Reached g₁ [] := ((Reached.start "Run").add _ _ "Mesh" rfl (by decide)).add _ _ _ rfl
    (by decide)
  refine ⟨_, _, _, rfl, rfl, _, rfl, ?_⟩
  have h₂ := (h₁.connect (c := c) rfl rfl).configure
    (show Graph.configureNode _ ⟨.ofNat 2⟩ (fun _ => .uv) = some _ from rfl)
  have h₃ := (h₂.remove ⟨.ofNat 1⟩).restore (List.mem_append_left _ (List.mem_singleton.2 rfl)) rfl
    (by decide)
  exact ⟨h₃, by decide, every_reached_graph_is_sound _ _ h₃⟩

end Runs

end ShaderGraph.Graph
