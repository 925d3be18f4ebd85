import ShaderGraph.Proofs.Graph.Editing

/-!
# What a changed node leaves to be checked

Adding a node under an identity that is in use puts it in the place of another one, and
reconfiguring gives a node other slots. In both cases the connections away from the node keep to the
rules, so the connections at the node decide whether the graph is still valid. Adding leaves all of
them, whatever the slots of the new node are. Reconfiguring removes those that have no slot of their
name and direction any more, and looks at neither the type of a slot nor at which slot of a name
comes first.

* `validate_of_change` : only the connections at the changed node are to be checked;
* `addNode_valid_iff` : when a graph stays valid as a node is added or replaced;
* `replacing_leaves_connections` : a replaced node breaks any of the rules for slots;
* `checkEndpoints_configured` : which connections at a reconfigured node obey the rules;
* `configureNode_valid_iff` : when a graph stays valid as a node is reconfigured;
* `configuring_keeps_misfits` : two ways in which it does not.
-/

namespace ShaderGraph.Graph

variable {g g' : Graph} {n m : Node} {id : NodeId} {c : Connection} {f : NodeKind → NodeKind}
  {r : Reconfiguration}

section Checks

variable {α ε : Type} {check : α → Except ε Unit} {l : List α}

theorem forM_cons_of_ok {a : α} (h : check a = .ok ()) : (a :: l).forM check = l.forM check := by
  show (check a >>= fun _ => l.forM check) = l.forM check
  rw [h]
  rfl

theorem forM_cons_of_error {a : α} {e : ε} (h : check a = .error e) :
    (a :: l).forM check = .error e := by
  show (check a >>= fun _ => l.forM check) = .error e
  rw [h]
  rfl

/-- Checks in a row succeed if each of them does; otherwise one of them gives the error. -/
theorem forM_eq_ok_iff : l.forM check = .ok () ↔ ∀ a ∈ l, check a = .ok () := by
  induction l with
  | nil => exact ⟨fun _ a ha => absurd ha List.not_mem_nil, fun _ => rfl⟩
  | cons a l ih =>
    rw [List.forall_mem_cons]
    cases ha : check a with
    | error e =>
      rw [forM_cons_of_error ha]
      simp
    | ok u =>
      rw [forM_cons_of_ok ha, ih]
      simp

theorem exists_of_forM_eq_error {e : ε} (h : l.forM check = .error e) :
    ∃ a ∈ l, check a = .error e := by
  induction l with
  | nil => cases h
  | cons a l ih =>
    cases ha : check a with
    | error e' =>
      rw [forM_cons_of_error ha] at h
      exact ⟨a, List.mem_cons_self, ha.trans h⟩
    | ok u =>
      rw [forM_cons_of_ok ha] at h
      obtain ⟨b, hb, hcheck⟩ := ih h
      exact ⟨b, List.mem_cons_of_mem a hb, hcheck⟩

/-- Checks that are known to succeed can be left out. -/
theorem forM_filter {p : α → Bool} (h : ∀ a ∈ l, p a = false → check a = .ok ()) :
    (l.filter p).forM check = l.forM check := by
  induction l with
  | nil => rfl
  | cons a l ih =>
    rw [List.forall_mem_cons] at h
    have hrest := ih h.2
    cases hp : p a with
    | false => rw [List.filter_cons_of_neg (by simp [hp]), forM_cons_of_ok (h.1 hp), hrest]
    | true =>
      rw [List.filter_cons_of_pos hp]
      cases ha : check a with
      | error e => rw [forM_cons_of_error ha, forM_cons_of_error ha]
      | ok u => rw [forM_cons_of_ok ha, forM_cons_of_ok ha, hrest]

end Checks

section Changes

/-- Where no two connections end at one input, only their ends are to be checked. -/
theorem validateFrom_eq_forM {nodes : OrderedMap NodeId Node} {l : List Connection}
    {occupied : List (NodeId × String)} (hinputs : (l.map fun c => (c.toNode, c.toSlot)).Nodup)
    (hfree : ∀ c ∈ l, (c.toNode, c.toSlot) ∉ occupied) :
    validateFrom nodes occupied l = l.forM (checkEndpoints nodes) := by
  induction l generalizing occupied with
  | nil => rfl
  | cons c l ih =>
    rw [List.map_cons, List.nodup_cons] at hinputs
    rw [List.forall_mem_cons] at hfree
    rw [validateFrom]
    cases hc : checkEndpoints nodes c with
    | error e => rw [forM_cons_of_error hc]
    | ok u =>
      rw [forM_cons_of_ok hc]
      simp only [if_neg hfree.1]
      refine ih hinputs.2 fun d hd hmem => ?_
      rcases List.mem_cons.1 hmem with heq | hmem
      · exact hinputs.1 (heq ▸ List.mem_map_of_mem hd)
      · exact hfree.2 d hd hmem

/-- Of a valid graph in which one node is changed and connections are taken out, only the
connections at the node are to be checked. -/
theorem validate_of_change (hvalid : g.validate = .ok ())
    (hkept : g'.connections.values.Sublist g.connections.values)
    (hnodes : ∀ k, k ≠ id → g'.nodes.get? k = g.nodes.get? k) :
    g'.validate = (g'.connectionsOf id).forM (checkEndpoints g'.nodes) := by
  obtain ⟨hfits, hinputs⟩ := validate_eq_ok_iff.1 hvalid
  have hcheck : ∀ c ∈ g'.connections.values, c.involves id = false →
      checkEndpoints g'.nodes c = .ok () := by
    intro c hc hid
    simp only [Connection.involves, Bool.or_eq_false_iff, beq_eq_false_iff_ne] at hid
    rw [checkEndpoints_eq_ok_iff]
    refine (hfits c (hkept.subset hc)).of_slots fun k a hk ha => ⟨a, ?_, rfl⟩
    rw [← ha]
    rcases hk with rfl | rfl
    · exact hnodes _ hid.1
    · exact hnodes _ hid.2
  rw [connectionsOf, forM_filter hcheck]
  exact validateFrom_eq_forM (hinputs.sublist (hkept.map _)) (by simp)

end Changes

section Replacing

/-- **When a valid graph stays valid as a node is added.** All connections stay. Whether they still
obey the rules is decided by those at the identity of the node, the first of which that does not is
reported; so a node under a new identity leaves the graph valid, and one that takes the place of
another does if it has, under the names of that one, the same slots. -/
theorem addNode_valid_iff (hvalid : g.validate = .ok ()) (n : Node) :
    (g.addNode n).connections = g.connections ∧
    (g.addNode n).validate = (g.connectionsOf n.id).forM (checkEndpoints (g.addNode n).nodes) ∧
    ((g.addNode n).validate = .ok () ↔ ∀ c ∈ g.connectionsOf n.id, Fits (g.addNode n).nodes c) ∧
    (n.id ∉ g.nodes.keys → (g.addNode n).validate = .ok ()) ∧
    ∀ m, g.node? n.id = some m → (∀ name s, m.slot? name = some s → n.slot? name = some s) →
      (g.addNode n).validate = .ok () := by
  have hothers : ∀ k, k ≠ n.id → (g.addNode n).nodes.get? k = g.nodes.get? k :=
    fun k hk => OrderedMap.get?_insert_of_ne hk _
  have hchecks : (g.addNode n).validate =
      (g.connectionsOf n.id).forM (checkEndpoints (g.addNode n).nodes) :=
    validate_of_change hvalid (List.Sublist.refl _) hothers
  have hiff : (g.addNode n).validate = .ok () ↔
      ∀ c ∈ g.connectionsOf n.id, Fits (g.addNode n).nodes c := by
    rw [hchecks, forM_eq_ok_iff]
    exact forall₂_congr fun c _ => checkEndpoints_eq_ok_iff
  refine ⟨rfl, hchecks, hiff, fun hfresh => ?_, fun m hm hslots => ?_⟩
  · rw [hiff]
    intro c hc
    obtain ⟨hmem, hid⟩ := List.mem_filter.1 hc
    obtain ⟨hsource, htarget⟩ := joined_of_validate hvalid c hmem
    simp only [Connection.involves, Bool.or_eq_true, beq_iff_eq] at hid
    rcases hid with hid | hid
    · exact absurd (hid ▸ hsource) hfresh
    · exact absurd (hid ▸ htarget) hfresh
  · rw [hiff]
    intro c hc
    have hfits := (validate_eq_ok_iff.1 hvalid).1 c (List.mem_filter.1 hc).1
    refine hfits.of_slot? fun k a _ ha => ?_
    by_cases hk : k = n.id
    · subst hk
      obtain rfl : a = m := Option.some.inj (ha.symm.trans hm)
      exact ⟨_, node?_addNode_self, hslots⟩
    · exact ⟨a, (hothers k hk).trans ha, fun _ _ hs => hs⟩

/-- The absolute value becomes another function of one argument. -/
theorem addNode_lerpGraph :
    let n : Node := .ofKind ⟨.ofNat 3⟩ (.function .saturate)
    lerpGraph.validate = .ok () ∧ (lerpGraph.addNode n).connections = lerpGraph.connections ∧
      (lerpGraph.addNode n).validate = .ok () := by
  intro n
  obtain ⟨hconnections, -, -, -, hsame⟩ := addNode_valid_iff (g := lerpGraph) rfl n
  exact ⟨rfl, hconnections, hsame (.ofKind ⟨.ofNat 3⟩ (.function .abs)) rfl fun _ _ hs => hs⟩

/-- Mesh coordinates feed a texture. -/
def sampledGraph : Graph :=
  { empty "Sampled" with
    nodes := .ofEntries
      [(⟨.ofNat 1⟩, .ofKind ⟨.ofNat 1⟩ .uv), (⟨.ofNat 2⟩, .ofKind ⟨.ofNat 2⟩ (.texture .unbound))]
    connections := .ofEntries
      [(⟨.ofNat 3⟩, ⟨⟨.ofNat 3⟩, ⟨.ofNat 1⟩, "UV", ⟨.ofNat 2⟩, "UV"⟩)] }

/-- **A node that takes the place of another keeps its connections.** The coordinates are left
without an input, at an output, and at an input for samplers. -/
theorem replacing_leaves_connections :
    let id : NodeId := ⟨.ofNat 2⟩
    let retyped := (Node.ofKind id (.texture .unbound)).addSlot (.fixedInput "UV" .texture2D)
    sampledGraph.validate = .ok () ∧
      (sampledGraph.addNode (.ofKind id (.function .abs))).validate =
        .error (.slotNotFound "UV") ∧
      (sampledGraph.addNode (.ofKind id .uv)).validate = .error .wrongDirection ∧
      (sampledGraph.addNode retyped).validate = .error .incompatibleSlots :=
  ⟨rfl, rfl, rfl, rfl⟩

end Replacing

section Ends

/-- Whether the connection starts at a sampler. -/
def carriesTexture (nodes : OrderedMap NodeId Node) (c : Connection) : Bool :=
  (slotAt? nodes c.fromNode c.fromSlot).any (·.type.isTexture)

variable {nodes : OrderedMap NodeId Node}

/-- A slot of some direction is a slot. -/
theorem exists_slotAt? {k : NodeId} {name : String} {p : Slot → Bool}
    (h : ((nodes.get? k).bind fun n => n.slots.find? fun s => p s && s.name = name).isSome) :
    ∃ s, slotAt? nodes k name = some s := by
  obtain ⟨s, hs⟩ := Option.isSome_iff_exists.1 h
  obtain ⟨n, hn, hs⟩ := Option.bind_eq_some_iff.1 hs
  have hfound := List.find?_some hs
  rw [Bool.and_eq_true] at hfound
  have hsome : (n.slot? name).isSome :=
    List.find?_isSome.2 ⟨s, List.mem_of_find?_eq_some hs, hfound.2⟩
  rw [slotAt?, hn]
  exact Option.isSome_iff_exists.1 hsome

/-- A connection with both ends can still join slots of wrong directions or types. -/
theorem checkEndpoints_of_hasEndpoints (h : hasEndpoints nodes c = true) :
    checkEndpoints nodes c = .ok () ∨ checkEndpoints nodes c = .error .wrongDirection ∨
      checkEndpoints nodes c = .error .incompatibleSlots := by
  rw [hasEndpoints, Bool.and_eq_true] at h
  obtain ⟨output, houtput⟩ := exists_slotAt? h.1
  obtain ⟨input, hinput⟩ := exists_slotAt? h.2
  rw [checkEndpoints_of_slotAt? houtput hinput]
  split_ifs
  · exact .inr (.inl rfl)
  · exact .inr (.inr rfl)
  · exact .inl rfl

end Ends

section Reconfiguring

/-- What is found at an end of a connection after a node of distinct slot names is reconfigured: the
slot of before, or a slot that is no sampler. -/
theorem exists_slotAt?_configured {k : NodeId} {name : String} {p : Slot → Bool} {s : Slot}
    (hn : g.node? id = some n) (hnames : (n.slots.map (·.name)).Nodup)
    (hs : slotAt? g.nodes k name = some s) (hp : p s = true)
    (hnew : k = id → name ∈ ((n.configured f).slots.filter p).map (·.name)) :
    ∃ t, slotAt? (g.nodes.modify id fun _ => n.configured f) k name = some t ∧ p t = true ∧
      (t.type.isTexture = true ↔ k ≠ id ∧ s.type.isTexture = true) := by
  have hline : InLine (n.configured f) := Node.slots_configured hnames f
  by_cases hk : k = id
  · subst hk
    obtain ⟨t, ht, hname⟩ := List.mem_map.1 (hnew rfl)
    obtain ⟨hmem, hpt⟩ := List.mem_filter.1 ht
    refine ⟨t, ?_, hpt, by simp [hline.isTexture_eq hmem]⟩
    rw [slotAt?, OrderedMap.get?_modify_self hn, Option.bind_some, ← hname]
    exact Node.slot?_of_mem hline.nodup_names hmem
  · refine ⟨s, ?_, hp, by simp [hk]⟩
    rw [slotAt?, OrderedMap.get?_modify_of_ne hk]
    exact hs

/-- A connection that stays at a reconfigured node of distinct slot names obeys the rules unless it
carries a texture to or from another node. -/
theorem checkEndpoints_configured (hfits : Fits g.nodes c) (hn : g.node? id = some n)
    (hnames : (n.slots.map (·.name)).Nodup) (hid : c.involves id = true)
    (hends : hasEndpoints (g.nodes.modify id fun _ => n.configured f) c = true) :
    let nodes := g.nodes.modify id fun _ => n.configured f
    checkEndpoints nodes c ≠ .error .wrongDirection ∧
      (checkEndpoints nodes c = .ok () ↔
        c.fromNode ≠ c.toNode → carriesTexture g.nodes c = false) := by
  intro nodes
  obtain ⟨hfrom, hto⟩ := (hasEndpoints_modify_iff hfits.hasEndpoints hn).1 hends
  obtain ⟨source, target, output, input, hsource, htarget, houtput, hinput, hfeed⟩ := hfits
  simp only [Slot.canFeed, SlotType.canFeed, Bool.and_eq_true, beq_iff_eq] at hfeed
  have hstart : slotAt? g.nodes c.fromNode c.fromSlot = some output := by
    rw [slotAt?, hsource, Option.bind_some, houtput]
  have hend : slotAt? g.nodes c.toNode c.toSlot = some input := by
    rw [slotAt?, htarget, Option.bind_some, hinput]
  have hcarries : carriesTexture g.nodes c = output.type.isTexture := by
    rw [carriesTexture, hstart, Option.any_some]
  obtain ⟨output', houtput', hout, houtType⟩ :=
    exists_slotAt?_configured hn hnames hstart hfeed.1.1 hfrom
  obtain ⟨input', hinput', hin, hinType⟩ :=
    exists_slotAt?_configured hn hnames hend hfeed.1.2 hto
  have hagree : output'.type.isTexture = input'.type.isTexture ↔
      (c.fromNode ≠ c.toNode → output.type.isTexture = false) := by
    rw [Bool.eq_iff_iff, houtType, hinType, ← hfeed.2]
    simp only [Connection.involves, Bool.or_eq_true, beq_iff_eq] at hid
    rcases hid with rfl | rfl
    · simp [eq_comm (a := c.toNode)]
    · simp
  have hcheck : checkEndpoints nodes c =
      if output'.type.isTexture = input'.type.isTexture then .ok ()
      else .error .incompatibleSlots := by
    rw [checkEndpoints_of_slotAt? houtput' hinput']
    simp [Slot.canFeed, SlotType.canFeed, hout, hin]
  rw [hcheck, hcarries, ← hagree]
  split_ifs with h
  · simp [h]
  · simp [h]

/-- **When a valid graph stays valid as a node is reconfigured.** The connections that have both
ends stay, and no two of them share an input. Whether they obey the rules is decided by those at the
node, and direction or type is all that can be wrong with them. Where the slot names of the node are
distinct, the direction is right, and the graph is valid exactly if no connection that stays between
the node and another one carries a texture. -/
theorem configureNode_valid_iff (hvalid : g.validate = .ok ())
    (h : g.configureNode id f = some (g', r)) :
    (∀ c, c ∈ g'.connections.values ↔
      c ∈ g.connections.values ∧ hasEndpoints g'.nodes c = true) ∧
    (g'.connections.values.map fun c => (c.toNode, c.toSlot)).Nodup ∧
    g'.validate = (g'.connectionsOf id).forM (checkEndpoints g'.nodes) ∧
    (g'.validate = .ok () ∨ g'.validate = .error .wrongDirection ∨
      g'.validate = .error .incompatibleSlots) ∧
    ∀ n, g.node? id = some n → (n.slots.map (·.name)).Nodup →
      g'.validate ≠ .error .wrongDirection ∧
      (g'.validate = .ok () ↔ ∀ c ∈ g'.connectionsOf id,
        c.fromNode ≠ c.toNode → carriesTexture g.nodes c = false) := by
  obtain ⟨hfits, hinputs⟩ := validate_eq_ok_iff.1 hvalid
  rw [configureNode_of_valid hvalid] at h
  obtain ⟨n, hn, h⟩ := Option.map_eq_some_iff.1 h
  obtain ⟨rfl, -⟩ := Prod.mk.inj h
  set nodes := g.nodes.modify id fun _ => n.configured f
  set g' : Graph :=
    { g with nodes, connections := g.connections.filter fun _ c => hasEndpoints nodes c }
  have hkept : g'.connections.values = g.connections.values.filter fun c => hasEndpoints nodes c :=
    OrderedMap.values_filter g.connections fun c => hasEndpoints nodes c
  have hsub : g'.connections.values.Sublist g.connections.values := by
    rw [hkept]
    exact List.filter_sublist
  have hstays : ∀ c, c ∈ g'.connections.values ↔
      c ∈ g.connections.values ∧ hasEndpoints nodes c = true := by
    intro c
    rw [hkept, List.mem_filter]
  have hchecks : g'.validate = (g'.connectionsOf id).forM (checkEndpoints nodes) :=
    validate_of_change hvalid hsub fun k hk => OrderedMap.get?_modify_of_ne hk _
  refine ⟨hstays, hinputs.sublist (hsub.map _), hchecks, ?_, fun a ha hnames => ?_⟩
  · rw [hchecks]
    cases hforM : (g'.connectionsOf id).forM (checkEndpoints nodes) with
    | ok u => exact .inl rfl
    | error e =>
      obtain ⟨c, hc, herror⟩ := exists_of_forM_eq_error hforM
      obtain ⟨-, hends⟩ := (hstays c).1 (List.mem_filter.1 hc).1
      have hcases := checkEndpoints_of_hasEndpoints hends
      rw [herror] at hcases
      exact hcases
  · obtain rfl : a = n := Option.some.inj (ha.symm.trans hn)
    have hcheck : ∀ c ∈ g'.connectionsOf id, checkEndpoints nodes c ≠ .error .wrongDirection ∧
        (checkEndpoints nodes c = .ok () ↔
          c.fromNode ≠ c.toNode → carriesTexture g.nodes c = false) := by
      intro c hc
      obtain ⟨hmem, hid⟩ := List.mem_filter.1 hc
      obtain ⟨hold, hends⟩ := (hstays c).1 hmem
      exact checkEndpoints_configured (hfits c hold) hn hnames hid hends
    rw [hchecks]
    constructor
    · intro herror
      obtain ⟨c, hc, hwrong⟩ := exists_of_forM_eq_error herror
      exact (hcheck c hc).1 hwrong
    · rw [forM_eq_ok_iff]
      exact forall₂_congr fun c hc => (hcheck c hc).2

/-- Without textures the interpolation can become anything. -/
theorem validate_configured_lerpGraph :
    let id : NodeId := ⟨.ofNat 2⟩
    let g := lerpGraph.configured id fun _ => .function .saturate
    lerpGraph.validate = .ok () ∧
      (∃ r, lerpGraph.configureNode id (fun _ => .function .saturate) = some (g, r)) ∧
      (g.connectionsOf id).length = 1 ∧ g.validate ≠ .error .wrongDirection ∧
      g.validate = .ok () := by
  intro id g
  have hg : lerpGraph.configureNode id (fun _ => .function .saturate) =
      some (g, ⟨true, [⟨⟨.ofNat 0⟩, ⟨.ofNat 1⟩, "UV", id, "Input3"⟩]⟩) := rfl
  obtain ⟨-, -, -, -, hdistinct⟩ := configureNode_valid_iff (g := lerpGraph) rfl hg
  obtain ⟨hdirection, hiff⟩ := hdistinct (.ofKind id (.function .lerp)) rfl (by decide)
  exact ⟨rfl, ⟨_, hg⟩, rfl, hdirection, hiff.2 (by decide)⟩

/-- A node feeds the input of another one; both were made for an absolute value, and then the slots
of one were edited. -/
def editedGraph (start : String) (source target : List Slot) : Graph :=
  { empty "Edited" with
    nodes := .ofEntries
      [(⟨.ofNat 1⟩, ⟨⟨.ofNat 1⟩, 0, "Source", .function .abs, source⟩),
        (⟨.ofNat 2⟩, ⟨⟨.ofNat 2⟩, 1, "Target", .function .abs, target⟩)]
    connections := .ofEntries
      [(⟨.ofNat 3⟩, ⟨⟨.ofNat 3⟩, ⟨.ofNat 1⟩, start, ⟨.ofNat 2⟩, "Input1"⟩)]
    nextSerial := 2 }

/-- **Reconfiguring keeps connections that no longer fit.** An input for samplers becomes one for
vectors and is still fed a sampler; an output stands behind a new input of its name. In both cases
the slots change and no connection is removed. -/
theorem configuring_keeps_misfits :
    let required := (NodeKind.function .abs).requiredSlots
    let sampled := editedGraph "Sampler" (required ++ [.fixedOutput "Sampler" .texture2D])
      [.fixedInput "Input1" .texture2D, ⟨"Output", .output, .dynamic⟩]
    let doubled := editedGraph "Input1"
      [⟨"Input1", .output, .dynamic⟩, ⟨"Input1", .output, .dynamic⟩] required
    (sampled.validate = .ok () ∧
        ∃ g, sampled.configureNode ⟨.ofNat 2⟩ (fun kind => kind) = some (g, ⟨true, []⟩) ∧
          g.validate = .error .incompatibleSlots) ∧
      doubled.validate = .ok () ∧
        ∃ g, doubled.configureNode ⟨.ofNat 1⟩ (fun kind => kind) = some (g, ⟨true, []⟩) ∧
          g.validate = .error .wrongDirection :=
  ⟨⟨rfl, _, rfl, rfl⟩, rfl, _, rfl, rfl⟩

end Reconfiguring

end ShaderGraph.Graph
