import ShaderGraph.Proofs.Generation.Pass
import ShaderGraph.Proofs.Graph.Connecting
import ShaderGraph.Proofs.Graph.CycleGuard

/-!
# Failed nodes as feeders

A failed node publishes nothing, so the inputs it feeds take their defaults, as if they were not
connected. Types are resolved before that, and there the failed node still counts. This file
compares a graph with the one in which the connections from failed nodes are cut.

* `Graph.detach`, `Detached` : the graph after the cuts, and what they leave alone;
* `Detached.agree` : the two graphs resolve the same types up to the inputs that lost their width;
* `generate_detach` : the same nodes fail, and every other emits the same at the same types;
* `failed_feeder_lends_its_type` : a graph whose two shaders differ.
-/

namespace ShaderGraph

open Relation

namespace Graph

section Detaching

/-- The graph with every connection disconnected that leaves the node of one of the errors. -/
def detach (g : Graph) (errors : List NodeError) : Graph :=
  ((g.connections.entries.filter fun e => errors.any (·.node = e.2.fromNode)).map (·.1)).foldl
    disconnect g

/-- The second graph is the first one without the connections that leave failed nodes. -/
structure Detached (g g' : Graph) : Prop where
  nodes : g'.nodes = g.nodes
  connections : g'.connections.values = g.connections.values.filter (!g.fails ·.fromNode)

variable {g : Graph}

theorem foldl_disconnect (ids : List ConnectionId) (g : Graph) :
    (ids.foldl disconnect g).nodes = g.nodes ∧
      (ids.foldl disconnect g).connections.entries =
        g.connections.entries.filter fun e => !ids.contains e.1 := by
  induction ids generalizing g with
  | nil => simp
  | cons id ids ih =>
    obtain ⟨hnodes, hentries⟩ := ih (g.disconnect id)
    refine ⟨hnodes, ?_⟩
    rw [List.foldl_cons, hentries, disconnect, OrderedMap.erase, OrderedMap.filter,
      List.filter_filter]
    refine List.filter_congr fun e _ => ?_
    rw [List.contains_cons, Bool.not_or, Bool.and_comm]
    rfl

theorem values_detach (g : Graph) (errors : List NodeError) :
    (g.detach errors).connections.values =
      g.connections.values.filter fun c => !errors.any (·.node = c.fromNode) := by
  have hentries := (foldl_disconnect ((g.connections.entries.filter fun e =>
    errors.any (·.node = e.2.fromNode)).map (·.1)) g).2
  rw [← detach] at hentries
  rw [OrderedMap.values, hentries, OrderedMap.values, List.filter_map]
  refine congrArg (List.map Prod.snd) (List.filter_congr fun e he => congrArg not ?_)
  rw [Bool.eq_iff_iff, List.contains_iff_mem, List.mem_map]
  constructor
  · rintro ⟨e', he', hkey⟩
    obtain ⟨hmem, hfails⟩ := List.mem_filter.1 he'
    obtain rfl : e' = e := List.inj_on_of_nodup_map g.connections.nodup hmem he hkey
    exact hfails
  · intro hfails
    exact ⟨e, List.mem_filter.2 ⟨he, hfails⟩, rfl⟩

end Detaching

section Feeding

variable {g g' : Graph} {id : NodeId} {slot : String} {c : Connection}

/-- The rules still hold after the cuts. -/
theorem Detached.valid (hd : Detached g g') (hvalid : g.validate = .ok ()) :
    g'.validate = .ok () := by
  obtain ⟨hfits, hinputs⟩ := validate_eq_ok_iff.1 hvalid
  refine validate_eq_ok_iff.2 ⟨fun c hc => ?_, ?_⟩
  · rw [hd.connections] at hc
    rw [hd.nodes]
    exact hfits c (List.mem_of_mem_filter hc)
  · rw [hd.connections]
    exact hinputs.sublist (List.filter_sublist.map _)

theorem Detached.connectionInto_eq (hd : Detached g g') (hvalid : g.validate = .ok ())
    (id : NodeId) (slot : String) :
    g'.connectionInto id slot = (g.connectionInto id slot).filter (!g.fails ·.fromNode) := by
  refine Option.ext fun c => ?_
  rw [Option.filter_eq_some_iff, connectionInto_eq_some_iff hvalid,
    connectionInto_eq_some_iff (hd.valid hvalid), hd.connections, List.mem_filter]
  tauto

/-- An input is fed in both graphs, or in neither, or its connection is one that is cut. -/
theorem Detached.connectionInto_cases (hd : Detached g g') (hvalid : g.validate = .ok ())
    (id : NodeId) (slot : String) :
    (g.connectionInto id slot = none ∧ g'.connectionInto id slot = none) ∨
      ∃ c, g.connectionInto id slot = some c ∧
        ((g.fails c.fromNode = true ∧ g'.connectionInto id slot = none) ∨
          (g.fails c.fromNode = false ∧ g'.connectionInto id slot = some c)) := by
  rw [hd.connectionInto_eq hvalid]
  cases hc : g.connectionInto id slot with
  | none => exact .inl ⟨rfl, rfl⟩
  | some c => cases hfails : g.fails c.fromNode <;> simp [Option.filter, hfails]

theorem Detached.node?_eq (hd : Detached g g') (id : NodeId) : g'.node? id = g.node? id := by
  rw [node?, node?, hd.nodes]

theorem Detached.feeds (hd : Detached g g') {a b : NodeId} (h : g'.Feeds a b) : g.Feeds a b := by
  obtain ⟨c, hc, rfl, rfl⟩ := h
  rw [hd.connections] at hc
  exact feeds_of_mem (List.mem_of_mem_filter hc)

theorem Detached.fails_eq_false (hd : Detached g g') {a b : NodeId} (h : g'.Feeds a b) :
    g.fails a = false := by
  obtain ⟨c, hc, rfl, -⟩ := h
  rw [hd.connections] at hc
  simpa using (List.mem_filter.1 hc).2

/-- No node that fails is left above one that does not. -/
theorem Detached.failure?_of_reaches (hd : Detached g g') (hkeyed : g.Keyed) {m n : Node}
    (hm : m ∈ g.nodes.values) (hn : n ∈ g.nodes.values) (hreaches : ReflTransGen g'.Feeds m.id n.id)
    (hfailure : n.failure? = none) : m.failure? = none := by
  have hfound := hkeyed.node?_id hm
  rcases ReflTransGen.cases_head hreaches with hid | ⟨k, hfeeds, -⟩
  · rw [hid, hkeyed.node?_id hn] at hfound
    obtain rfl := Option.some.inj hfound
    exact hfailure
  · have hlives := hd.fails_eq_false hfeeds
    rw [fails, hfound, Option.bind_some, Option.isSome_eq_false_iff] at hlives
    exact Option.isNone_iff_eq_none.1 hlives

theorem Detached.keyed (hd : Detached g g') (hg : g.Keyed) : g'.Keyed := by
  unfold Keyed
  rw [hd.nodes]
  exact hg

theorem Detached.joined (hd : Detached g g') (hg : g.Joined) : g'.Joined := by
  intro c hc
  rw [hd.connections] at hc
  rw [hd.nodes]
  exact hg c (List.mem_of_mem_filter hc)

end Feeding

section Agreement

variable {g g' : Graph} {types types' : TypeTable} {order order' : List NodeId} {id : NodeId}
  {n : Node}

/-- What reaches a dynamic input of the node through a connection that is cut in the second graph
has the type that the input has there, where nothing is connected to it. -/
def KeepsTypes (g g' : Graph) (types types' : TypeTable) (n : Node) : Prop :=
  ∀ slot ∈ n.inputs, slot.type = .dynamic → (g.connectionInto n.id slot.name).isSome = true →
    g'.connectionInto n.id slot.name = none →
      incomingType? g types n.id slot.name = some (dynamicWidth g' types' n.id n)

instance (g g' : Graph) (types types' : TypeTable) (n : Node) :
    Decidable (KeepsTypes g g' types types' n) :=
  inferInstanceAs (Decidable (∀ slot ∈ n.inputs, slot.type = .dynamic →
    (g.connectionInto n.id slot.name).isSome = true → g'.connectionInto n.id slot.name = none →
      incomingType? g types n.id slot.name = some (dynamicWidth g' types' n.id n)))

/-- A list of types to which some of the width of the others are added has that width. -/
theorem maximum?_of_fallback {slots : List Slot} {f f' : Slot → Option ConcreteType}
    {t : ConcreteType}
    (ht : t = (ConcreteType.maximum? ((slots.filterMap f').filter (·.isVector))).getD
      defaultDynamicType)
    (h : ∀ s ∈ slots, f s = f' s ∨ (f' s = none ∧ f s = some t)) :
    (ConcreteType.maximum? ((slots.filterMap f).filter (·.isVector))).getD
      defaultDynamicType = t := by
  have hmem : ∀ u, u ∈ (slots.filterMap f).filter (·.isVector) →
      u ∈ (slots.filterMap f').filter (·.isVector) ∨ u = t := by
    intro u hu
    obtain ⟨hu, hvector⟩ := List.mem_filter.1 hu
    obtain ⟨s, hs, hfs⟩ := List.mem_filterMap.1 hu
    rcases h s hs with heq | ⟨-, hfallback⟩
    · exact .inl (List.mem_filter.2 ⟨List.mem_filterMap.2 ⟨s, hs, heq ▸ hfs⟩, hvector⟩)
    · exact .inr (Option.some.inj (hfs.symm.trans hfallback))
  obtain ⟨hmem', hrank⟩ := maximum?_getD_eq_iff.1 ht.symm
  refine maximum?_getD_eq_iff.2 ⟨?_, fun u hu => ?_⟩
  · rcases hmem' with hin | ⟨hnil, hdefault⟩
    · left
      obtain ⟨hin, hvector⟩ := List.mem_filter.1 hin
      obtain ⟨s, hs, hfs⟩ := List.mem_filterMap.1 hin
      refine List.mem_filter.2 ⟨List.mem_filterMap.2 ⟨s, hs, ?_⟩, hvector⟩
      rcases h s hs with heq | ⟨-, hfallback⟩
      · rw [heq, hfs]
      · exact hfallback
    · -- all that is left is the type itself, if anything
      cases hl : (slots.filterMap f).filter (·.isVector) with
      | nil => exact .inr ⟨rfl, hdefault⟩
      | cons u l =>
        have hu : u ∈ (slots.filterMap f).filter (·.isVector) := hl ▸ List.mem_cons_self
        rcases hmem u hu with hin | rfl
        · rw [hnil] at hin
          cases hin
        · exact .inl List.mem_cons_self
  · rcases hmem u hu with hin | rfl
    · exact hrank u hin
    · exact Nat.le_refl _

/-- What comes into a dynamic input is the same after the cuts, or was of the width that the input
then has. -/
theorem incomingType?_detached (hd : Detached g g') (hvalid : g.validate = .ok ())
    (hkeeps : KeepsTypes g g' types types' n) (hagree : ∀ m, g'.Feeds m n.id → ∀ name,
      types.get? m name = types'.get? m name) {s : Slot} (hs : s ∈ n.inputs)
    (hdynamic : s.type = .dynamic) :
    incomingType? g types n.id s.name = incomingType? g' types' n.id s.name ∨
      (incomingType? g' types' n.id s.name = none ∧
        incomingType? g types n.id s.name = some (dynamicWidth g' types' n.id n)) := by
  obtain ⟨hc, hc'⟩ | ⟨c, hc, ⟨-, hcut⟩ | ⟨-, hkept⟩⟩ := hd.connectionInto_cases hvalid n.id s.name
  · left
    rw [incomingType?, incomingType?, hc, hc']
    rfl
  · right
    refine ⟨?_, hkeeps s hs hdynamic (by rw [hc]; rfl) hcut⟩
    rw [incomingType?, hcut]
    rfl
  · left
    rw [incomingType?, incomingType?, hc, hkept, Option.bind_some, Option.bind_some,
      hagree _ (feeds_of_connectionInto hkept), hd.node?_eq]

/-- A node whose feeders have the same types in both tables has them too, if it keeps its types. -/
theorem slotType_detached (hd : Detached g g') (hvalid : g.validate = .ok ())
    (hkeeps : KeepsTypes g g' types types' n) (hagree : ∀ m, g'.Feeds m n.id → ∀ name,
      types.get? m name = types'.get? m name) :
    ∀ s ∈ n.slots, slotType g types n.id n s = slotType g' types' n.id n s := by
  have hwidth : dynamicWidth g types n.id n = dynamicWidth g' types' n.id n := by
    refine maximum?_of_fallback rfl fun s hs => ?_
    obtain ⟨hs, hdynamic⟩ := List.mem_filter.1 hs
    exact incomingType?_detached hd hvalid hkeeps hagree hs (eq_of_beq hdynamic)
  intro s hs
  cases htype : s.type with
  | fixed t => rw [slotType, slotType, htype]
  | dynamic =>
    rw [slotType, slotType, htype, hwidth]
    by_cases hin : s.isInput = true
    · simp only [if_pos hin]
      rcases incomingType?_detached hd hvalid hkeeps hagree (List.mem_filter.2 ⟨hs, hin⟩) htype
        with heq | ⟨hnone, hfallback⟩
      · rw [heq]
      · rw [hnone, hfallback]
        rfl
    · simp only [if_neg hin]

/-- The tables of the two graphs agree at every node that keeps its types, as all do that feed it,
directly or through others. -/
theorem Detached.agree (hd : Detached g g') (hkeyed : g.Keyed) (hvalid : g.validate = .ok ())
    (horder : g.topologicalOrder = .ok order) (horder' : g'.topologicalOrder = .ok order')
    (hid : id ∈ order') (hkeeps : ∀ n ∈ g.nodes.values, ReflTransGen g'.Feeds n.id id →
      KeepsTypes g g' (g.resolveTypes order) (g'.resolveTypes order') n) :
    ∀ name, (g.resolveTypes order).get? id name = (g'.resolveTypes order').get? id name := by
  have hjoined := joined_of_validate hvalid
  have hperm := perm_keys_of_topologicalOrder hjoined horder
  have hperm' := perm_keys_of_topologicalOrder (hd.joined hjoined) horder'
  -- along the order of the second graph, in which the feeders of a node come before it
  suffices hall : ∀ id ∈ order', (∀ n ∈ g.nodes.values, ReflTransGen g'.Feeds n.id id →
      KeepsTypes g g' (g.resolveTypes order) (g'.resolveTypes order') n) →
        ∀ name, (g.resolveTypes order).get? id name = (g'.resolveTypes order').get? id name from
    hall id hid hkeeps
  refine forall_mem_of_topologicalOrder horder' fun id hid ih hkeeps => ?_
  have hkey : id ∈ g.nodes.keys := hd.nodes ▸ hperm'.subset hid
  obtain ⟨n, hn⟩ : ∃ n, g.node? id = some n := OrderedMap.exists_get?_of_mem_keys hkey
  have hn' : g'.node? id = some n := by rw [hd.node?_eq]; exact hn
  obtain rfl := hkeyed.id_of_node? hn
  have hagree : ∀ m, g'.Feeds m n.id → ∀ name,
      (g.resolveTypes order).get? m name = (g'.resolveTypes order').get? m name :=
    fun m hfeeds => ih m hfeeds fun k hk hreaches => hkeeps k hk (hreaches.tail hfeeds)
  have hself := hkeeps n (OrderedMap.mem_values_of_get? hn) .refl
  have hslots := slotType_detached hd hvalid hself hagree
  intro name
  rw [get?_resolveTypes_self (finished_of_topologicalOrder horder) (hperm.mem_iff.2 hkey) hn,
    get?_resolveTypes_self (finished_of_topologicalOrder horder') hid hn', rows, rows,
    List.map_congr_left fun s hs => by rw [hslots s hs]]

end Agreement

end Graph

open ShaderGraph.Graph

section Emission

variable {g g' : Graph} {mode : Mode} {types types' : TypeTable} {order order' : List NodeId}
  {id : NodeId} {n : Node}

/-- Where the types agree at the nodes that feed a node, it is fed the same after the cuts. -/
theorem feed?_detached (mode : Mode) (hd : Detached g g') (hkeyed : g.Keyed)
    (hvalid : g.validate = .ok ()) (horder : g.topologicalOrder = .ok order)
    (horder' : g'.topologicalOrder = .ok order')
    (hagree : ∀ m, g'.Feeds m n.id → ∀ name, types.get? m name = types'.get? m name)
    (slot : Slot) : (scopeAfter g mode types order n).feed? slot =
      (scopeAfter g' mode types' order' n).feed? slot := by
  have hjoined := joined_of_validate hvalid
  obtain ⟨hc, hc'⟩ | ⟨c, hc, hkind⟩ := hd.connectionInto_cases hvalid n.id slot.name
  · rw [feed?_of_none hc, feed?_of_none hc']
  · obtain ⟨m, hm, hfeed⟩ := feed?_of_some mode hkeyed hjoined horder hc
    rw [hfeed]
    rcases hkind with ⟨hfails, hcut⟩ | ⟨-, hkept⟩
    · -- a failed node publishes nothing
      rw [feed?_of_none hcut]
      rw [fails, hm] at hfails
      exact if_pos hfails
    · obtain ⟨m', hm', hfeed'⟩ :=
        feed?_of_some mode (hd.keyed hkeyed) (hd.joined hjoined) horder' hkept
      rw [hd.node?_eq, hm] at hm'
      obtain rfl := Option.some.inj hm'
      have hfeeds : g'.Feeds m.id n.id := hkeyed.id_of_node? hm ▸ feeds_of_connectionInto hkept
      rw [hfeed']
      refine published?_congr (fun s _ => ?_) c.fromSlot
      rw [TypeTable.concreteType, TypeTable.concreteType, hagree m.id hfeeds]

/-- Where the types agree at a node and at those that feed it, it emits the same with the
connections from failed nodes cut. -/
theorem emit_detached (mode : Mode) (hd : Detached g g') (hkeyed : g.Keyed)
    (hvalid : g.validate = .ok ()) (horder : g.topologicalOrder = .ok order)
    (horder' : g'.topologicalOrder = .ok order')
    (hagree : ∀ m, m = n.id ∨ g'.Feeds m n.id → ∀ name, types.get? m name = types'.get? m name) :
    (scopeAfter g mode types order n).emit = (scopeAfter g' mode types' order' n).emit := by
  have hfeed := feed?_detached mode hd hkeyed hvalid horder horder' fun m hm => hagree m (.inr hm)
  refine Scope.emit_congr rfl rfl (fun slot _ => hfeed slot) fun slot _ => ?_
  change types.concreteType n slot = types'.concreteType n slot
  rw [TypeTable.concreteType, TypeTable.concreteType, hagree n.id (.inl rfl)]

end Emission

section Passes

variable {g g' : Graph} {mode : Mode} {types : TypeTable} {order order' : List NodeId}

theorem detached_detach (mode : Mode) (types : TypeTable) (hkeyed : g.Keyed) (hjoined : g.Joined)
    (horder : g.topologicalOrder = .ok order) :
    Detached g (g.detach ((outcomes g mode types .empty order).filterMap (·.error?))) where
  nodes := (foldl_disconnect _ g).1
  connections := by
    rw [values_detach, errors_outcomes mode types hkeyed horder]
    refine List.filter_congr fun c _ => ?_
    rw [any_errors hkeyed (perm_keys_of_topologicalOrder hjoined horder).symm.subset]

/-- What the passes over a graph and over the one with the connections from failed nodes cut have in
common. -/
structure SamePass (g g' : Graph) (mode : Mode) (order order' : List NodeId) (pass pass' : Pass) :
    Prop where
  /-- The same nodes fail, each at the same slot. -/
  errors : pass.errors.Perm pass'.errors
  /-- Every node emits what it emits after the cuts at the types that were resolved before them. -/
  resolved : pass.outcomes.Perm (outcomes g' mode (g.resolveTypes order) .empty order')
  /-- A node emits the same if it keeps its types, as all that feed it do. -/
  outcomes : ∀ o ∈ pass.outcomes, (∀ n ∈ g.nodes.values, ReflTransGen g'.Feeds n.id o.node.id →
    KeepsTypes g g' (g.resolveTypes order) (g'.resolveTypes order') n) → o ∈ pass'.outcomes
  /-- The bodies have the same lines if every node that does not fail keeps its types. -/
  body : (∀ o ∈ pass.outcomes, o.error? = none →
    KeepsTypes g g' (g.resolveTypes order) (g'.resolveTypes order') o.node) →
      pass.sink.body.Perm pass'.sink.body

/-- Passes in which every node emits the same have the same outcomes, in some order. -/
theorem outcomes_perm {types' : TypeTable} (hd : Detached g g') (hkeyed : g.Keyed)
    (hjoined : g.Joined) (horder : g.topologicalOrder = .ok order)
    (horder' : g'.topologicalOrder = .ok order')
    (hemit : ∀ n ∈ g.nodes.values,
      (scopeAfter g mode types order n).emit = (scopeAfter g' mode types' order' n).emit) :
    (outcomes g mode types .empty order).Perm (outcomes g' mode types' .empty order') := by
  have hperm := perm_keys_of_topologicalOrder hjoined horder
  have hperm' := perm_keys_of_topologicalOrder (hd.joined hjoined) horder'
  rw [hd.nodes] at hperm'
  rw [outcomes_eq mode types hkeyed horder, outcomes_eq mode types' (hd.keyed hkeyed) horder',
    funext hd.node?_eq]
  have hsame : (order.filterMap g.node?).map
        (fun n => (⟨n, (scopeAfter g mode types order n).emit⟩ : Outcome)) =
      (order.filterMap g.node?).map
        fun n => ⟨n, (scopeAfter g' mode types' order' n).emit⟩ := by
    refine List.map_congr_left fun n hn => ?_
    obtain ⟨id, -, hn⟩ := List.mem_filterMap.1 hn
    rw [hemit n (OrderedMap.mem_values_of_get? hn)]
  rw [hsame]
  exact ((hperm.trans hperm'.symm).filterMap _).map _

theorem body_perm {os os' : List Outcome} (p : Precision) (h : os.Perm os') :
    ((os.filterMap (·.fragment?)).foldl (Sink.addFragment p) .empty).body.Perm
      ((os'.filterMap (·.fragment?)).foldl (Sink.addFragment p) .empty).body := by
  rw [body_foldl, body_foldl]
  exact (((h.filterMap _).flatMap_right _).map _).append_left _

/-- A node that keeps its types, as all that feed it do, emits the same after the cuts. -/
theorem emit_of_keepsTypes (mode : Mode) (hd : Detached g g') (hkeyed : g.Keyed)
    (hvalid : g.validate = .ok ()) (horder : g.topologicalOrder = .ok order)
    (horder' : g'.topologicalOrder = .ok order') {n : Node} (hn : n ∈ g.nodes.values)
    (hkeeps : ∀ m ∈ g.nodes.values, ReflTransGen g'.Feeds m.id n.id →
      KeepsTypes g g' (g.resolveTypes order) (g'.resolveTypes order') m) :
    (scopeAfter g mode (g.resolveTypes order) order n).emit =
      (scopeAfter g' mode (g'.resolveTypes order') order' n).emit := by
  have hjoined' := hd.joined (joined_of_validate hvalid)
  have hkeys := perm_keys_of_topologicalOrder hjoined' horder'
  refine emit_detached mode hd hkeyed hvalid horder horder' fun m hm => ?_
  rcases hm with rfl | hfeeds
  · have hmem : n.id ∈ order' := by
      rw [hkeys.mem_iff, hd.nodes]
      exact OrderedMap.mem_keys_of_get? (hkeyed.node?_id hn)
    exact hd.agree hkeyed hvalid horder horder' hmem hkeeps
  · have hmem : m ∈ order' := hkeys.mem_iff.2 (hjoined'.left hfeeds)
    exact hd.agree hkeyed hvalid horder horder' hmem fun k hk hreaches =>
      hkeeps k hk (hreaches.tail hfeeds)

theorem samePass_detached (mode : Mode) (p : Precision) (hd : Detached g g') (hkeyed : g.Keyed)
    (hvalid : g.validate = .ok ()) (horder : g.topologicalOrder = .ok order)
    (horder' : g'.topologicalOrder = .ok order') :
    SamePass g g' mode order order'
      ⟨outcomes g mode (g.resolveTypes order) .empty order,
        (fragmentsOf g mode order).foldl (Sink.addFragment p) .empty⟩
      ⟨outcomes g' mode (g'.resolveTypes order') .empty order',
        (fragmentsOf g' mode order').foldl (Sink.addFragment p) .empty⟩ := by
  have hjoined := joined_of_validate hvalid
  have hresolved : (outcomes g mode (g.resolveTypes order) .empty order).Perm
      (outcomes g' mode (g.resolveTypes order) .empty order') :=
    outcomes_perm hd hkeyed hjoined horder horder' fun n _ =>
      emit_detached mode hd hkeyed hvalid horder horder' fun _ _ _ => rfl
  refine ⟨?_, hresolved, ?_, ?_⟩
  · have herrors := hresolved.filterMap (·.error?)
    rwa [errors_outcomes mode (g.resolveTypes order) (hd.keyed hkeyed) horder',
      ← errors_outcomes mode (g'.resolveTypes order') (hd.keyed hkeyed) horder'] at herrors
  · intro o ho hkeeps
    obtain ⟨hn, hresult⟩ := (mem_outcomes_iff mode _ hkeyed horder).1 ho
    refine (mem_outcomes_iff mode _ (hd.keyed hkeyed) horder').2 ⟨?_, ?_⟩
    · rw [hd.nodes]
      exact hn
    · rw [hresult]
      exact emit_of_keepsTypes mode hd hkeyed hvalid horder horder' hn hkeeps
  · intro hkeeps
    refine body_perm p (outcomes_perm hd hkeyed hjoined horder horder' fun n hn => ?_)
    cases hfailure : n.failure? with
    | some e =>
      have hfails : (scopeAfter g mode (g.resolveTypes order) order n).node.failure? = some e :=
        hfailure
      have hfails' : (scopeAfter g' mode (g'.resolveTypes order') order' n).node.failure? =
        some e := hfailure
      rw [emit_of_failure hfails, emit_of_failure hfails']
    | none =>
      refine emit_of_keepsTypes mode hd hkeyed hvalid horder horder' hn fun m hm hreaches => ?_
      have hlive := hd.failure?_of_reaches hkeyed hm hn hreaches hfailure
      have ho : (⟨m, (scopeAfter g mode (g.resolveTypes order) order m).emit⟩ : Outcome) ∈
          outcomes g mode (g.resolveTypes order) .empty order :=
        (mem_outcomes_iff mode _ hkeyed horder).2 ⟨hm, rfl⟩
      refine hkeeps _ ho ?_
      rw [← hlive]
      exact error?_emit (scopeAfter g mode (g.resolveTypes order) order m)

/-- **A failed feeder is no feeder, but for its type.** With the connections from failed nodes cut
there still is a shader, the same nodes fail, and every other node emits the same at the same types.
The types are the same, and with them the bodies up to the order of their lines, unless some input
that lost its connection had another width by it. -/
theorem generate_detach (g : Graph) (mode : Mode) (settings : Settings) (hkeyed : g.Keyed)
    (hvalid : g.validate = .ok ()) (hacyclic : g.Acyclic)
    (hlimit : g.nodeCount ≤ settings.maxNodes) :
    ∃ order order' pass pass',
      g.topologicalOrder = .ok order ∧ runPass g mode settings = .ok pass ∧
      (g.detach pass.errors).topologicalOrder = .ok order' ∧
      runPass (g.detach pass.errors) mode settings = .ok pass' ∧
      generate g mode settings =
        .ok ⟨pass.sink.assemble settings, pass.sink.registered, pass.errors⟩ ∧
      generate (g.detach pass.errors) mode settings =
        .ok ⟨pass'.sink.assemble settings, pass'.sink.registered, pass'.errors⟩ ∧
      SamePass g (g.detach pass.errors) mode order order' pass pass' := by
  obtain ⟨order, horder⟩ := exists_topologicalOrder_of_acyclic hacyclic
  have hrun := runPass_eq mode hlimit horder
  have hd := detached_detach mode (g.resolveTypes order) hkeyed (joined_of_validate hvalid) horder
  have hacyclic' := hacyclic.mono fun _ _ => hd.feeds
  obtain ⟨order', horder'⟩ := exists_topologicalOrder_of_acyclic hacyclic'
  have hlimit' : (g.detach ((outcomes g mode (g.resolveTypes order) .empty order).filterMap
      (·.error?))).nodeCount ≤ settings.maxNodes := by
    rw [nodeCount, hd.nodes]
    exact hlimit
  have hrun' := runPass_eq mode hlimit' horder'
  exact ⟨order, order', _, _, horder, hrun, horder', hrun', generate_eq hrun, generate_eq hrun',
    samePass_detached mode settings.precision hd hkeyed hvalid horder horder'⟩

/-- A node that applies `f` but has only the first argument of it, and one that applies `f'` to what
it would yield. -/
def brokenFeeder (f f' : MathFunction) : Graph :=
  let node (k : Nat) : NodeId := ⟨.ofNat k⟩
  let broken := ((Node.ofKind (node 0) (.function f)).keepSlots ["Input1", "Output"]).1
  let g := ((Graph.empty "Broken").addNode broken).addNode (.ofKind (node 1) (.function f'))
  { g with
    connections :=
      .ofEntries [(⟨.ofNat 0⟩, ⟨⟨.ofNat 0⟩, node 0, "Output", node 1, "Input1"⟩)] }

/-- The width of an interpolation is not decided by its own slots, and here it is the one that an
unconnected sine has. -/
theorem generate_detach_lerp :
    (brokenFeeder .lerp .sin).Keyed ∧ (brokenFeeder .lerp .sin).validate = .ok () ∧
    (brokenFeeder .lerp .sin).Acyclic ∧
    (brokenFeeder .lerp .sin).nodeCount ≤ Settings.standard.maxNodes ∧
    ∃ order order' pass pass',
      runPass (brokenFeeder .lerp .sin) .surface .standard = .ok pass ∧
      runPass ((brokenFeeder .lerp .sin).detach pass.errors) .surface .standard = .ok pass' ∧
      SamePass (brokenFeeder .lerp .sin) ((brokenFeeder .lerp .sin).detach pass.errors) .surface
        order order' pass pass' ∧
      pass.errors = [⟨⟨.ofNat 0⟩, "Lerp", "Input2"⟩] ∧
      pass.sink.body = ["half4 sin1_out = sin(half4(0, 0, 0, 0));"] ∧
      pass.sink.body.Perm pass'.sink.body := by
  have hkeyed : (brokenFeeder .lerp .sin).Keyed := by
    unfold Keyed
    decide
  have hvalid : (brokenFeeder .lerp .sin).validate = .ok () := rfl
  have hacyclic : (brokenFeeder .lerp .sin).Acyclic :=
    (joined_of_validate hvalid).acyclic_of_topologicalOrder rfl
  have hlimit : (brokenFeeder .lerp .sin).nodeCount ≤ Settings.standard.maxNodes := by decide
  obtain ⟨order, order', pass, pass', horder, hrun, horder', hrun', -, -, hsame⟩ :=
    generate_detach (brokenFeeder .lerp .sin) .surface .standard hkeyed hvalid hacyclic hlimit
  refine ⟨hkeyed, hvalid, hacyclic, hlimit, order, order', pass, pass', hrun, hrun', hsame, ?_⟩
  obtain rfl := Except.ok.inj (horder.symm.trans rfl)
  obtain rfl := Except.ok.inj (hrun.symm.trans rfl)
  obtain rfl := Except.ok.inj (horder'.symm.trans rfl)
  refine ⟨rfl, rfl, hsame.body ?_⟩
  decide

/-- The dot product declares a scalar, and lends that width to an argument which alone would have
four components. So the two shaders of this graph differ in more than the order of their lines. -/
theorem failed_feeder_lends_its_type :
    (brokenFeeder .dot .abs).Keyed ∧ (brokenFeeder .dot .abs).validate = .ok () ∧
    (brokenFeeder .dot .abs).Acyclic ∧
    (brokenFeeder .dot .abs).nodeCount ≤ Settings.standard.maxNodes ∧
    ∃ pass pass',
      runPass (brokenFeeder .dot .abs) .surface .standard = .ok pass ∧
      runPass ((brokenFeeder .dot .abs).detach pass.errors) .surface .standard = .ok pass' ∧
      pass.sink.body = ["half abs1_out = abs(0);"] ∧
      pass'.sink.body = ["half4 abs1_out = abs(half4(0, 0, 0, 0));"] ∧
      ¬ pass.sink.body.Perm pass'.sink.body := by
  have hvalid : (brokenFeeder .dot .abs).validate = .ok () := rfl
  refine ⟨?_, hvalid, (joined_of_validate hvalid).acyclic_of_topologicalOrder rfl, by decide, _, _,
    rfl, rfl, rfl, rfl, ?_⟩
  · unfold Keyed
    decide
  · intro hperm
    have hsame := List.perm_singleton.1 hperm
    revert hsame
    decide

end Passes

end ShaderGraph
