import Mathlib.Data.List.Nodup
import ShaderGraph.Generation
import ShaderGraph.Proofs.Emission
import ShaderGraph.Proofs.Graph.TopologicalOrder

/-!
# The run of a pass

The nodes of a pass come one after the other, each in a scope whose table was filled by the
fragments before it. The invariant is that this table holds nothing else.

* `publishNode`, `tableFrom` : the table after one node, and after several;
* `exists_scope_of_outcomes` : an outcome and the scope it comes from;
* `readable_tableFrom` : the invariant along a run;
* `exists_emits` : a fragment of a pass, with the fragments before it;
* `get?_tableFrom` : what a node published stays in the table;
* `nodup_serials`, `declared_sublist`, `uniforms_sublist` : no name is declared twice.
-/

namespace ShaderGraph

section Tables

variable {g : Graph} {mode : Mode} {types : TypeTable} {table : VariableTable}
  {order : List NodeId} {id : NodeId} {n : Node}

/-- The table after one more node. -/
def publishNode (g : Graph) (mode : Mode) (types : TypeTable) (table : VariableTable)
    (id : NodeId) : VariableTable :=
  match g.node? id with
  | none => table
  | some n =>
    let scope : Scope := ⟨g, n, mode, types, table⟩
    match scope.emit with
    | .error _ => table
    | .ok _ => scope.publish

/-- The table that was filled when the nodes of `order` are done. -/
def tableFrom (g : Graph) (mode : Mode) (types : TypeTable) (table : VariableTable)
    (order : List NodeId) : VariableTable :=
  order.foldl (publishNode g mode types) table

theorem publishNode_of_none (hn : g.node? id = none) :
    publishNode g mode types table id = table := by
  rw [publishNode, hn]

theorem publishNode_of_error {e : NodeError} (hn : g.node? id = some n)
    (he : Scope.emit ⟨g, n, mode, types, table⟩ = .error e) :
    publishNode g mode types table id = table := by
  simp only [publishNode, hn, he]

theorem publishNode_of_ok {f : Fragment} (hn : g.node? id = some n)
    (he : Scope.emit ⟨g, n, mode, types, table⟩ = .ok f) :
    publishNode g mode types table id = Scope.publish ⟨g, n, mode, types, table⟩ := by
  simp only [publishNode, hn, he]

theorem outcomes_cons_of_none (hn : g.node? id = none) :
    outcomes g mode types table (id :: order) = outcomes g mode types table order := by
  rw [outcomes, hn]

theorem outcomes_cons_of_some (hn : g.node? id = some n) :
    outcomes g mode types table (id :: order) =
      ⟨n, Scope.emit ⟨g, n, mode, types, table⟩⟩ ::
        outcomes g mode types (publishNode g mode types table id) order := by
  rw [outcomes, hn]
  cases he : Scope.emit ⟨g, n, mode, types, table⟩ with
  | error e => simp only [he, publishNode_of_error hn he]
  | ok f => simp only [he, publishNode_of_ok hn he]

/-- An outcome and the scope that it comes from, which the outcomes before it have filled. -/
theorem exists_scope_of_outcomes {before after : List Outcome} {o : Outcome}
    (h : outcomes g mode types table order = before ++ o :: after) :
    ∃ ids id rest, order = ids ++ id :: rest ∧ outcomes g mode types table ids = before ∧
      g.node? id = some o.node ∧
      o.result = Scope.emit ⟨g, o.node, mode, types, tableFrom g mode types table ids⟩ := by
  induction order generalizing table before with
  | nil => simp [outcomes] at h
  | cons id order ih =>
    cases hn : g.node? id with
    | none =>
      rw [outcomes_cons_of_none hn] at h
      obtain ⟨ids, id', rest, rfl, hbefore, hnode, hresult⟩ := ih h
      refine ⟨id :: ids, id', rest, rfl, ?_, hnode, ?_⟩
      · rw [outcomes_cons_of_none hn, hbefore]
      · rw [hresult, tableFrom, tableFrom, List.foldl_cons, publishNode_of_none hn]
    | some n =>
      rw [outcomes_cons_of_some hn] at h
      cases before with
      | nil =>
        obtain ⟨rfl, -⟩ := List.cons.inj h
        exact ⟨[], id, order, rfl, rfl, hn, rfl⟩
      | cons o' before =>
        rw [List.cons_append] at h
        obtain ⟨rfl, htail⟩ := List.cons.inj h
        obtain ⟨ids, id', rest, rfl, hbefore, hnode, hresult⟩ := ih htail
        refine ⟨id :: ids, id', rest, rfl, ?_, hnode, hresult⟩
        rw [outcomes_cons_of_some hn, hbefore]

theorem result_of_fragment? {o : Outcome} {f : Fragment} (h : o.fragment? = some f) :
    o.result = .ok f := by
  unfold Outcome.fragment? at h
  cases hresult : o.result with
  | error e =>
    rw [hresult] at h
    cases h
  | ok f' =>
    rw [hresult] at h
    rw [Option.some.inj h]

theorem nodes_outcomes (g : Graph) (mode : Mode) (types : TypeTable) (table : VariableTable)
    (order : List NodeId) :
    (outcomes g mode types table order).map (·.node) = order.filterMap g.node? := by
  induction order generalizing table with
  | nil => rfl
  | cons id order ih =>
    cases hn : g.node? id with
    | none => rw [outcomes_cons_of_none hn, List.filterMap_cons_none hn, ih]
    | some n =>
      rw [outcomes_cons_of_some hn, List.filterMap_cons_some hn, List.map_cons, ih]

end Tables

section Invariant

variable {g : Graph} {mode : Mode} {types : TypeTable} {table : VariableTable}
  {order : List NodeId} {fs : List Fragment}

/-- The nodes of `order` have the slots of their kinds, and these have types. -/
def Settled (g : Graph) (types : TypeTable) (order : List NodeId) : Prop :=
  ∀ id ∈ order, ∀ n, g.node? id = some n →
    Graph.Resolved types n ∧ n.slots ⊆ n.kind.requiredSlots

theorem settled_of_shaped (hg : g.Shaped) (horder : g.topologicalOrder = .ok order) :
    Settled g (g.resolveTypes order) order := by
  intro id hid n hn
  refine ⟨?_, hg.slots n (OrderedMap.mem_values_of_get? hn)⟩
  exact Graph.resolved_resolveTypes hg (Graph.nodup_of_topologicalOrder horder) hid hn

/-- The table of a run holds what the fragments of the run published. -/
theorem readable_tableFrom (hset : Settled g types order) (h : table.Readable fs) :
    (tableFrom g mode types table order).Readable
      (fs ++ (outcomes g mode types table order).filterMap (·.fragment?)) := by
  -- a node that does not fail changes the table and the fragments, so both are general
  induction order generalizing table fs with
  | nil => simpa [tableFrom, outcomes] using h
  | cons id order ih =>
    have hrest : Settled g types order := fun id' hid' => hset id' (List.mem_cons_of_mem _ hid')
    rw [tableFrom, List.foldl_cons]
    cases hn : g.node? id with
    | none =>
      rw [outcomes_cons_of_none hn, publishNode_of_none hn]
      exact ih hrest h
    | some n =>
      obtain ⟨hresolved, hslots⟩ := hset id List.mem_cons_self n hn
      rw [outcomes_cons_of_some hn]
      cases he : Scope.emit ⟨g, n, mode, types, table⟩ with
      | error e =>
        have hnone : Outcome.fragment? ⟨n, .error e⟩ = none := rfl
        rw [List.filterMap_cons_none hnone, publishNode_of_error hn he]
        exact ih hrest h
      | ok f =>
        have hready : Scope.Ready ⟨g, n, mode, types, table⟩ fs := ⟨hresolved, hslots, h⟩
        have hstep := (emits_of_emit he).readable hready
        have hsome : Outcome.fragment? ⟨n, .ok f⟩ = some f := rfl
        rw [List.filterMap_cons_some hsome, publishNode_of_ok hn he]
        have hrun := ih hrest hstep
        rwa [List.append_assoc] at hrun

/-- The scope of a node that comes after those of `ids`. -/
def scopeAfter (g : Graph) (mode : Mode) (types : TypeTable) (ids : List NodeId) (n : Node) :
    Scope :=
  ⟨g, n, mode, types, tableFrom g mode types .empty ids⟩

/-- A fragment of a run comes from a scope that the fragments before it have made ready. -/
theorem exists_emits (hset : Settled g types order) {before after : List Outcome} {o : Outcome}
    {f : Fragment} (h : outcomes g mode types .empty order = before ++ o :: after)
    (hf : o.result = .ok f) :
    ∃ ids id rest, order = ids ++ id :: rest ∧ g.node? id = some o.node ∧
      (scopeAfter g mode types ids o.node).emit = .ok f ∧
      (scopeAfter g mode types ids o.node).Ready (before.filterMap (·.fragment?)) := by
  obtain ⟨ids, id, rest, rfl, rfl, hnode, hresult⟩ := exists_scope_of_outcomes h
  have hids : Settled g types ids := fun id' hid' => hset id' (List.mem_append_left _ hid')
  obtain ⟨hresolved, hslots⟩ := hset id (by simp) o.node hnode
  have hempty : VariableTable.empty.Readable [] := fun entry hentry => by cases hentry
  refine ⟨ids, id, rest, rfl, hnode, hresult.symm.trans hf, hresolved, hslots, ?_⟩
  exact readable_tableFrom hids hempty

/-- The same for a place in the list of fragments. -/
theorem exists_emits_fragment (hset : Settled g types order) {before after : List Fragment}
    {f : Fragment}
    (h : (outcomes g mode types .empty order).filterMap (·.fragment?) = before ++ f :: after) :
    ∃ s : Scope, s.Ready before ∧ Emits s f := by
  obtain ⟨os, os', hsplit, rfl, hrest⟩ := List.filterMap_eq_append_iff.1 h
  obtain ⟨failed, o, os'', rfl, hfailed, hfragment, -⟩ := List.filterMap_eq_cons_iff.1 hrest
  have hplace : outcomes g mode types .empty order = (os ++ failed) ++ o :: os'' := by
    rw [hsplit, List.append_assoc]
  obtain ⟨ids, -, -, -, -, hemit, hready⟩ :=
    exists_emits hset hplace (result_of_fragment? hfragment)
  have hnone : failed.filterMap (·.fragment?) = [] := List.filterMap_eq_nil_iff.2 hfailed
  rw [List.filterMap_append, hnone, List.append_nil] at hready
  exact ⟨_, hready, emits_of_emit hemit⟩

end Invariant

section Recorded

variable {g : Graph} {mode : Mode} {types : TypeTable} {table : VariableTable}
  {order : List NodeId} {id : NodeId} {n : Node}

theorem get?_publishNode_of_ne (hg : g.Keyed) {id' : NodeId} (h : id' ≠ id) (name : String) :
    (publishNode g mode types table id).get? id' name = table.get? id' name := by
  cases hn : g.node? id with
  | none => rw [publishNode_of_none hn]
  | some n =>
    cases he : Scope.emit ⟨g, n, mode, types, table⟩ with
    | error e => rw [publishNode_of_error hn he]
    | ok f =>
      have hid : id' ≠ n.id := by rwa [hg.id_of_node? hn]
      rw [publishNode_of_ok hn he, VariableTable.get?, entries_publish, lookup_rows_of_ne hid]
      rfl

theorem get?_tableFrom_of_not_mem (hg : g.Keyed) (h : id ∉ order) (name : String) :
    (tableFrom g mode types table order).get? id name = table.get? id name := by
  induction order generalizing table with
  | nil => rfl
  | cons id' order ih =>
    rw [List.mem_cons, not_or] at h
    have hhead : (publishNode g mode types table id').get? id name = table.get? id name :=
      get?_publishNode_of_ne hg h.1 name
    rw [← hhead]
    exact ih h.2

/-- What a node published is in the table to the end. -/
theorem get?_tableFrom (hg : g.Shaped) {ids rest : List NodeId}
    (horder : (ids ++ id :: rest).Nodup) (hn : g.node? id = some n) {f : Fragment}
    (hemit : (scopeAfter g mode types ids n).emit = .ok f) {slot : Slot}
    (hslot : slot ∈ n.outputs) :
    (tableFrom g mode types .empty (ids ++ id :: rest)).get? n.id slot.name =
      some ((scopeAfter g mode types ids n).outputExpression slot,
        (scopeAfter g mode types ids n).concreteType slot) := by
  have hrest : n.id ∉ rest := by
    rw [hg.keyed.id_of_node? hn]
    rw [List.nodup_append, List.nodup_cons] at horder
    exact horder.2.1.1
  have hname : ∀ slot' ∈ n.outputs, slot'.name = slot.name → slot' = slot := fun slot' hslot' h =>
    hg.eq_of_slot_name (OrderedMap.mem_values_of_get? hn) (mem_slots_of_outputs hslot').1
      (mem_slots_of_outputs hslot).1 h
  have hpublished : (scopeAfter g mode types ids n).publish.get? n.id slot.name =
      some ((scopeAfter g mode types ids n).outputExpression slot,
        (scopeAfter g mode types ids n).concreteType slot) := by
    rw [VariableTable.get?, entries_publish]
    exact lookup_rows hslot hname
  have hnode : publishNode g mode types (tableFrom g mode types .empty ids) id =
      (scopeAfter g mode types ids n).publish := publishNode_of_ok hn hemit
  rw [← hpublished, ← hnode, tableFrom, List.foldl_append, List.foldl_cons]
  exact get?_tableFrom_of_not_mem hg.keyed hrest slot.name

end Recorded

section Names

variable {g : Graph} {mode : Mode} {types : TypeTable} {order : List NodeId}

/-- No two outcomes of a pass come from nodes of one serial. -/
theorem nodup_serials (mode : Mode) (types : TypeTable) (hg : g.WellFormed)
    (horder : order.Nodup) :
    ((outcomes g mode types .empty order).map (·.node.serial)).Nodup := by
  have hserial : (outcomes g mode types .empty order).map (·.node.serial) =
      order.filterMap fun id => (g.node? id).map (·.serial) := by
    have hmap := congrArg (List.map (·.serial)) (nodes_outcomes g mode types .empty order)
    rwa [List.map_map, List.map_filterMap] at hmap
  rw [hserial]
  refine horder.filterMap fun id id' serial hid hid' => ?_
  obtain ⟨n, hn, rfl⟩ := Option.map_eq_some_iff.1 hid
  obtain ⟨m, hm, hnm⟩ := Option.map_eq_some_iff.1 hid'
  exact hg.node?_inj hn hm hnm.symm

/-- Every fragment among the outcomes is one that its node emits. -/
def AllEmitted (os : List Outcome) : Prop :=
  ∀ o ∈ os, ∀ f, o.fragment? = some f → ∃ s : Scope, s.node = o.node ∧ Emits s f

theorem allEmitted_outcomes (g : Graph) (mode : Mode) (types : TypeTable) (order : List NodeId) :
    AllEmitted (outcomes g mode types .empty order) := by
  intro o ho f hf
  obtain ⟨before, after, hsplit⟩ := List.append_of_mem ho
  obtain ⟨ids, -, -, -, -, -, hresult⟩ := exists_scope_of_outcomes hsplit
  have hemit := hresult.symm.trans (result_of_fragment? hf)
  exact ⟨scopeAfter g mode types ids o.node, rfl, emits_of_emit hemit⟩

/-- Names of which every fragment has at most the one of its node. -/
theorem flatMap_sublist {os : List Outcome} {names : Fragment → List String} {name : Node → String}
    (hname : ∀ s f, Emits s f → (names f).Sublist [name s.node]) (h : AllEmitted os) :
    ((os.filterMap (·.fragment?)).flatMap names).Sublist (os.map fun o => name o.node) := by
  induction os with
  | nil => exact List.Sublist.refl _
  | cons o os ih =>
    have hrest : AllEmitted os := fun o' ho' => h o' (List.mem_cons_of_mem _ ho')
    rw [List.map_cons]
    cases hf : o.fragment? with
    | none =>
      rw [List.filterMap_cons_none hf]
      exact (ih hrest).cons _
    | some f =>
      obtain ⟨s, hnode, hemits⟩ := h o List.mem_cons_self f hf
      have hown := hname s f hemits
      rw [hnode] at hown
      rw [List.filterMap_cons_some hf, List.flatMap_cons]
      exact hown.append (ih hrest)

theorem declared_sublist {os : List Outcome} (h : AllEmitted os) :
    ((((os.filterMap (·.fragment?)).flatMap (·.statements)).filterMap
      Statement.declared?).map (·.2)).Sublist (os.map (·.node.outputVariable)) := by
  rw [List.filterMap_flatMap, List.map_flatMap]
  exact flatMap_sublist (fun _ _ hemits => hemits.declared) h

theorem uniforms_sublist {os : List Outcome} (h : AllEmitted os) :
    (((os.filterMap (·.fragment?)).filterMap (·.uniform?)).map (·.name)).Sublist
      (os.map (·.node.propertyName)) := by
  rw [List.filterMap_eq_flatMap_toList, List.map_flatMap]
  exact flatMap_sublist (fun _ _ hemits => hemits.uniform) h

end Names

end ShaderGraph
