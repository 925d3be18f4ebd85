import ShaderGraph.Proofs.Generation.Run

/-!
# What a node of a pass depends on

Whether a node fails is a matter of its own slots. What it emits otherwise is a matter of the types
of its slots and of what feeds them, and for that it makes no difference whether the table of the
pass holds the nodes before it only or all of them.

* `Node.failure?`, `error?_emit` : a node fails if it lacks a slot, whatever is around it;
* `Scope.emit_congr`, `Scope.publish_congr` : what a node emits and what it publishes is decided by
  its types and what feeds it;
* `Node.published?`, `get?_tableFrom_of_mem` : what the table of a pass holds for a node;
* `feed?_of_none`, `feed?_of_some` : what an input is fed, with the whole table at hand;
* `outcomes_eq` : the outcomes of a pass, each emitted with the whole table at hand.
-/

namespace ShaderGraph

section Failing

/-- The slots that emission looks up, in the order in which it does. -/
def NodeKind.designated : NodeKind → List (SlotDirection × String)
  | function f =>
    (argumentNames.take f.arity).map (SlotDirection.input, ·) ++ [(.output, resultName)]
  | texture _ => [(.input, uvName), (.output, sampleName)]
  | uv => [(.output, uvName)]
  | constant _ => [(.output, valueName)]
  | surfaceOutput => (surfaceInputs.map (·.name)).map (SlotDirection.input, ·)

/-- Whether no slot of the node has the direction and the name. -/
def Node.lacks (n : Node) (d : SlotDirection × String) : Bool :=
  match d.1 with
  | .input => (n.input? d.2).isNone
  | .output => (n.output? d.2).isNone

/-- The error of the first designated slot that the node lacks. -/
def Node.failure? (n : Node) : Option NodeError :=
  (n.kind.designated.find? n.lacks).map fun d => ⟨n.id, n.name, d.2⟩

/-- The computation looks up these slots in their order, and fails at the first that is missing. -/
def Scope.LooksUp {α : Type} (s : Scope) (slots : List (SlotDirection × String))
    (r : Except NodeError α) : Prop :=
  match slots.find? s.node.lacks with
  | some d => r = .error (s.missing d.2)
  | none => ∃ a, r = .ok a

variable {s : Scope} {α β : Type} {slots slots' : List (SlotDirection × String)}
  {r : Except NodeError α} {k : α → Except NodeError β}

theorem looksUp_ok (s : Scope) (a : α) : s.LooksUp [] (.ok a) := ⟨a, rfl⟩

theorem looksUp_input (s : Scope) (name : String) :
    s.LooksUp [(.input, name)] (s.requireInput name) := by
  unfold Scope.LooksUp Scope.requireInput
  rw [List.find?_singleton]
  cases hinput : s.node.input? name with
  | none => simp [Node.lacks, hinput]
  | some slot => simp [Node.lacks, hinput]

theorem looksUp_output (s : Scope) (name : String) :
    s.LooksUp [(.output, name)] (s.requireOutput name) := by
  unfold Scope.LooksUp Scope.requireOutput
  rw [List.find?_singleton]
  cases houtput : s.node.output? name with
  | none => simp [Node.lacks, houtput]
  | some slot => simp [Node.lacks, houtput]

/-- One computation after the other. -/
theorem Scope.LooksUp.bind (h : s.LooksUp slots r) (hk : ∀ a, s.LooksUp slots' (k a)) :
    s.LooksUp (slots ++ slots') (r >>= k) := by
  unfold LooksUp at h ⊢
  rw [List.find?_append]
  cases hfind : slots.find? s.node.lacks with
  | some d =>
    rw [hfind] at h
    rw [h]
    rfl
  | none =>
    rw [hfind] at h
    obtain ⟨a, rfl⟩ := h
    exact hk a

/-- What follows looks up nothing more. -/
theorem Scope.LooksUp.finish (h : s.LooksUp slots r) (hk : ∀ a, ∃ b, k a = .ok b) :
    s.LooksUp slots (r >>= k) := by
  have hrest : ∀ a, s.LooksUp [] (k a) := hk
  have hboth := h.bind hrest
  rwa [List.append_nil] at hboth

theorem looksUp_inputs (s : Scope) (names : List String) :
    s.LooksUp (names.map (SlotDirection.input, ·)) (names.mapM s.requireInput) := by
  induction names with
  | nil => exact looksUp_ok s []
  | cons name names ih =>
    rw [List.mapM_cons]
    exact (looksUp_input s name).bind fun slot => ih.finish fun rest => ⟨slot :: rest, rfl⟩

theorem looksUp_emit (s : Scope) : s.LooksUp s.node.kind.designated s.emit := by
  unfold Scope.emit
  cases hkind : s.node.kind with
  | function f =>
    have hslots : s.LooksUp (NodeKind.function f).designated (s.functionSlots f) :=
      (looksUp_inputs s _).bind fun _ => (looksUp_output s _).finish fun _ => ⟨_, rfl⟩
    exact hslots.finish fun _ => ⟨_, rfl⟩
  | texture t =>
    exact (looksUp_input s _).bind fun _ => (looksUp_output s _).finish fun _ => ⟨_, rfl⟩
  | uv => exact (looksUp_output s _).finish fun _ => ⟨_, rfl⟩
  | constant c =>
    refine (looksUp_output s _).finish fun _ => ?_
    by_cases hproperty : s.isProperty c = true
    · exact ⟨_, if_pos hproperty⟩
    · exact ⟨_, if_neg hproperty⟩
  | surfaceOutput =>
    refine (looksUp_inputs s _).finish fun inputs => ?_
    by_cases hpreview : (s.mode == .preview) = true
    · exact ⟨_, if_pos hpreview⟩
    · exact ⟨_, if_neg hpreview⟩

/-- Whether a node fails, and at which slot, is decided by its own slots. -/
theorem error?_emit (s : Scope) : Outcome.error? ⟨s.node, s.emit⟩ = s.node.failure? := by
  have hemit := looksUp_emit s
  unfold Scope.LooksUp at hemit
  unfold Node.failure?
  cases hfind : s.node.kind.designated.find? s.node.lacks with
  | some d =>
    rw [hfind] at hemit
    simp only [Outcome.error?, hemit]
    rfl
  | none =>
    rw [hfind] at hemit
    obtain ⟨f, hf⟩ := hemit
    simp only [Outcome.error?, hf]
    rfl

theorem emit_of_failure {s : Scope} {e : NodeError} (h : s.node.failure? = some e) :
    s.emit = .error e := by
  rw [← error?_emit, Outcome.error?] at h
  cases hemit : s.emit with
  | error e' =>
    simp only [hemit, Option.some.injEq] at h
    rw [h]
  | ok f =>
    simp only [hemit] at h
    cases h

end Failing

section Congruence

namespace Scope

variable {s s' : Scope}

theorem inputValue_congr (hfeed : ∀ slot ∈ s.node.inputs, s'.feed? slot = s.feed? slot)
    (htypes : ∀ slot ∈ s.node.slots, s'.concreteType slot = s.concreteType slot) {slot : Slot}
    (hslot : slot ∈ s.node.inputs) (default : Binary32) :
    s'.inputValue slot default = s.inputValue slot default := by
  rw [inputValue, inputValue, hfeed slot hslot, htypes slot (mem_slots_of_inputs hslot)]

theorem zipWith_inputValue_congr (hfeed : ∀ slot ∈ s.node.inputs, s'.feed? slot = s.feed? slot)
    (htypes : ∀ slot ∈ s.node.slots, s'.concreteType slot = s.concreteType slot) :
    ∀ {inputs : List Slot} (defaults : List Binary32), (∀ slot ∈ inputs, slot ∈ s.node.inputs) →
      List.zipWith s'.inputValue inputs defaults = List.zipWith s.inputValue inputs defaults
  | [], _, _ => rfl
  | _ :: _, [], _ => rfl
  | slot :: inputs, default :: defaults, h => by
    rw [List.forall_mem_cons] at h
    rw [List.zipWith_cons_cons, List.zipWith_cons_cons, inputValue_congr hfeed htypes h.1,
      zipWith_inputValue_congr hfeed htypes defaults h.2]

theorem bind_congr_ok {ε α β : Type} {r r' : Except ε α} {k k' : α → Except ε β} (hr : r' = r)
    (hk : ∀ a, r = .ok a → k' a = k a) : (r' >>= k') = (r >>= k) := by
  subst hr
  cases r' with
  | error e => rfl
  | ok a => exact hk a rfl

theorem functionSlots_eq_ok {f : MathFunction} {inputs : List Slot} {output : Slot}
    (h : s.functionSlots f = .ok (inputs, output)) :
    (∀ slot ∈ inputs, slot ∈ s.node.inputs) ∧ output ∈ s.node.outputs := by
  obtain ⟨inputs', hinputs, h⟩ := bind_eq_ok h
  obtain ⟨output', houtput, h⟩ := bind_eq_ok h
  obtain ⟨rfl, rfl⟩ := Prod.mk.inj (Except.ok.inj h)
  exact ⟨mem_inputs_of_mapM hinputs, (requireOutput_eq_ok houtput).1⟩

/-- What a node emits is decided by the mode, the types of its slots and what feeds its inputs. -/
theorem emit_congr (hnode : s'.node = s.node) (hmode : s'.mode = s.mode)
    (hfeed : ∀ slot ∈ s.node.inputs, s'.feed? slot = s.feed? slot)
    (htypes : ∀ slot ∈ s.node.slots, s'.concreteType slot = s.concreteType slot) :
    s'.emit = s.emit := by
  have hinput : s'.requireInput = s.requireInput := by
    funext name
    rw [requireInput, requireInput, missing, missing, hnode]
  have houtput : s'.requireOutput = s.requireOutput := by
    funext name
    rw [requireOutput, requireOutput, missing, missing, hnode]
  unfold emit
  rw [hnode]
  cases s.node.kind with
  | function f =>
    have hslots : s'.functionSlots f = s.functionSlots f := by
      rw [functionSlots, functionSlots, hinput, houtput]
    refine bind_congr_ok hslots fun ⟨inputs, output⟩ hfound => ?_
    obtain ⟨hmem, hresult⟩ := functionSlots_eq_ok hfound
    have harguments := zipWith_inputValue_congr hfeed htypes f.defaults hmem
    have hparameters : inputs.map s'.concreteType = inputs.map s.concreteType :=
      List.map_congr_left fun slot hslot => htypes slot (mem_slots_of_inputs (hmem slot hslot))
    simp only [harguments, hparameters, htypes output (mem_slots_of_outputs hresult).1, hnode]
  | texture t =>
    refine bind_congr_ok (by rw [hinput]) fun uvSlot huv => ?_
    refine bind_congr_ok (by rw [houtput]) fun output _ => ?_
    have hslot := (requireInput_eq_ok huv).1
    simp only [hfeed uvSlot hslot, inputValue_congr hfeed htypes hslot, hnode]
  | uv => exact bind_congr_ok (by rw [houtput]) fun output _ => rfl
  | constant c =>
    refine bind_congr_ok (by rw [houtput]) fun output _ => ?_
    have hproperty : s'.isProperty c = s.isProperty c := by
      rw [isProperty, isProperty, hmode]
    simp only [hproperty, hnode]
  | surfaceOutput =>
    refine bind_congr_ok (by rw [hinput]) fun inputs hinputs => ?_
    have hmem := mem_inputs_of_mapM hinputs
    have hfed : inputs.filter (fun slot => (s'.feed? slot).isSome) =
        inputs.filter fun slot => (s.feed? slot).isSome :=
      List.filter_congr fun slot hslot => by rw [hfeed slot (hmem slot hslot)]
    have hassigned : (inputs.filter fun slot => (s.feed? slot).isSome).map
          (fun slot => Statement.assign slot.name (s'.inputValue slot .zero)) =
        (inputs.filter fun slot => (s.feed? slot).isSome).map
          fun slot => .assign slot.name (s.inputValue slot .zero) := by
      refine List.map_congr_left fun slot hslot => ?_
      rw [inputValue_congr hfeed htypes (hmem slot (List.mem_of_mem_filter hslot))]
    simp only [hmode, hfed, hassigned]

/-- So is what it publishes. -/
theorem publish_congr (hnode : s'.node = s.node) (hmode : s'.mode = s.mode)
    (hpublished : s'.published = s.published)
    (htypes : ∀ slot ∈ s.node.outputs, s'.concreteType slot = s.concreteType slot) :
    s'.publish = s.publish := by
  rw [publish, publish, hnode, hpublished]
  refine List.foldl_ext _ _ _ fun table slot hslot => ?_
  have hexpression : s'.outputExpression slot = s.outputExpression slot := by
    simp only [outputExpression, isProperty, hnode, hmode]
    cases s.node.kind <;> rfl
  rw [hexpression, htypes slot hslot]

end Scope

end Congruence

section Tables

variable {g : Graph} {mode : Mode} {types : TypeTable} {order : List NodeId} {id : NodeId}
  {n : Node}

/-- The scope of a node that nothing feeds. -/
def Node.alone (n : Node) (mode : Mode) (types : TypeTable) : Scope :=
  ⟨.empty "", n, mode, types, .empty⟩

/-- What the node publishes for an output slot, at the types of a table; nothing if it fails. -/
def Node.published? (n : Node) (mode : Mode) (types : TypeTable) (slot : String) :
    Option (Expression × ConcreteType) :=
  if n.failure?.isSome then none else (n.alone mode types).publish.get? n.id slot

theorem get?_publish (s : Scope) (hnew : ∀ slot, s.published.get? s.node.id slot = none)
    (slot : String) :
    s.publish.get? s.node.id slot = (s.node.alone s.mode s.types).publish.get? s.node.id slot := by
  have hold : s.published.entries.lookup (s.node.id, slot) = none := hnew slot
  rw [VariableTable.get?, VariableTable.get?, entries_publish, entries_publish, List.lookup_append,
    List.lookup_append, hold]
  rfl

/-- The table of a pass has what each of its nodes publishes. -/
theorem get?_tableFrom_of_mem (hg : g.Keyed) (horder : order.Nodup) (hid : id ∈ order)
    (hn : g.node? id = some n) (slot : String) :
    (tableFrom g mode types .empty order).get? id slot = n.published? mode types slot := by
  obtain ⟨before, after, rfl⟩ := List.append_of_mem hid
  rw [List.nodup_append, List.nodup_cons] at horder
  have hbefore : id ∉ before := fun hmem => horder.2.2 id hmem id List.mem_cons_self rfl
  have hnew : ∀ slot, (tableFrom g mode types .empty before).get? id slot = none :=
    get?_tableFrom_of_not_mem hg hbefore
  have hlast : (tableFrom g mode types .empty (before ++ id :: after)).get? id slot =
      (publishNode g mode types (tableFrom g mode types .empty before) id).get? id slot := by
    rw [tableFrom, List.foldl_append, List.foldl_cons]
    exact get?_tableFrom_of_not_mem hg horder.2.1.1 slot
  have hfailure : Outcome.error? ⟨n, (scopeAfter g mode types before n).emit⟩ = n.failure? :=
    error?_emit (scopeAfter g mode types before n)
  rw [hlast, Node.published?, ← hfailure]
  cases hemit : (scopeAfter g mode types before n).emit with
  | error e =>
    rw [publishNode_of_error hn hemit, hnew]
    rfl
  | ok f =>
    obtain rfl := hg.id_of_node? hn
    rw [publishNode_of_ok hn hemit]
    exact get?_publish (scopeAfter g mode types before n) hnew slot

theorem feed?_of_none {slot : Slot} (hc : g.connectionInto n.id slot.name = none) :
    (scopeAfter g mode types order n).feed? slot = none :=
  congrArg (Option.bind · _) hc

/-- An input is fed what the node at the other end of its connection publishes. -/
theorem feed?_of_some (mode : Mode) (hg : g.Keyed) (hjoined : g.Joined)
    (horder : g.topologicalOrder = .ok order) {slot : Slot} {c : Connection}
    (hc : g.connectionInto n.id slot.name = some c) :
    ∃ m, g.node? c.fromNode = some m ∧
      (scopeAfter g mode types order n).feed? slot = m.published? mode types c.fromSlot := by
  have hkey := hjoined.left (Graph.feeds_of_connectionInto hc)
  obtain ⟨m, hm⟩ : ∃ m, g.node? c.fromNode = some m := OrderedMap.exists_get?_of_mem_keys hkey
  have hmem : c.fromNode ∈ order :=
    (Graph.perm_keys_of_topologicalOrder hjoined horder).mem_iff.2 hkey
  have hfeed : (scopeAfter g mode types order n).feed? slot =
      (tableFrom g mode types .empty order).get? c.fromNode c.fromSlot :=
    congrArg (Option.bind · _) hc
  refine ⟨m, hm, hfeed.trans ?_⟩
  exact get?_tableFrom_of_mem hg (Graph.nodup_of_topologicalOrder horder) hmem hm c.fromSlot

/-- What feeds a node was published before it, so the rest of the order adds nothing to that. -/
theorem feed?_scopeAfter (hg : g.Keyed) {before after : List NodeId}
    (horder : g.topologicalOrder = .ok (before ++ id :: after)) (hn : g.node? id = some n)
    (slot : Slot) :
    (scopeAfter g mode types (before ++ id :: after) n).feed? slot =
      (scopeAfter g mode types before n).feed? slot := by
  refine Option.bind_congr fun c hc => ?_
  have hfeeds : g.Feeds c.fromNode n.id := Graph.feeds_of_connectionInto hc
  rw [hg.id_of_node? hn] at hfeeds
  have hmem := Graph.mem_before_of_topologicalOrder horder hfeeds
  have hrest : c.fromNode ∉ id :: after := fun hmem' =>
    (List.nodup_append.1 (Graph.nodup_of_topologicalOrder horder)).2.2 _ hmem _ hmem' rfl
  change (tableFrom g mode types .empty (before ++ id :: after)).get? c.fromNode c.fromSlot =
    (tableFrom g mode types .empty before).get? c.fromNode c.fromSlot
  rw [tableFrom, List.foldl_append]
  exact get?_tableFrom_of_not_mem hg hrest c.fromSlot

/-- The outcomes of a pass, with the whole table at hand. -/
theorem outcomes_eq (mode : Mode) (types : TypeTable) (hg : g.Keyed)
    (horder : g.topologicalOrder = .ok order) :
    outcomes g mode types .empty order =
      (order.filterMap g.node?).map fun n => ⟨n, (scopeAfter g mode types order n).emit⟩ := by
  have hsame : ∀ o ∈ outcomes g mode types .empty order,
      (⟨o.node, (scopeAfter g mode types order o.node).emit⟩ : Outcome) = o := by
    intro o ho
    obtain ⟨before, after, hsplit⟩ := List.append_of_mem ho
    obtain ⟨ids, id, rest, rfl, -, hnode, hresult⟩ := exists_scope_of_outcomes hsplit
    have hemit : (scopeAfter g mode types (ids ++ id :: rest) o.node).emit =
        (scopeAfter g mode types ids o.node).emit :=
      Scope.emit_congr rfl rfl (fun slot _ => feed?_scopeAfter hg horder hnode slot)
        fun _ _ => rfl
    rw [hemit]
    exact congrArg (Outcome.mk o.node) hresult.symm
  rw [← nodes_outcomes g mode types .empty order, List.map_map]
  exact (List.map_id _).symm.trans (List.map_congr_left fun o ho => (hsame o ho).symm)

end Tables

end ShaderGraph
