import Mathlib.Data.List.Forall2
import ShaderGraph.Proofs.Generation.Closure
import ShaderGraph.Proofs.Generation.Pass

/-!
# Every node of a pass is accounted for

A pass goes through all nodes once, whatever slots they have. A node that lacks a slot adds its
error and nothing else. Any other node adds its statements, as many as its kind and the mode ask
for, and for a surface one for every input that is fed by a node that did not fail.

* `Graph.isFed`, `Node.Contributes` : the statements that are asked for;
* `contributes_of_emit` : what is emitted is what is asked for;
* `Progress`, `Accounts`, `accounts_progress` : where a pass stands, and one step of it;
* `generate_accounts` : a whole pass.
-/

namespace ShaderGraph

open ShaderGraph.Graph

section Contributions

/-- Whether the connection into the input starts at an output slot of a node that lacks no slot. -/
def Graph.isFed (g : Graph) (id : NodeId) (slot : String) : Bool :=
  (g.connectionInto id slot).any fun c =>
    (g.node? c.fromNode).any fun m => m.failure?.isNone && (m.output? c.fromSlot).isSome

/-- The statements are those that a node of this kind contributes to a shader. -/
def Node.Contributes (n : Node) (g : Graph) (mode : Mode) (sts : List Statement) : Prop :=
  match n.kind with
  | .function f => ∃ type arguments, sts = [.call type n.outputVariable f.callName arguments]
  | .texture t => ∃ uv, sts = [.sample n.outputVariable n.propertyName uv (t.type == .bump)]
  | .uv => sts = []
  | .constant c =>
    if c.exposed = true ∨ mode = .preview then sts = []
    else ∃ value, sts = [.define c.value.type n.outputVariable value]
  | .surfaceOutput =>
    if mode = .preview then sts = []
    else List.Forall₂ (fun name st => ∃ value, st = .assign name value)
      ((NodeKind.surfaceInputs.map (·.name)).filter (g.isFed n.id)) sts

variable {s : Scope} {f : Fragment}

/-- The assignments of a surface: one for each input that is fed, in their order. -/
theorem contributes_of_surface (hkind : s.node.kind = .surfaceOutput)
    (hfed : ∀ slot, (s.feed? slot).isSome = s.graph.isFed s.node.id slot.name)
    (h : s.emitSurface = .ok f) : s.node.Contributes s.graph s.mode f.statements := by
  simp only [Node.Contributes, hkind]
  obtain ⟨inputs, hinputs, h⟩ := bind_eq_ok h
  by_cases hpreview : s.mode = .preview
  · rw [if_pos (beq_iff_eq.2 hpreview)] at h
    obtain rfl := Except.ok.inj h
    rw [if_pos hpreview]
    rfl
  · rw [if_neg (by simpa using hpreview)] at h
    obtain rfl := Except.ok.inj h
    rw [if_neg hpreview]
    have hnames : NodeKind.surfaceInputs.map (·.name) = inputs.map (·.name) := by
      have hfound := (mapM_eq_ok hinputs).imp fun _ _ hslot => (requireInput_eq_ok hslot).2.symm
      exact List.forall₂_eq_eq_eq ▸ List.forall₂_map_right_iff.2 hfound
    have hassigned : inputs.filter (fun slot => (s.feed? slot).isSome) =
        inputs.filter (s.graph.isFed s.node.id ∘ (·.name)) :=
      List.filter_congr fun slot _ => hfed slot
    rw [hnames, List.filter_map, hassigned, List.forall₂_map_left_iff, List.forall₂_map_right_iff,
      List.forall₂_same]
    exact fun slot _ => ⟨_, rfl⟩

/-- What a node emits is what its kind contributes. -/
theorem contributes_of_emit
    (hfed : ∀ slot, (s.feed? slot).isSome = s.graph.isFed s.node.id slot.name)
    (h : s.emit = .ok f) : s.node.Contributes s.graph s.mode f.statements := by
  have hemits := emits_of_emit h
  cases hemits with
  | function hkind => simp only [Node.Contributes, hkind]; exact ⟨_, _, rfl⟩
  | texture hkind => simp only [Node.Contributes, hkind]; exact ⟨_, rfl⟩
  | uv hkind => simp only [Node.Contributes, hkind]; rfl
  | property hkind hproperty =>
    simp only [Node.Contributes, hkind, if_pos (isProperty_iff.1 hproperty)]
    rfl
  | @literal c output hkind hproperty houtput =>
    have hliteral : ¬ (c.exposed = true ∨ s.mode = .preview) := by
      rw [← isProperty_iff, hproperty]
      exact Bool.false_ne_true
    simp only [Node.Contributes, hkind, if_neg hliteral]
    exact ⟨_, rfl⟩
  | preview hkind =>
    rw [Scope.emit, hkind] at h
    exact contributes_of_surface hkind hfed h
  | surface hkind =>
    rw [Scope.emit, hkind] at h
    exact contributes_of_surface hkind hfed h

end Contributions

section Steps

variable {g : Graph} {mode : Mode} {types : TypeTable} {order : List NodeId} {p : Precision}

/-- An input sees what feeds it exactly if the node there lacks no slot. -/
theorem isSome_feed? (mode : Mode) (types : TypeTable) (hkeyed : g.Keyed) (hjoined : g.Joined)
    {before after : List NodeId} {id : NodeId} {n : Node}
    (horder : g.topologicalOrder = .ok (before ++ id :: after)) (hn : g.node? id = some n)
    (slot : Slot) :
    ((scopeAfter g mode types before n).feed? slot).isSome = g.isFed n.id slot.name := by
  rw [← feed?_scopeAfter hkeyed horder hn slot]
  unfold Graph.isFed
  cases hc : g.connectionInto n.id slot.name with
  | none =>
    rw [feed?_of_none hc]
    rfl
  | some c =>
    obtain ⟨m, hm, hfeed⟩ := feed?_of_some mode hkeyed hjoined horder hc
    rw [hfeed, isSome_published?, Option.any_some, hm, Option.any_some]

/-- Where a pass stands: the sections and the errors so far. -/
structure Progress where
  sink : Sink
  errors : List NodeError

/-- Where a pass stands when the nodes of `ids` are done. -/
def progress (g : Graph) (mode : Mode) (p : Precision) (types : TypeTable) (ids : List NodeId) :
    Progress :=
  let all := outcomes g mode types .empty ids
  ⟨(all.filterMap (·.fragment?)).foldl (Sink.addFragment p) .empty, all.filterMap (·.error?)⟩

/-- What a node adds to a pass: its error and nothing else if it lacks a slot, and otherwise no
error, but its statements to the body. -/
def Accounts (g : Graph) (mode : Mode) (p : Precision) (n : Node) (before after : Progress) :
    Prop :=
  match n.kind.designated.find? n.lacks with
  | some (_, slot) => after = { before with errors := before.errors ++ [⟨n.id, n.name, slot⟩] }
  | none => after.errors = before.errors ∧ ∃ sts, n.Contributes g mode sts ∧
      after.sink.body = before.sink.body ++ sts.map (·.text p)

/-- One node of a pass. -/
theorem accounts_progress (mode : Mode) (p : Precision) (types : TypeTable) (hkeyed : g.Keyed)
    (hjoined : g.Joined) {before after : List NodeId} {id : NodeId} {n : Node}
    (horder : g.topologicalOrder = .ok (before ++ id :: after)) (hn : g.node? id = some n) :
    Accounts g mode p n (progress g mode p types before)
      (progress g mode p types (before ++ [id])) := by
  have hlast : outcomes g mode types .empty (before ++ [id]) = _ := outcomes_concat hn
  have hfailure : Outcome.error? ⟨n, (scopeAfter g mode types before n).emit⟩ = n.failure? :=
    error?_emit (scopeAfter g mode types before n)
  unfold Accounts
  cases hlacks : n.kind.designated.find? n.lacks with
  | some d =>
    have hfails : n.failure? = some ⟨n.id, n.name, d.2⟩ := by rw [Node.failure?, hlacks]; rfl
    have hemit : (scopeAfter g mode types before n).emit = .error ⟨n.id, n.name, d.2⟩ :=
      emit_of_failure hfails
    simp [progress, hlast, hemit, Outcome.fragment?, Outcome.error?]
  | none =>
    have hlives : n.failure? = none := by rw [Node.failure?, hlacks]; rfl
    rw [hlives] at hfailure
    cases hemit : (scopeAfter g mode types before n).emit with
    | error e =>
      rw [hemit] at hfailure
      cases hfailure
    | ok f =>
      have hcontributes := contributes_of_emit
        (isSome_feed? mode types hkeyed hjoined horder hn) hemit
      refine ⟨?_, f.statements, hcontributes, ?_⟩
      · simp [progress, hlast, hemit, Outcome.error?]
      · simp [progress, hlast, hemit, Outcome.fragment?, addFragment_sections.1]

end Steps

section Passes

/-- **Every node of a pass is accounted for.** A graph has a shader unless it is too large or has a
cycle, whatever slots its nodes lack. The pass starts with nothing and takes every node once, in
dependency order. A node that lacks a slot adds an error that names the first such slot, and nothing
else; another adds no error, and to the body the statements that its kind contributes. What stands
there in the end is the shader. -/
theorem generate_accounts (g : Graph) (mode : Mode) (settings : Settings) (hkeyed : g.Keyed)
    (hjoined : g.Joined) :
    ((∃ shader, generate g mode settings = .ok shader) ↔
      g.nodeCount ≤ settings.maxNodes ∧ g.Acyclic) ∧
    ∀ shader, generate g mode settings = .ok shader → ∃ order stage,
      g.topologicalOrder = .ok order ∧ order.Perm g.nodes.keys ∧
      stage = progress g mode settings.precision (g.resolveTypes order) ∧
      stage [] = ⟨.empty, []⟩ ∧
      (∀ before id after, order = before ++ id :: after → ∃ n, g.node? id = some n ∧
        Accounts g mode settings.precision n (stage before) (stage (before ++ [id]))) ∧
      shader = ⟨(stage order).sink.assemble settings, (stage order).sink.registered,
        (stage order).errors⟩ := by
  refine ⟨exists_generate_iff hjoined, fun shader h => ?_⟩
  obtain ⟨pass, hrun, rfl⟩ := generate_eq_ok_iff.1 h
  obtain ⟨-, order, horder, rfl⟩ := runPass_eq_ok_iff.1 hrun
  have hperm := perm_keys_of_topologicalOrder hjoined horder
  refine ⟨order, _, horder, hperm, rfl, rfl, ?_, rfl⟩
  rintro before id after rfl
  have hkey : id ∈ g.nodes.keys := hperm.subset (by simp)
  obtain ⟨n, hn⟩ : ∃ n, g.node? id = some n := OrderedMap.exists_get?_of_mem_keys hkey
  exact ⟨n, hn, accounts_progress mode settings.precision _ hkeyed hjoined horder hn⟩

/-- The graph of a tiled surface whose texture has lost its whole sample. -/
def damagedGraph : Graph :=
  { tiledGraph with
    nodes := tiledGraph.nodes.modify ⟨.ofNat 3⟩ fun n => (n.keepSlots ["A", "UV"]).1 }

/-- The texture adds its error alone, and the two inputs of the surface it feeds are left out. -/
theorem generate_damagedGraph :
    damagedGraph.Keyed ∧ damagedGraph.Joined ∧
    ∃ shader order stage, generate damagedGraph .surface .standard = .ok shader ∧
      damagedGraph.topologicalOrder = .ok order ∧ order.Perm damagedGraph.nodes.keys ∧
      stage = progress damagedGraph .surface .half (damagedGraph.resolveTypes order) ∧
      (∀ before id after, order = before ++ id :: after → ∃ n, damagedGraph.node? id = some n ∧
        Accounts damagedGraph .surface .half n (stage before) (stage (before ++ [id]))) ∧
      shader.errors = [⟨⟨.ofNat 3⟩, "Texture", "RGBA"⟩] ∧
      (stage order).sink.body =
        ["half4 multiply2_out = unity_multiply(IN.meshUV0, _vector21);",
          "o.Emission = half3(_vector21, 0);"] := by
  have hkeyed : damagedGraph.Keyed := by
    unfold Keyed
    decide
  have hjoined : damagedGraph.Joined := by
    unfold Graph.Joined
    decide
  obtain ⟨-, hshader⟩ := generate_accounts damagedGraph .surface .standard hkeyed hjoined
  obtain ⟨order, stage, horder, hperm, hstage, -, hsteps, -⟩ := hshader _ rfl
  refine ⟨hkeyed, hjoined, _, order, stage, rfl, horder, hperm, hstage, hsteps, rfl, ?_⟩
  obtain rfl := Except.ok.inj (horder.symm.trans rfl)
  rw [hstage]
  rfl

end Passes

end ShaderGraph
