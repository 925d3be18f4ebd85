import Mathlib.Data.List.Forall2
import ShaderGraph.Proofs.Generation.Closure
import ShaderGraph.Proofs.Generation.Pass

/-!
# Previews and final shaders

In a preview every constant is a property and no surface is assigned. A graph whose constants are
all exposed has the same properties in its final shader, so the two passes run in step: their tables
are equal after every node, and what a node emits differs in two ways only.

* `Graph.expose` : the graph with its constants exposed, of the same order and types;
* `Companion`, `Counterpart` : the two ways in which fragments differ;
* `counterpart_emit`, `publish_expose` : one node of both passes;
* `outcomes_expose` : all of them;
* `generate_preview` : the sections.
-/

namespace ShaderGraph

open ShaderGraph.Graph

section Exposing

def NodeKind.expose : NodeKind → NodeKind
  | constant c => constant { c with exposed := true }
  | kind => kind

def Node.expose (n : Node) : Node := { n with kind := n.kind.expose }

/-- The graph with every constant exposed. -/
def Graph.expose (g : Graph) : Graph :=
  { g with
    nodes := ⟨g.nodes.entries.map fun e => (e.1, e.2.expose),
      (OrderedMap.map_fst_map_snd (fun _ => Node.expose) g.nodes.entries).symm ▸ g.nodes.nodup⟩ }

variable {g : Graph} {id : NodeId} {n : Node}

theorem node?_expose (g : Graph) (id : NodeId) : g.expose.node? id = (g.node? id).map Node.expose :=
  OrderedMap.lookup_map_snd (fun _ => Node.expose) g.nodes.entries id

theorem node?_expose_of_none (hn : g.node? id = none) : g.expose.node? id = none := by
  rw [node?_expose, hn, Option.map_none]

theorem node?_expose_of_some (hn : g.node? id = some n) : g.expose.node? id = some n.expose := by
  rw [node?_expose, hn, Option.map_some]

theorem nodeCount_expose (g : Graph) : g.expose.nodeCount = g.nodeCount := List.length_map _

theorem topologicalOrder_expose (g : Graph) : g.expose.topologicalOrder = g.topologicalOrder :=
  topologicalOrder_congr (OrderedMap.map_fst_map_snd (fun _ => Node.expose) g.nodes.entries) rfl

/-- Types look at the slots of the nodes only. -/
theorem resolveTypes_expose (g : Graph) (order : List NodeId) :
    g.expose.resolveTypes order = g.resolveTypes order := by
  have hincoming : ∀ types id name,
      incomingType? g.expose types id name = incomingType? g types id name := by
    intro types id name
    refine Option.bind_congr fun c _ => ?_
    rw [node?_expose, Option.bind_map]
    rfl
  have hnode : resolveNode g.expose = resolveNode g := by
    funext types id
    rw [resolveNode, resolveNode, node?_expose]
    cases hn : g.node? id with
    | none => rfl
    | some n =>
      have hslots := slotType_congr (hincoming types id) n.expose
      simp only [Option.map_some, hslots]
      rfl
  rw [resolveTypes, resolveTypes, hnode]

end Exposing

section Steps

/-- A property of the preview and the one in its place in the other shader. They are of the same
node; a constant is shown in the other shader whether it is exposed or not. -/
inductive Companion (g : Graph) : Property → Property → Prop
  | texture {n : Node} {t : TextureSampler} (hn : n ∈ g.nodes.values)
      (hkind : n.kind = .texture t) :
      Companion g ⟨n.propertyName, n.name, .texture t.texture t.type, t.exposed⟩
        ⟨n.propertyName, n.name, .texture t.texture t.type, t.exposed⟩
  | constant {n : Node} {c : Constant} (hn : n ∈ g.nodes.values) (hkind : n.kind = .constant c) :
      Companion g ⟨n.propertyName, n.name, Scope.constantProperty c.value, c.exposed⟩
        ⟨n.propertyName, n.name, Scope.constantProperty c.value, true⟩

/-- What a node of the graph emits in a preview, and what it emits to the other shader. -/
structure Counterpart (g : Graph) (n : Node) (f f' : Fragment) : Prop where
  statements : f.statements = if n.kind = .surfaceOutput then [] else f'.statements
  assigns : ∀ st ∈ f'.statements, n.kind = .surfaceOutput ↔ ∃ name value, st = .assign name value
  definition : f.definition = f'.definition
  property : Option.Rel (Companion g) (f.property.map Prod.fst) (f'.property.map Prod.fst)
  uniform : f.uniform? = f'.uniform?
  meshUV : f.meshUV = f'.meshUV

/-- A node fails in both passes, at the same slot, or emits counterparts. -/
inductive SameResult (g : Graph) (n : Node) :
    Except NodeError Fragment → Except NodeError Fragment → Prop
  | error (e : NodeError) : SameResult g n (.error e) (.error e)
  | ok {f f' : Fragment} (h : Counterpart g n f f') : SameResult g n (.ok f) (.ok f')

/-- The scope of the node in the other pass. -/
def Scope.expose (s : Scope) : Scope :=
  { s with
    graph := s.graph.expose
    node := s.node.expose
    mode := .surface }

variable {s : Scope} {f : Fragment}

theorem expose_eq_surfaceOutput {kind : NodeKind} :
    kind.expose = .surfaceOutput ↔ kind = .surfaceOutput := by
  cases kind <;> simp [NodeKind.expose]

/-- The names of a node do not show whether it is exposed. -/
theorem variableBase_expose (n : Node) : n.expose.variableBase = n.variableBase := by
  obtain ⟨id, serial, name, kind, slots⟩ := n
  cases kind <;> rfl

/-- A node that is no constant and no surface does not ask for the mode. -/
theorem emit_expose (hconstant : ∀ c, s.node.kind ≠ .constant c)
    (hsurface : s.node.kind ≠ .surfaceOutput) : s.expose.emit = s.emit := by
  obtain ⟨g, ⟨id, serial, name, kind, slots⟩, mode, types, table⟩ := s
  cases kind with
  | constant c => exact absurd rfl (hconstant c)
  | surfaceOutput => exact absurd rfl hsurface
  | _ => rfl

/-- What such a node emits is its own counterpart. -/
theorem Emits.counterpart (h : Emits s f) (hn : s.node ∈ s.graph.nodes.values)
    (hconstant : ∀ c, s.node.kind ≠ .constant c) (hsurface : s.node.kind ≠ .surfaceOutput) :
    Counterpart s.graph s.node f f := by
  refine ⟨(if_neg hsurface).symm, fun st hst => iff_of_false hsurface ?_, rfl, ?_, rfl, rfl⟩
  · rintro ⟨name, value, rfl⟩
    cases h with
    | function => simp at hst
    | texture => simp at hst
    | uv => cases hst
    | property => cases hst
    | literal => simp at hst
    | preview => cases hst
    | surface hkind => exact hsurface hkind
  · cases h with
    | function => exact .none
    | texture hkind => exact .some (.texture hn hkind)
    | uv => exact .none
    | property hkind => exact absurd hkind (hconstant _)
    | literal => exact .none
    | preview => exact .none
    | surface => exact .none

/-- A constant is a property in both passes. -/
theorem sameResult_constant {c : Constant} (hmode : s.mode = .preview)
    (hn : s.node ∈ s.graph.nodes.values) (hkind : s.node.kind = .constant c) :
    SameResult s.graph s.node s.emit s.expose.emit := by
  have hkind' : s.expose.node.kind = .constant { c with exposed := true } :=
    congrArg NodeKind.expose hkind
  have hname : s.expose.node.propertyName = s.node.propertyName :=
    congrArg ("_" ++ ·) (variableBase_expose s.node)
  have houtput : s.expose.requireOutput NodeKind.valueName =
    s.requireOutput NodeKind.valueName := rfl
  have hproperty : s.isProperty c = true := by simp [Scope.isProperty, hmode]
  have hproperty' : s.expose.isProperty { c with exposed := true } = true := rfl
  rw [Scope.emit, Scope.emit, hkind, hkind']
  unfold Scope.emitConstant
  simp only [houtput, hname, hproperty, hproperty', if_true]
  cases s.requireOutput NodeKind.valueName with
  | error e => exact .error e
  | ok output =>
    refine .ok ⟨(ite_self _).symm, fun st hst => ?_, rfl, .some (.constant hn hkind), rfl, rfl⟩
    cases hst

/-- A surface that does not fail is left out of a preview. -/
theorem sameResult_surface (hmode : s.mode = .preview) (hkind : s.node.kind = .surfaceOutput) :
    SameResult s.graph s.node s.emit s.expose.emit := by
  have hkind' : s.expose.node.kind = .surfaceOutput := congrArg NodeKind.expose hkind
  have hinputs : (NodeKind.surfaceInputs.map (·.name)).mapM s.expose.requireInput =
    (NodeKind.surfaceInputs.map (·.name)).mapM s.requireInput := rfl
  rw [Scope.emit, Scope.emit, hkind, hkind']
  unfold Scope.emitSurface
  rw [hinputs, hmode]
  cases (NodeKind.surfaceInputs.map (·.name)).mapM s.requireInput with
  | error e => exact .error e
  | ok inputs =>
    refine .ok ⟨(if_pos hkind).symm, fun st hst => iff_of_true hkind ?_, rfl, .none, rfl, rfl⟩
    obtain ⟨slot, -, rfl⟩ := List.mem_map.1 hst
    exact ⟨_, _, rfl⟩

/-- One node of both passes. -/
theorem sameResult_emit (hmode : s.mode = .preview) (hn : s.node ∈ s.graph.nodes.values) :
    SameResult s.graph s.node s.emit s.expose.emit := by
  have hsame : (∀ c, s.node.kind ≠ .constant c) → s.node.kind ≠ .surfaceOutput →
      SameResult s.graph s.node s.emit s.expose.emit := by
    intro hconstant hsurface
    rw [emit_expose hconstant hsurface]
    cases hemit : s.emit with
    | error e => exact .error e
    | ok f => exact .ok ((emits_of_emit hemit).counterpart hn hconstant hsurface)
  cases hkind : s.node.kind with
  | constant c => exact sameResult_constant hmode hn hkind
  | surfaceOutput => exact sameResult_surface hmode hkind
  | function f => exact hsame (by simp [hkind]) (by simp [hkind])
  | texture t => exact hsame (by simp [hkind]) (by simp [hkind])
  | uv => exact hsame (by simp [hkind]) (by simp [hkind])

/-- In both passes the slots of a node are read by the same expressions, at the same types. -/
theorem publish_expose (hmode : s.mode = .preview) : s.expose.publish = s.publish := by
  have hexpression : s.expose.outputExpression = s.outputExpression := by
    obtain ⟨g, ⟨id, serial, name, kind, slots⟩, mode, types, table⟩ := s
    obtain rfl : mode = .preview := hmode
    cases kind with
    | constant c =>
      obtain ⟨value, exposed⟩ := c
      cases exposed <;> rfl
    | _ => rfl
  unfold Scope.publish
  rw [hexpression]
  rfl

end Steps

section Runs

variable {g : Graph} {types : TypeTable} {table : VariableTable} {id : NodeId} {n : Node}

/-- The outcomes of one node in the two passes. -/
structure SameOutcome (g : Graph) (o o' : Outcome) : Prop where
  node : o'.node = o.node.expose
  result : SameResult g o.node o.result o'.result

theorem sameResult_of_node? (types : TypeTable) (table : VariableTable) (hn : g.node? id = some n) :
    SameResult g n (Scope.emit ⟨g, n, .preview, types, table⟩)
      (Scope.emit ⟨g.expose, n.expose, .surface, types, table⟩) :=
  sameResult_emit (s := ⟨g, n, .preview, types, table⟩) rfl (OrderedMap.mem_values_of_get? hn)

/-- After a node the tables of the two passes are still equal. -/
theorem publishNode_expose (g : Graph) (types : TypeTable) (table : VariableTable) (id : NodeId) :
    publishNode g.expose .surface types table id = publishNode g .preview types table id := by
  cases hn : g.node? id with
  | none => rw [publishNode_of_none hn, publishNode_of_none (node?_expose_of_none hn)]
  | some n =>
    have hn' : g.expose.node? id = some n.expose := node?_expose_of_some hn
    have hresult := sameResult_of_node? types table hn
    generalize hemit : Scope.emit ⟨g, n, .preview, types, table⟩ = r,
      hemit' : Scope.emit ⟨g.expose, n.expose, .surface, types, table⟩ = r' at hresult
    cases hresult with
    | error e => rw [publishNode_of_error hn hemit, publishNode_of_error hn' hemit']
    | ok hf =>
      rw [publishNode_of_ok hn hemit, publishNode_of_ok hn' hemit']
      exact publish_expose (s := ⟨g, n, .preview, types, table⟩) rfl

/-- The passes run in step. -/
theorem outcomes_expose (g : Graph) (types : TypeTable) (table : VariableTable)
    (order : List NodeId) :
    List.Forall₂ (SameOutcome g) (outcomes g .preview types table order)
      (outcomes g.expose .surface types table order) := by
  -- both passes read one table, which every node changes, so it is general
  induction order generalizing table with
  | nil => exact .nil
  | cons id order ih =>
    cases hn : g.node? id with
    | none =>
      rw [outcomes_cons_of_none hn, outcomes_cons_of_none (node?_expose_of_none hn)]
      exact ih table
    | some n =>
      rw [outcomes_cons_of_some hn, outcomes_cons_of_some (node?_expose_of_some hn),
        publishNode_expose]
      exact .cons ⟨rfl, sameResult_of_node? types table hn⟩ (ih _)

end Runs

section Filling

variable {g : Graph} {p : Precision} {o o' : Outcome} {os os' : List Outcome}
  {fs fs' : List Fragment}

/-- The statements that a node emits, none if it fails. -/
def Outcome.statements (o : Outcome) : List Statement := o.fragment?.toList.flatMap (·.statements)

theorem body_outcomes (p : Precision) (os : List Outcome) :
    ((os.filterMap (·.fragment?)).foldl (Sink.addFragment p) .empty).body =
      (os.flatMap (·.statements)).map (·.text p) := by
  rw [body_foldl, List.filterMap_eq_flatMap_toList, List.flatMap_assoc]
  rfl

theorem filterMap_eq_of_forall₂ {α β γ : Type} {R : α → β → Prop} {f : α → Option γ}
    {f' : β → Option γ} {l : List α} {l' : List β} (h : List.Forall₂ R l l')
    (hf : ∀ a b, R a b → f a = f' b) : l.filterMap f = l'.filterMap f' := by
  induction h with
  | nil => rfl
  | cons hab _ ih => rw [List.filterMap_cons, List.filterMap_cons, hf _ _ hab, ih]

theorem any_eq_of_forall₂ {α β : Type} {R : α → β → Prop} {f : α → Bool} {f' : β → Bool}
    {l : List α} {l' : List β} (h : List.Forall₂ R l l') (hf : ∀ a b, R a b → f a = f' b) :
    l.any f = l'.any f' := by
  induction h with
  | nil => rfl
  | cons hab _ ih => rw [List.any_cons, List.any_cons, hf _ _ hab, ih]

theorem SameOutcome.error?_eq (h : SameOutcome g o o') : o.error? = o'.error? := by
  obtain ⟨n, r⟩ := o
  obtain ⟨n', r'⟩ := o'
  cases h.result <;> rfl

theorem SameOutcome.fragment? (h : SameOutcome g o o') :
    Option.Rel (fun f f' => ∃ n, Counterpart g n f f') o.fragment? o'.fragment? := by
  obtain ⟨n, r⟩ := o
  obtain ⟨n', r'⟩ := o'
  cases h.result with
  | error e => exact .none
  | ok hf => exact .some ⟨_, hf⟩

theorem SameOutcome.kind_eq (h : SameOutcome g o o') :
    o'.node.kind = .surfaceOutput ↔ o.node.kind = .surfaceOutput := by
  rw [h.node]
  exact expose_eq_surfaceOutput

theorem SameOutcome.statements (h : SameOutcome g o o') :
    o.statements = if o'.node.kind = .surfaceOutput then [] else o'.statements := by
  simp only [h.kind_eq]
  obtain ⟨n, r⟩ := o
  obtain ⟨n', r'⟩ := o'
  cases h.result with
  | error e => exact (ite_self _).symm
  | ok hf => simpa [Outcome.statements, Outcome.fragment?] using hf.statements

theorem SameOutcome.assigns (h : SameOutcome g o o') : ∀ st ∈ o'.statements,
    o'.node.kind = .surfaceOutput ↔ ∃ name value, st = .assign name value := by
  simp only [h.kind_eq]
  obtain ⟨n, r⟩ := o
  obtain ⟨n', r'⟩ := o'
  cases h.result with
  | error e => simp [Outcome.statements, Outcome.fragment?]
  | ok hf => simpa [Outcome.statements, Outcome.fragment?] using hf.assigns

/-- The body of the preview is what the nodes other than surfaces emit to the other shader. -/
theorem flatMap_statements (h : List.Forall₂ (SameOutcome g) os os') :
    os.flatMap (·.statements) =
      (os'.filter (·.node.kind ≠ .surfaceOutput)).flatMap (·.statements) := by
  induction h with
  | nil => rfl
  | @cons o o' os os' ho _ ih =>
    rw [List.flatMap_cons, ih, ho.statements]
    by_cases hkind : o'.node.kind = .surfaceOutput
    · rw [if_pos hkind, List.filter_cons_of_neg (by simpa using hkind), List.nil_append]
    · rw [if_neg hkind, List.filter_cons_of_pos (by simpa using hkind), List.flatMap_cons]

theorem Companion.name_eq {a b : Property} (h : Companion g a b) : a.name = b.name := by
  cases h <;> rfl

/-- Properties are registered in step, since companions have one name. -/
theorem register_companion {l l' : List Property} (hl : List.Forall₂ (Companion g) l l')
    {a b : Property} (h : Companion g a b) :
    List.Forall₂ (Companion g) (register l a) (register l' b) := by
  have hany : l.any (·.name = a.name) = l'.any (·.name = b.name) :=
    any_eq_of_forall₂ hl fun _ _ hab => by rw [hab.name_eq, h.name_eq]
  unfold register
  rw [hany]
  split
  · exact hl
  · exact List.rel_append hl (.cons h .nil)

end Filling

section Passes

/-- What the preview of a graph has in common with the final shader of the graph with its constants
exposed. -/
structure PreviewOf (g : Graph) (p : Precision) (preview final : Pass) : Prop where
  errors : preview.errors = final.errors
  /-- The functions, the uniforms, the interpolators and the vertex stage are the same. -/
  sections : ∀ s, s ≠ .properties → s ≠ .body → preview.sink.chunks s = final.sink.chunks s
  properties : List.Forall₂ (Companion g) preview.sink.registered final.sink.registered
  body : final.sink.body = (final.outcomes.flatMap (·.statements)).map (·.text p)
  /-- The surfaces are left out of the body of the preview. -/
  preview_body : preview.sink.body =
    ((final.outcomes.filter (·.node.kind ≠ .surfaceOutput)).flatMap (·.statements)).map (·.text p)
  /-- Surfaces emit assignments, and no other node does. -/
  assigns : ∀ o ∈ final.outcomes, ∀ st ∈ o.statements,
    o.node.kind = .surfaceOutput ↔ ∃ name value, st = .assign name value

variable {g : Graph} {os os' : List Outcome}

theorem previewOf_outcomes (p : Precision) (h : List.Forall₂ (SameOutcome g) os os') :
    PreviewOf g p ⟨os, (os.filterMap (·.fragment?)).foldl (Sink.addFragment p) .empty⟩
      ⟨os', (os'.filterMap (·.fragment?)).foldl (Sink.addFragment p) .empty⟩ := by
  have hfragments : List.Forall₂ (fun f f' => ∃ n, Counterpart g n f f')
      (os.filterMap (·.fragment?)) (os'.filterMap (·.fragment?)) :=
    List.rel_filterMap (fun _ _ ho => ho.fragment?) h
  refine ⟨filterMap_eq_of_forall₂ h fun _ _ ho => ho.error?_eq, ?_, ?_, body_outcomes p os', ?_, ?_⟩
  · have hmesh := any_eq_of_forall₂ hfragments fun _ _ ⟨_, hf⟩ => hf.meshUV
    intro s hproperties hbody
    cases s with
    | properties => exact absurd rfl hproperties
    | propertyUsages =>
      simp only [Sink.chunks, propertyUsages_foldl]
      rw [filterMap_eq_of_forall₂ hfragments fun _ _ ⟨_, hf⟩ => hf.uniform]
    | functions =>
      simp only [Sink.chunks, functions_foldl]
      rw [filterMap_eq_of_forall₂ hfragments fun _ _ ⟨_, hf⟩ => hf.definition]
    | vertexToFragment => simp only [Sink.chunks, vertexToFragment_sink, hmesh]
    | vertex => simp only [Sink.chunks, vertex_sink, hmesh]
    | body => exact absurd rfl hbody
  · rw [registered_foldl, registered_foldl]
    have hregistered := List.rel_filterMap (fun _ _ ⟨_, hf⟩ => hf.property) hfragments
    exact List.rel_foldl (P := List.Forall₂ (Companion g)) (R := Companion g)
      (fun _ _ hl _ _ hq => register_companion hl hq) .nil hregistered
  · rw [body_outcomes, flatMap_statements h]
  · intro o' ho'
    obtain ⟨o, -, ho⟩ := exists_left_of_forall₂ h ho'
    exact ho.assigns

/-- **A preview is the final shader without its surfaces.** If a graph has a shader, so have its
preview and the graph with its constants exposed. The two have the same errors, functions, uniforms
and interpolators, and the same properties but for whether constants are shown. The body of the
preview is that of the other shader without what the surfaces assign. -/
theorem generate_preview (g : Graph) (mode : Mode) (settings : Settings) (shader : Shader)
    (h : generate g mode settings = .ok shader) :
    ∃ preview final,
      runPass g .preview settings = .ok preview ∧
      runPass g.expose .surface settings = .ok final ∧
      generate g .preview settings =
        .ok ⟨preview.sink.assemble settings, preview.sink.registered, preview.errors⟩ ∧
      generate g.expose .surface settings =
        .ok ⟨final.sink.assemble settings, final.sink.registered, final.errors⟩ ∧
      PreviewOf g settings.precision preview final := by
  obtain ⟨pass, hrun, -⟩ := generate_eq_ok_iff.1 h
  obtain ⟨hlimit, order, horder, -⟩ := runPass_eq_ok_iff.1 hrun
  have hlimit' : g.expose.nodeCount ≤ settings.maxNodes := by rwa [nodeCount_expose]
  have horder' : g.expose.topologicalOrder = .ok order := by rwa [topologicalOrder_expose]
  have hpreview := runPass_eq .preview hlimit horder
  have hfinal := runPass_eq .surface hlimit' horder'
  refine ⟨_, _, hpreview, hfinal, generate_eq hpreview, generate_eq hfinal, ?_⟩
  refine previewOf_outcomes settings.precision ?_
  rw [resolveTypes_expose]
  exact outcomes_expose g _ .empty order

/-- The tiled surface, with the scale of the tiles kept from the material. -/
def hiddenGraph : Graph :=
  { tiledGraph with
    nodes := tiledGraph.nodes.modify ⟨.ofNat 1⟩ fun n =>
      { n with kind := .constant ⟨.vector2 .half .one, false⟩ } }

/-- The scale is a property of the preview, though not a shown one, and the surface is left out. -/
theorem generate_hiddenGraph :
    ∃ shader preview final, generate hiddenGraph .surface .standard = .ok shader ∧
      runPass hiddenGraph .preview .standard = .ok preview ∧
      runPass hiddenGraph.expose .surface .standard = .ok final ∧
      PreviewOf hiddenGraph .half preview final ∧
      preview.sink.registered.map (fun q => (q.name, q.exposed)) =
        [("_vector21", false), ("_texture3", true)] ∧
      final.sink.registered.map (fun q => (q.name, q.exposed)) =
        [("_vector21", true), ("_texture3", true)] ∧
      preview.sink.body =
        ["half4 multiply2_out = unity_multiply(IN.meshUV0, _vector21);",
          "half4 texture3_out = tex2D(_texture3, multiply2_out.xy);"] ∧
      final.sink.body =
        ["half4 multiply2_out = unity_multiply(IN.meshUV0, _vector21);",
          "half4 texture3_out = tex2D(_texture3, multiply2_out.xy);",
          "o.Albedo = texture3_out.xyz;", "o.Emission = half3(_vector21, 0);",
          "o.Alpha = texture3_out.a;"] := by
  obtain ⟨preview, final, hpreview, hfinal, -, -, hsame⟩ :=
    generate_preview hiddenGraph .surface .standard _ rfl
  refine ⟨_, preview, final, rfl, hpreview, hfinal, hsame, ?_⟩
  obtain rfl := Except.ok.inj (hpreview.symm.trans rfl)
  obtain rfl := Except.ok.inj (hfinal.symm.trans rfl)
  exact ⟨rfl, rfl, rfl, rfl⟩

end Passes

end ShaderGraph
