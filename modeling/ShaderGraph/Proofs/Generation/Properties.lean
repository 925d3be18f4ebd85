import ShaderGraph.Proofs.Generation.Closure
import ShaderGraph.Proofs.Generation.Pass

/-!
# Properties and their uniforms

The properties of a pass stand in three places that leave out repetitions by different rules: the
list that comes with the shader by name, their declarations not at all, and the uniforms by text.
Names tell the serials of their nodes, so where these are distinct nothing is left out and the three
places are in step. Neither the slots nor the connections of the graph matter for that.

* `declared_sink` : declarations are in step with the list, whatever is registered;
* `Node.held?`, `property_emit` : the property that a node holds, and that it emits unless it fails;
* `generate_properties` : the three places in a whole pass.
-/

namespace ShaderGraph

open Reading ShaderGraph.Graph

section Registering

variable {k : Sink}

/-- The declarations are those of the registered properties, in their order. -/
def Sink.Declared (k : Sink) : Prop := k.properties = k.registered.map (·.declaration)

theorem Sink.Declared.addChunk (h : k.Declared) {s : Section} (hs : s ≠ .properties)
    (text : String) (unique : Bool) : (k.addChunk s text unique).Declared := by
  cases s with
  | properties => exact absurd rfl hs
  | _ => exact h

theorem Sink.Declared.addProperty (h : k.Declared) (property : Property) :
    (k.addProperty property).Declared := by
  unfold Sink.addProperty
  split_ifs
  · exact h
  · simpa [Declared, addLine, Sink.addChunk, addTo] using h

/-- Whatever a pass registers is declared, in the same order. -/
theorem declared_sink (p : Precision) (fs : List Fragment) :
    (fs.foldl (Sink.addFragment p) .empty).Declared := by
  refine foldl_addFragment_induction (P := Sink.Declared) ?_ ?_ ?_ p fs
  · exact fun _ _ text unique hs h => h.addChunk hs text unique
  · exact fun _ property h => h.addProperty property
  · rfl

/-- Properties of different names are all registered. -/
theorem foldl_register {l ps : List Property} (h : ((l ++ ps).map (·.name)).Nodup) :
    ps.foldl register l = l ++ ps := by
  induction ps generalizing l with
  | nil => simp
  | cons q ps ih =>
    have hfresh : l.any (·.name = q.name) = false := by
      rw [List.any_eq_false]
      intro r hr hname
      rw [List.map_append, List.map_cons, List.nodup_append] at h
      exact h.2.2 r.name (List.mem_map_of_mem hr) q.name List.mem_cons_self
        (of_decide_eq_true hname)
    rw [List.append_cons] at h
    rw [List.foldl_cons, register, hfresh, if_neg Bool.false_ne_true, ih h, ← List.append_cons]

end Registering

section Holding

/-- The property that a node of this kind holds in a pass, and the type of the uniform behind it. -/
def Node.held? (n : Node) (mode : Mode) : Option (Property × ConcreteType) :=
  match n.kind with
  | .texture t =>
    some (⟨n.propertyName, n.name, .texture t.texture t.type, t.exposed⟩, .texture2D)
  | .constant c =>
    if c.exposed = true ∨ mode = .preview then
      some (⟨n.propertyName, n.name, Scope.constantProperty c.value, c.exposed⟩, c.value.type)
    else none
  | _ => none

/-- The line of a uniform that holds a property. -/
def uniformLine (p : Precision) (held : Property × ConcreteType) : String :=
  held.2.name p ++ " " ++ held.1.name ++ ";"

variable {s : Scope} {f : Fragment} {n : Node} {mode : Mode} {held : Property × ConcreteType}

/-- A property is the texture of a node, or the value of a constant that is held. -/
theorem held?_eq_some (h : n.held? mode = some held) :
    (∃ t, n.kind = .texture t ∧
      held = (⟨n.propertyName, n.name, .texture t.texture t.type, t.exposed⟩, .texture2D)) ∨
    ∃ c, n.kind = .constant c ∧ (c.exposed = true ∨ mode = .preview) ∧
      held = (⟨n.propertyName, n.name, Scope.constantProperty c.value, c.exposed⟩,
        c.value.type) := by
  unfold Node.held? at h
  cases hkind : n.kind with
  | texture t =>
    simp only [hkind] at h
    exact Or.inl ⟨t, rfl, (Option.some.inj h).symm⟩
  | constant c =>
    simp only [hkind] at h
    split_ifs at h with hproperty
    exact Or.inr ⟨c, rfl, hproperty, (Option.some.inj h).symm⟩
  | function m => simp [hkind] at h
  | uv => simp [hkind] at h
  | surfaceOutput => simp [hkind] at h

theorem name_of_held? (h : n.held? mode = some held) : held.1.name = n.propertyName := by
  rcases held?_eq_some h with ⟨t, -, rfl⟩ | ⟨c, -, -, rfl⟩ <;> rfl

/-- A property is labelled with the name of its node. -/
theorem displayName_of_held? (h : n.held? mode = some held) : held.1.displayName = n.name := by
  rcases held?_eq_some h with ⟨t, -, rfl⟩ | ⟨c, -, -, rfl⟩ <;> rfl

theorem Emits.property_eq (h : Emits s f) :
    f.property = (s.node.held? s.mode).map fun held => (held.1, ⟨held.2, held.1.name⟩) := by
  cases h with
  | function hkind hinputs houtput => simp [Node.held?, hkind]
  | texture hkind hinput houtput => simp [Node.held?, hkind]
  | uv hkind => simp [Node.held?, hkind, Fragment.none]
  | property hkind hproperty houtput =>
    simp only [Node.held?, hkind, if_pos (isProperty_iff.1 hproperty), Option.map_some]
  | literal hkind hproperty houtput =>
    have hliteral := isProperty_iff.not.1 (Bool.eq_false_iff.1 hproperty)
    simp only [Node.held?, hkind, if_neg hliteral, Option.map_none, Fragment.none]
  | preview hkind => simp [Node.held?, hkind, Fragment.none]
  | surface hkind hinputs => simp [Node.held?, hkind, Fragment.none]

/-- A node emits the property that it holds, unless it fails. -/
theorem property_emit (s : Scope) :
    (Outcome.fragment? ⟨s.node, s.emit⟩).bind (·.property) =
      if s.node.failure?.isSome then none
      else (s.node.held? s.mode).map fun held => (held.1, ⟨held.2, held.1.name⟩) := by
  have hfailure := error?_emit s
  cases hemit : s.emit with
  | error e =>
    rw [hemit] at hfailure
    rw [← hfailure]
    rfl
  | ok f =>
    rw [hemit] at hfailure
    rw [← hfailure]
    exact (emits_of_emit hemit).property_eq

end Holding

section Passes

variable {g : Graph} {mode : Mode} {settings : Settings} {order : List NodeId}

/-- The properties that the nodes of `order` hold which do not fail. -/
def heldFrom (g : Graph) (mode : Mode) (order : List NodeId) : List (Property × ConcreteType) :=
  ((order.filterMap g.node?).filter (·.failure?.isNone)).filterMap (·.held? mode)

/-- The fragments of a pass carry the properties of the nodes that do not fail, in order. -/
theorem properties_fragmentsOf (mode : Mode) (hkeyed : g.Keyed)
    (horder : g.topologicalOrder = .ok order) :
    (fragmentsOf g mode order).filterMap (·.property) =
      (heldFrom g mode order).map fun held => (held.1, ⟨held.2, held.1.name⟩) := by
  rw [fragmentsOf, outcomes_eq mode _ hkeyed horder, heldFrom, List.filterMap_map,
    List.filterMap_filterMap, List.map_filterMap, List.filterMap_filter]
  refine List.filterMap_congr fun n _ => ?_
  have hemit := property_emit (scopeAfter g mode (g.resolveTypes order) order n)
  refine hemit.trans ?_
  cases hfailure : n.failure? with
  | none => simp [scopeAfter, hfailure]
  | some e => simp [scopeAfter, hfailure]

/-- Nodes of distinct serials hold properties of distinct names. -/
theorem nodup_heldFrom (mode : Mode) (hkeyed : g.Keyed)
    (hserials : (g.nodes.values.map (·.serial)).Nodup) (horder : g.topologicalOrder = .ok order) :
    ((heldFrom g mode order).map (·.1.name)).Nodup := by
  have hordered : ((order.filterMap g.node?).map (·.serial)).Nodup :=
    ((ordered_perm hkeyed horder).map _).nodup_iff.2 hserials
  rw [List.Nodup, List.pairwise_map] at hordered
  rw [List.Nodup, List.pairwise_map, heldFrom, List.pairwise_filterMap]
  refine (hordered.filter _).imp fun {n m} hserial held hn held' hm hname => ?_
  rw [name_of_held? hn, name_of_held? hm] at hname
  exact hserial (serial_of_propertyName hname)

/-- A node is among those that the errors name if it fails. -/
theorem heldFrom_eq (mode : Mode) (hkeyed : g.Keyed) (horder : g.topologicalOrder = .ok order) :
    heldFrom g mode order = ((order.filterMap g.node?).filter fun n =>
      !((outcomes g mode (g.resolveTypes order) .empty order).filterMap (·.error?)).any
        (·.node = n.id)).filterMap (·.held? mode) := by
  have hkeys := keys_subset_of_topologicalOrder horder
  rw [errors_outcomes mode _ hkeyed horder, heldFrom]
  refine congrArg (List.filterMap _) (List.filter_congr fun n hn => ?_)
  have hfound := hkeyed.node?_id ((mem_ordered_iff hkeyed hkeys).1 hn)
  rw [any_errors hkeyed hkeys, fails, hfound, Option.bind_some, Option.not_isSome]

/-- The uniforms of a pass have one line for each property. -/
theorem uniforms_sink (mode : Mode) (p : Precision) (hkeyed : g.Keyed)
    (hserials : (g.nodes.values.map (·.serial)).Nodup) (horder : g.topologicalOrder = .ok order) :
    ((fragmentsOf g mode order).foldl (Sink.addFragment p) .empty).propertyUsages =
      (heldFrom g mode order).map (uniformLine p) := by
  have huniforms : (fragmentsOf g mode order).filterMap (·.uniform?) =
      (heldFrom g mode order).map fun held => ⟨held.2, held.1.name⟩ := by
    have hmap := congrArg (List.map Prod.snd) (properties_fragmentsOf mode hkeyed horder)
    rwa [List.map_filterMap, List.map_map] at hmap
  have hnames : ∀ held ∈ heldFrom g mode order, isName held.1.name.toList = true := by
    intro held hheld
    obtain ⟨n, -, hn⟩ := List.mem_filterMap.1 hheld
    rw [name_of_held? hn]
    exact (isPropertyName_propertyName n).isName
  rw [propertyUsages_foldl, huniforms, foldl_addTo_uniforms]
  · simp [Sink.empty, uniformLine, Uniform.text, Function.comp_def]
  · exact List.forall_mem_map.2 hnames
  · rw [List.map_map]
    exact nodup_heldFrom mode hkeyed hserials horder
  · simp [Sink.empty]

/-- The list of properties is what the nodes hold. -/
theorem registered_sink (mode : Mode) (p : Precision) (hkeyed : g.Keyed)
    (hserials : (g.nodes.values.map (·.serial)).Nodup) (horder : g.topologicalOrder = .ok order) :
    ((fragmentsOf g mode order).foldl (Sink.addFragment p) .empty).registered =
      (heldFrom g mode order).map Prod.fst := by
  have hproperties : ((fragmentsOf g mode order).filterMap fun f => f.property.map Prod.fst) =
      (heldFrom g mode order).map Prod.fst := by
    have hmap := congrArg (List.map Prod.fst) (properties_fragmentsOf mode hkeyed horder)
    rwa [List.map_filterMap, List.map_map] at hmap
  have hnodup := nodup_heldFrom mode hkeyed hserials horder
  rw [registered_foldl, hproperties, foldl_register]
  · rfl
  · rw [Sink.empty, List.nil_append, List.map_map]
    exact hnodup

/-- **Properties and uniforms correspond.** If identities and serials tell the nodes of a graph
apart, the properties of its shader are those that its texture nodes and its exposed constants hold,
in a preview all constants, in dependency order and without the nodes that the errors name. Their
names are distinct. The section of the properties has the declaration of each, and that of the
uniforms a line for each at the type of its node, both in the same order. -/
theorem generate_properties (g : Graph) (mode : Mode) (settings : Settings) (shader : Shader)
    (hkeyed : g.Keyed) (hserials : (g.nodes.values.map (·.serial)).Nodup)
    (h : generate g mode settings = .ok shader) :
    ∃ order pass held,
      g.topologicalOrder = .ok order ∧ (order.filterMap g.node?).Perm g.nodes.values ∧
      runPass g mode settings = .ok pass ∧ shader.source = pass.sink.assemble settings ∧
      held = ((order.filterMap g.node?).filter fun n =>
        !shader.errors.any (·.node = n.id)).filterMap (·.held? mode) ∧
      shader.properties = held.map Prod.fst ∧
      (shader.properties.map (·.name)).Nodup ∧
      pass.sink.properties = shader.properties.map (·.declaration) ∧
      pass.sink.propertyUsages = held.map (uniformLine settings.precision) := by
  obtain ⟨pass, hrun, rfl⟩ := generate_eq_ok_iff.1 h
  obtain ⟨-, order, horder, rfl⟩ := runPass_eq_ok_iff.1 hrun
  have hregistered := registered_sink mode settings.precision hkeyed hserials horder
  refine ⟨order, _, heldFrom g mode order, horder, ordered_perm hkeyed horder, hrun, rfl,
    heldFrom_eq mode hkeyed horder, hregistered, ?_, declared_sink _ _,
    uniforms_sink mode settings.precision hkeyed hserials horder⟩
  rw [hregistered, List.map_map]
  exact nodup_heldFrom mode hkeyed hserials horder

/-- Two textures, one of which has lost its whole sample, and two constants, one of them exposed.
Something that is not in the graph is connected to the first texture. -/
def paintedGraph : Graph :=
  let node (k : Nat) : NodeId := ⟨.ofNat k⟩
  let kinds : List NodeKind :=
    [.texture ⟨none, .bump, false⟩, .constant ⟨.vector3 .one .half .zero, false⟩,
      .texture .unbound, .constant ⟨.vector1 .half, true⟩]
  let g : Graph :=
    kinds.zipIdx.foldl (fun g k => Graph.addNode g (.ofKind (node k.2) k.1)) (.empty "Painted")
  { g with
    nodes := g.nodes.modify (node 2) fun n => (n.keepSlots ["UV"]).1
    connections := .ofEntries [(⟨.ofNat 0⟩, ⟨⟨.ofNat 0⟩, node 9, "Output", node 0, "UV"⟩)] }

/-- In a preview both constants are properties; the damaged texture is none. -/
theorem generate_paintedGraph :
    paintedGraph.Keyed ∧ (paintedGraph.nodes.values.map (·.serial)).Nodup ∧
    ∃ shader order pass held, generate paintedGraph .preview .standard = .ok shader ∧
      paintedGraph.topologicalOrder = .ok order ∧
      (order.filterMap paintedGraph.node?).Perm paintedGraph.nodes.values ∧
      runPass paintedGraph .preview .standard = .ok pass ∧
      held = ((order.filterMap paintedGraph.node?).filter fun n =>
        !shader.errors.any (·.node = n.id)).filterMap (·.held? .preview) ∧
      (shader.properties.map (·.name)).Nodup ∧
      pass.sink.properties = shader.properties.map (·.declaration) ∧
      pass.sink.propertyUsages = held.map (uniformLine .half) ∧
      shader.properties.map (·.name) = ["_texture0", "_vector31", "_vector13"] ∧
      pass.sink.propertyUsages =
        ["sampler2D _texture0;", "half3 _vector31;", "half _vector13;"] := by
  have hkeyed : paintedGraph.Keyed := by
    unfold Keyed
    decide
  have hserials : (paintedGraph.nodes.values.map (·.serial)).Nodup := by decide
  obtain ⟨order, pass, held, horder, hperm, hrun, -, hheld, -, hnodup, hdeclared, huniforms⟩ :=
    generate_properties paintedGraph .preview .standard _ hkeyed hserials rfl
  refine ⟨hkeyed, hserials, _, order, pass, held, rfl, horder, hperm, hrun, hheld, hnodup,
    hdeclared, huniforms, rfl, ?_⟩
  obtain rfl := Except.ok.inj (hrun.symm.trans rfl)
  rfl

end Passes

end ShaderGraph
