import ShaderGraph.Proofs.Generation.Properties
import ShaderGraph.Proofs.Shader.Declaration

/-!
# The block of properties

The label of a property is the name of its node, and nodes are named freely. The block of properties
has a line for each property, with the quotes where they belong, if and only if these names do not
break out of the quotes around them: they have no line feed, no bare quote and no open escape.

* `exists_node_of_mem_registered` : the node behind a property;
* `exists_source_eq` : where the block stands in the source;
* `wellDelimited_iff` : the shaders of which the block is in order;
* `generate_declares` : this for the shader of any graph.
-/

namespace ShaderGraph

open Reading ShaderGraph.Graph

section Labels

variable {g : Graph} {mode : Mode} {types : TypeTable} {table : VariableTable} {ids : List NodeId}
  {o : Outcome}

theorem mem_values_of_mem_outcomes (ho : o ∈ outcomes g mode types table ids) :
    o.node ∈ g.nodes.values := by
  have hnode : o.node ∈ ids.filterMap g.node? :=
    nodes_outcomes g mode types table ids ▸ List.mem_map_of_mem ho
  obtain ⟨id, -, hid⟩ := List.mem_filterMap.1 hnode
  exact OrderedMap.mem_values_of_get? hid

theorem mem_of_mem_foldl_register {l ps : List Property} {p : Property}
    (h : p ∈ ps.foldl register l) : p ∈ l ∨ p ∈ ps := by
  induction ps generalizing l with
  | nil => exact Or.inl h
  | cons q ps ih =>
    rcases ih h with h | h
    · unfold register at h
      split_ifs at h
      · exact Or.inl h
      · rcases List.mem_append.1 h with h | h
        · exact Or.inl h
        · exact Or.inr (List.mem_singleton.1 h ▸ List.mem_cons_self)
    · exact Or.inr (List.mem_cons_of_mem q h)

/-- A property of a shader belongs to a node of the graph, which it is labelled with. -/
theorem exists_node_of_mem_registered {order : List NodeId} {precision : Precision} {p : Property}
    (h : p ∈ ((fragmentsOf g mode order).foldl (Sink.addFragment precision) .empty).registered) :
    ∃ n ∈ g.nodes.values, p.name = n.propertyName ∧ p.displayName = n.name := by
  rw [registered_foldl] at h
  have hp : p ∈ (fragmentsOf g mode order).filterMap fun f => f.property.map Prod.fst :=
    (mem_of_mem_foldl_register h).resolve_left (by simp [Sink.empty])
  obtain ⟨f, hf, hproperty⟩ := List.mem_filterMap.1 hp
  obtain ⟨o, ho, hfragment⟩ := List.mem_filterMap.1 hf
  obtain ⟨s, hs, hemits⟩ := allEmitted_outcomes g mode (g.resolveTypes order) order o ho f hfragment
  rw [hemits.property_eq, Option.map_map] at hproperty
  obtain ⟨held, hheld, rfl⟩ := Option.map_eq_some_iff.1 hproperty
  exact ⟨s.node, hs ▸ mem_values_of_mem_outcomes ho, name_of_held? hheld,
    displayName_of_held? hheld⟩

end Labels

section Blocks

/-- The lines of the block of properties, without the tabs before them. -/
def Shader.declaredLines (shader : Shader) : List String :=
  (shader.properties.map (·.declaration)).flatMap chunkLines

/-- There is a line for each property, and no quote in its declaration is bare but those around its
label and its default texture. -/
structure Shader.WellDelimited (shader : Shader) : Prop where
  length_declaredLines : shader.declaredLines.length = shader.properties.length
  quotedParts_declaration : ∀ p ∈ shader.properties,
    quotedParts p.declaration.toList = p.parts.map String.toList

/-- The block stands at the beginning of the source, after the name of the shader. -/
theorem exists_assemble_eq (k : Sink) (settings : Settings) :
    ∃ rest, k.assemble settings =
      "Shader \"" ++ settings.shaderName ++ "\" \x7b\n\tProperties \x7b\n" ++
        String.join ((k.properties.flatMap chunkLines).map fun line => "\t\t" ++ line ++ "\n") ++
        "\t\x7d\n\tSubShader \x7b\n" ++ rest := by
  have htabs : String.ofList (List.replicate 2 '\t') = "\t\t" := rfl
  have hopen : "\" \x7b\n" ++ "\tProperties \x7b\n" = "\" \x7b\n\tProperties \x7b\n" := rfl
  have hclose : "\t\x7d\n" ++ "\tSubShader \x7b\n" = "\t\x7d\n\tSubShader \x7b\n" := rfl
  rw [Sink.assemble, String.join_cons, String.join_cons, String.join_cons, String.join_cons,
    String.join_cons, String.join_cons, String.join_cons, indented, htabs, ← hopen, ← hclose]
  simp only [String.append_assoc]
  exact ⟨_, rfl⟩

theorem length_flatMap_chunkLines {ps : List Property}
    (hnames : ∀ p ∈ ps, isName p.name.toList = true) :
    ((ps.map (·.declaration)).flatMap chunkLines).length =
      ps.length + (ps.flatMap (·.displayName.toList)).count '\n' := by
  induction ps with
  | nil => rfl
  | cons p ps ih =>
    obtain ⟨hp, hps⟩ := List.forall_mem_cons.1 hnames
    rw [List.map_cons, List.flatMap_cons, List.flatMap_cons, List.length_append, List.count_append,
      List.length_cons, Property.length_chunkLines_declaration hp, ih hps]
    omega

variable {shader : Shader}

theorem length_declaredLines (hnames : ∀ p ∈ shader.properties, isName p.name.toList = true) :
    shader.declaredLines.length = shader.properties.length +
      (shader.properties.flatMap (·.displayName.toList)).count '\n' :=
  length_flatMap_chunkLines hnames

theorem length_declaredLines_eq_iff
    (hnames : ∀ p ∈ shader.properties, isName p.name.toList = true) :
    shader.declaredLines.length = shader.properties.length ↔
      ∀ p ∈ shader.properties, '\n' ∉ p.displayName.toList := by
  rw [length_declaredLines hnames, Nat.add_eq_left, List.count_eq_zero]
  simp only [List.mem_flatMap, not_exists, not_and]

theorem wellDelimited_iff (hnames : ∀ p ∈ shader.properties, isName p.name.toList = true) :
    shader.WellDelimited ↔ ∀ p ∈ shader.properties,
      '\n' ∉ p.displayName.toList ∧ isContained p.displayName.toList = true := by
  constructor
  · rintro ⟨hlines, hquotes⟩ p hp
    exact ⟨(length_declaredLines_eq_iff hnames).1 hlines p hp,
      (Property.quotedParts_declaration_iff (hnames p hp)).1 (hquotes p hp)⟩
  · intro h
    refine ⟨(length_declaredLines_eq_iff hnames).2 fun p hp => (h p hp).1, fun p hp => ?_⟩
    exact (Property.quotedParts_declaration_iff (hnames p hp)).2 (h p hp).2

/-- **Labels are written as they are.** Each property of a shader is labelled with the name of its
node. The block of properties stands in the source line by line, with a line for each property and
one more for each line feed in these names, and it is well delimited if and only if none of these
names has a line feed and all are contained in the quotes around them. -/
theorem generate_declares (g : Graph) (mode : Mode) (settings : Settings) (shader : Shader)
    (h : generate g mode settings = .ok shader) :
    (∀ p ∈ shader.properties,
      ∃ n ∈ g.nodes.values, p.name = n.propertyName ∧ p.displayName = n.name) ∧
    (∃ rest, shader.source =
      "Shader \"" ++ settings.shaderName ++ "\" \x7b\n\tProperties \x7b\n" ++
        String.join (shader.declaredLines.map fun line => "\t\t" ++ line ++ "\n") ++
        "\t\x7d\n\tSubShader \x7b\n" ++ rest) ∧
    shader.declaredLines.length = shader.properties.length +
      (shader.properties.flatMap (·.displayName.toList)).count '\n' ∧
    (∀ p ∈ shader.properties,
      (chunkLines p.declaration = [p.declaration] ↔ '\n' ∉ p.displayName.toList) ∧
      (quotedParts p.declaration.toList = p.parts.map String.toList ↔
        isContained p.displayName.toList = true)) ∧
    (shader.WellDelimited ↔ ∀ p ∈ shader.properties,
      '\n' ∉ p.displayName.toList ∧ isContained p.displayName.toList = true) := by
  obtain ⟨pass, hrun, rfl⟩ := generate_eq_ok_iff.1 h
  obtain ⟨-, order, horder, rfl⟩ := runPass_eq_ok_iff.1 hrun
  have hnames : ∀ p ∈ ((fragmentsOf g mode order).foldl (Sink.addFragment settings.precision)
      .empty).registered, isName p.name.toList = true := by
    intro p hp
    obtain ⟨n, -, hname, -⟩ := exists_node_of_mem_registered hp
    rw [hname]
    exact (isPropertyName_propertyName n).isName
  obtain ⟨rest, hsource⟩ := exists_assemble_eq
    ((fragmentsOf g mode order).foldl (Sink.addFragment settings.precision) .empty) settings
  rw [declared_sink settings.precision (fragmentsOf g mode order)] at hsource
  refine ⟨fun p hp => exists_node_of_mem_registered hp, ⟨rest, hsource⟩,
    length_declaredLines hnames, fun p hp => ?_, wellDelimited_iff hnames⟩
  exact ⟨Property.chunkLines_declaration_iff (hnames p hp),
    Property.quotedParts_declaration_iff (hnames p hp)⟩

/-- Two textures and an exposed constant, with these names. -/
def labelledGraph (names : List String) : Graph :=
  let kinds : List NodeKind :=
    [.texture .unbound, .constant ⟨.vector1 .half, true⟩, .texture ⟨none, .bump, false⟩]
  (List.zip names kinds).zipIdx.foldl
    (fun g k => Graph.addNode g { Node.ofKind ⟨.ofNat k.2⟩ k.1.2 with name := k.1.1 })
    (.empty "Labelled")

/-- A quote in a name does no harm if it is escaped. -/
theorem generate_labelledGraph :
    ∃ shader, generate (labelledGraph ["Al\\\"bedo", "Mix", "Relief"]) .surface .standard =
        .ok shader ∧
      shader.WellDelimited ∧
      (∃ rest, shader.source = "Shader \"OrdoPlay/Material\" \x7b\n\tProperties \x7b\n" ++
        String.join (shader.declaredLines.map fun line => "\t\t" ++ line ++ "\n") ++
        "\t\x7d\n\tSubShader \x7b\n" ++ rest) ∧
      shader.declaredLines = ["_texture0(\"Al\\\"bedo\", 2D) = \"white\" \x7b\x7d",
        "_vector11(\"Mix\", Float) = 0.5",
        "[HideInInspector] [Normal] _texture2(\"Relief\", 2D) = \"bump\" \x7b\x7d"] := by
  obtain ⟨-, hsource, -, -, hdelimited⟩ := generate_declares
    (labelledGraph ["Al\\\"bedo", "Mix", "Relief"]) .surface .standard _ rfl
  exact ⟨_, rfl, hdelimited.2 (by decide), hsource, by decide⟩

/-- A name with a line feed takes two lines, and one with a quote ends its label early. -/
theorem labels_break_out :
    ∃ shader, generate (labelledGraph ["Al\"bedo", "Two\nlines", "Relief"]) .surface .standard =
        .ok shader ∧
      shader.declaredLines = ["_texture0(\"Al\"bedo\", 2D) = \"white\" \x7b\x7d",
        "_vector11(\"Two", "lines\", Float) = 0.5",
        "[HideInInspector] [Normal] _texture2(\"Relief\", 2D) = \"bump\" \x7b\x7d"] ∧
      shader.declaredLines.length ≠ shader.properties.length ∧
      ∃ p ∈ shader.properties, chunkLines p.declaration = [p.declaration] ∧
        quotedParts p.declaration.toList ≠ p.parts.map String.toList := by
  refine ⟨_, rfl, by decide +kernel, by decide +kernel, ?_⟩
  exact ⟨⟨"_texture0", "Al\"bedo", .texture none .white, true⟩, by decide, by decide, by decide⟩

end Blocks

end ShaderGraph
