import ShaderGraph.Proofs.Generation.Sections

/-!
# Emitted programs are closed

A statement reads nothing that is not there. A variable was declared before, once; a uniform is
declared once; and where the mesh coordinates are read, the vertex stage hands them over.

* `Closed` : these conditions on the sections of a pass and the program they spell;
* `generate_closed` : every shader of a well-formed graph comes from a closed program.
-/

namespace ShaderGraph

open Reading

section Closed

/-- Every name that a statement reads is there when it is read. -/
structure Closed (sink : Sink) (p : Precision) (q : Program) : Prop where
  /-- Nothing is read but variables, uniforms and the mesh coordinates. -/
  known : ∀ line ∈ q.body, ∀ x ∈ line.value.reads,
    IsOutputName x ∨ IsPropertyName x ∨ x = "IN.meshUV0"
  /-- A variable is declared by one statement, which stands before those that read it. -/
  outputs : ∀ before line after, q.body = before ++ line :: after →
    ∀ x ∈ line.value.reads, IsOutputName x →
      (∃ earlier ∈ before, earlier.declares x = true) ∧ q.body.countP (·.declares x) = 1
  /-- A uniform is declared by one line. -/
  uniforms : ∀ line ∈ q.body, ∀ x ∈ line.value.reads, IsPropertyName x →
    q.uniforms.countP (·.2 == x) = 1
  /-- The mesh coordinates are a member of the fragment input, and the vertex stage fills it. -/
  coordinates : (∃ line ∈ q.body, "IN.meshUV0" ∈ line.value.reads) →
    sink.vertexToFragment.count (p.token ++ "4 meshUV0;") = 1 ∧
      sink.vertex.count "o.meshUV0 = v.texcoord;" = 1

variable {g : Graph} {mode : Mode} {order : List NodeId} {p : Precision}

/-- What a line reads was supplied, and a variable by a statement before it. -/
theorem supplied_of_reads (hg : g.WellFormed) (horder : g.topologicalOrder = .ok order)
    {before after : List Statement} {s : Statement}
    (h : (fragmentsOf g mode order).flatMap (·.statements) = before ++ s :: after) {x : String}
    (hx : x ∈ (s.line p).value.reads) :
    ∃ r t, x = r.text ∧ Supplied (fragmentsOf g mode order) r t ∧
      ∀ y, r = .output y → ∃ s' ∈ before, s'.declared? = some (t, y) := by
  have hs : s ∈ (fragmentsOf g mode order).flatMap (·.statements) := by
    rw [h]
    simp
  have hlegible := legible_fragmentsOf mode p hg horder hs
  obtain ⟨r, hr, rfl⟩ := hlegible.reads hx
  obtain ⟨fs, f, fs', c, hsplit, hsf, rfl⟩ := exists_of_flatMap_eq h
  obtain ⟨scope, hready, hemits⟩ :=
    exists_emits_fragment (settled_of_shaped hg.shaped horder) hsplit
  obtain ⟨t, hearlier | ⟨hown, hnot⟩⟩ := hemits.supplied hready hsf hr
  · refine ⟨r, t, rfl, hearlier.mono ?_, ?_⟩
    · rw [hsplit]
      exact List.subset_append_left _ _
    · rintro y rfl
      cases hearlier with
      | @output f' s' _ _ hf' hs' hdeclared _ =>
        exact ⟨s', List.mem_append_left _ (List.mem_flatMap.2 ⟨f', hf', hs'⟩), hdeclared⟩
  · refine ⟨r, t, rfl, hown.mono ?_, fun y hy => absurd hy (hnot y)⟩
    rw [hsplit]
    intro f' hf'
    obtain rfl := List.mem_singleton.1 hf'
    simp

theorem countP_declares {fs : List Fragment} (hd : Distinct fs) {s : Statement}
    {t : ConcreteType} {x : String} (hs : s ∈ fs.flatMap (·.statements))
    (hdeclared : s.declared? = some (t, x)) :
    (program p fs).body.countP (·.declares x) = 1 := by
  have hcount : (program p fs).body.countP (·.declares x) =
      (((fs.flatMap (·.statements)).filterMap Statement.declared?).map (·.2)).count x := by
    rw [List.count, List.countP_map, List.countP_filterMap, program, List.countP_map]
    congr 1
    funext s
    simp only [Function.comp, Line.declares, s.declared?_line]
    cases s.declared? <;> rfl
  rw [hcount]
  refine List.count_eq_one_of_mem hd.outputs ?_
  exact List.mem_map.2 ⟨(t, x), List.mem_filterMap.2 ⟨s, hs, hdeclared⟩, rfl⟩

theorem countP_uniforms {fs : List Fragment} (hd : Distinct fs) {u : Uniform}
    (hu : u ∈ fs.filterMap (·.uniform?)) :
    (program p fs).uniforms.countP (·.2 == u.name) = 1 := by
  have hcount : (program p fs).uniforms.countP (·.2 == u.name) =
      ((fs.filterMap (·.uniform?)).map (·.name)).count u.name := by
    rw [List.count, List.countP_map, program, List.countP_map]
    rfl
  rw [hcount]
  exact List.count_eq_one_of_mem hd.uniforms (List.mem_map_of_mem hu)

/-- The program of the fragments of a pass is closed. -/
theorem closed_program (hg : g.WellFormed) (horder : g.topologicalOrder = .ok order) :
    Closed ((fragmentsOf g mode order).foldl (Sink.addFragment p) .empty) p
      (program p (fragmentsOf g mode order)) := by
  have hd := distinct_fragmentsOf mode hg horder
  have hline : ∀ line ∈ (program p (fragmentsOf g mode order)).body, ∀ x ∈ line.value.reads,
      ∃ r t, x = r.text ∧ Supplied (fragmentsOf g mode order) r t := by
    intro line hline x hx
    obtain ⟨s, hs, rfl⟩ := List.mem_map.1 hline
    obtain ⟨before, after, hsplit⟩ := List.append_of_mem hs
    obtain ⟨r, t, hr, hsupplied, -⟩ := supplied_of_reads hg horder hsplit hx
    exact ⟨r, t, hr, hsupplied⟩
  refine ⟨?_, ?_, ?_, ?_⟩
  · intro line hmem x hx
    obtain ⟨r, t, rfl, hsupplied⟩ := hline line hmem x hx
    cases hsupplied with
    | output hf hs hdeclared hy => exact .inl hy
    | property hf hu hy => exact .inr (.inl hy)
    | meshUV hf huv => exact .inr (.inr rfl)
  · intro before line after hsplit x hx hname
    obtain ⟨sts, rest, hstatements, rfl, hrest⟩ := List.map_eq_append_iff.1 hsplit
    obtain ⟨s, sts', rfl, rfl, rfl⟩ := List.map_eq_cons_iff.1 hrest
    obtain ⟨r, t, rfl, hsupplied, hearlier⟩ := supplied_of_reads hg horder hstatements hx
    cases hsupplied with
    | @output f s' y t hf hs hdeclared hy =>
      obtain ⟨s'', hs'', hdeclared''⟩ := hearlier y rfl
      refine ⟨⟨s''.line p, List.mem_map_of_mem hs'', ?_⟩, ?_⟩
      · simp [Line.declares, s''.declared?_line, hdeclared'', Reference.text]
      · exact countP_declares hd (List.mem_flatMap.2 ⟨f, hf, hs⟩) hdeclared
    | property hf hu hy => exact absurd hy hname.not_isPropertyName
    | meshUV hf huv => exact absurd hname.isLower (by decide)
  · intro line hmem x hx hname
    obtain ⟨r, t, rfl, hsupplied⟩ := hline line hmem x hx
    cases hsupplied with
    | output hf hs hdeclared hy => exact absurd hname hy.not_isPropertyName
    | @property f u hf hu hy =>
      exact countP_uniforms hd (List.mem_filterMap.2 ⟨f, hf, hu⟩)
    | meshUV hf huv => exact absurd hname.head (by decide)
  · rintro ⟨line, hmem, hx⟩
    obtain ⟨r, t, hr, hsupplied⟩ := hline line hmem _ hx
    have hany : (fragmentsOf g mode order).any (·.meshUV) = true := by
      cases hsupplied with
      | output hf hs hdeclared hy =>
        obtain rfl : "IN.meshUV0" = _ := hr
        exact absurd hy.isLower (by decide)
      | @property f u hf hu hy =>
        rw [show u.name = "IN.meshUV0" from hr.symm] at hy
        exact absurd hy.head (by decide)
      | @meshUV f hf huv => exact List.any_eq_true.2 ⟨f, hf, huv⟩
    have hchunk : interpolatorChunk p = p.token ++ "4 meshUV0;" := by
      cases p <;> decide
    rw [vertexToFragment_sink, vertex_sink, if_pos hany, if_pos hany, hchunk, meshUVChunk]
    exact ⟨List.count_singleton_self .., List.count_singleton_self ..⟩

end Closed

section Shaders

/-- **Emitted programs are closed and define before they use.** The shader of a well-formed graph is
assembled from sections that can be read back, and the program they spell is closed. -/
theorem generate_closed (g : Graph) (mode : Mode) (settings : Settings) (shader : Shader)
    (hg : g.WellFormed) (h : generate g mode settings = .ok shader) :
    ∃ pass q, runPass g mode settings = .ok pass ∧
      shader.source = pass.sink.assemble settings ∧ pass.sink.program? = some q ∧
      Closed pass.sink settings.precision q := by
  obtain ⟨order, pass, horder, hrun, hsource, -, hsink, hprogram⟩ := pass_of_generate hg h
  refine ⟨pass, _, hrun, hsource, hprogram, ?_⟩
  rw [hsink]
  exact closed_program hg horder

/-- Mesh coordinates, scaled by an exposed constant, at which a texture is sampled for a surface. -/
def tiledGraph : Graph :=
  let node (k : Nat) : NodeId := ⟨.ofNat k⟩
  let wire (k a : Nat) (output : String) (b : Nat) (input : String) : ConnectionId × Connection :=
    (⟨.ofNat k⟩, ⟨⟨.ofNat k⟩, node a, output, node b, input⟩)
  let kinds : List NodeKind :=
    [.uv, .constant ⟨.vector2 .half .one, true⟩, .function .multiply, .texture .unbound,
      .surfaceOutput]
  let g : Graph :=
    kinds.zipIdx.foldl (fun g k => Graph.addNode g (.ofKind (node k.2) k.1)) (.empty "Tiles")
  { g with
    connections := .ofEntries
      [wire 0 0 "UV" 2 "Input1", wire 1 1 "Value" 2 "Input2", wire 2 2 "Output" 3 "UV",
        wire 3 3 "RGBA" 4 "Albedo", wire 4 1 "Value" 4 "Emission", wire 5 3 "A" 4 "Alpha"] }

theorem wellFormed_tiledGraph : tiledGraph.WellFormed where
  keyed := by decide
  serials := by decide
  valid := rfl
  slots := by
    have hslots : ∀ n ∈ tiledGraph.nodes.values, ∀ s ∈ n.slots, s ∈ n.kind.requiredSlots := by
      decide
    exact hslots

/-- The program of this graph reads two variables, two uniforms and the mesh coordinates. -/
theorem generate_tiledGraph_closed :
    tiledGraph.WellFormed ∧
    ∃ shader, generate tiledGraph .surface .standard = .ok shader ∧
      ∃ pass q, runPass tiledGraph .surface .standard = .ok pass ∧
        shader.source = pass.sink.assemble .standard ∧ pass.sink.program? = some q ∧
        Closed pass.sink .half q ∧
        pass.sink.body =
          ["half4 multiply2_out = unity_multiply(IN.meshUV0, _vector21);",
            "half4 texture3_out = tex2D(_texture3, multiply2_out.xy);",
            "o.Albedo = texture3_out.xyz;", "o.Emission = half3(_vector21, 0);",
            "o.Alpha = texture3_out.a;"] := by
  obtain ⟨pass, q, hrun, hsource, hprogram, hclosed⟩ :=
    generate_closed tiledGraph .surface .standard _ wellFormed_tiledGraph rfl
  refine ⟨wellFormed_tiledGraph, _, rfl, pass, q, hrun, hsource, hprogram, hclosed, ?_⟩
  obtain rfl := Except.ok.inj (hrun.symm.trans rfl)
  rfl

end Shaders

end ShaderGraph
