import ShaderGraph.Proofs.Generation.Run

/-!
# The sections of a pass

The sections that a pass fills are read back as a program, and this program gives every supplied
name the type it was supplied at.

* `foldl_addFragment_induction` : what holds of a sink whatever is added to it;
* `foldl_pieces` : a part of the sink that grows by one piece of a fragment at a time;
* `vertex_sink`, `vertexToFragment_sink` : the chunks that carry the mesh coordinates;
* `program`, `program?_sink` : the program that the fragments of a pass spell;
* `types_read` : a supplied name has its type there;
* `runPass_eq_ok_iff`, `generate_eq_ok_iff` : the only ways in which a pass fails;
* `runPass_of_generate` : what a shader is made of;
* `pass_of_generate` : what the shader of a well-formed graph is made of, read back.
-/

namespace ShaderGraph

open Reading

section Filling

variable {p : Precision} {k : Sink} {f : Fragment} {fs : List Fragment}

theorem foldl_addLine (sts : List Statement) :
    sts.foldl (fun k s => k.addLine .body (s.text p)) k =
      { k with body := k.body ++ sts.map (·.text p) } := by
  induction sts generalizing k with
  | nil => simp
  | cons s sts ih =>
    rw [List.foldl_cons, ih]
    simp [Sink.addLine, Sink.addChunk, addTo]

/-- What no addition to a sink breaks, a fragment does not break. Of its chunks only the declaration
of its property goes to the declarations. -/
theorem addFragment_induction {P : Sink → Prop}
    (hchunk : ∀ k s text unique, s ≠ .properties → P k → P (Sink.addChunk k s text unique))
    (hproperty : ∀ k q, P k → P (Sink.addProperty k q)) (hk : P k) (p : Precision) (f : Fragment) :
    P (k.addFragment p f) := by
  obtain ⟨statements, definition, property, meshUV⟩ := f
  unfold Sink.addFragment
  extract_lets k₁ k₂ k₃
  have hbody : P k₁ := by
    have key : ∀ k, P k → P (statements.foldl (fun k s => k.addLine .body (s.text p)) k) := by
      induction statements with
      | nil => exact fun k h => h
      | cons s sts ih => exact fun k h => ih _ (hchunk k .body _ false (by decide) h)
    exact key k hk
  have hfunctions : P k₂ := by
    cases definition with
    | none => exact hbody
    | some d => exact hchunk k₁ .functions _ true (by decide) hbody
  have hheld : P k₃ := by
    cases property with
    | none => exact hfunctions
    | some q => exact hchunk _ .propertyUsages _ true (by decide) (hproperty k₂ q.1 hfunctions)
  cases meshUV with
  | false => exact hheld
  | true =>
    have hvertex := hchunk k₃ .vertex meshUVChunk true (by decide) hheld
    exact hchunk _ .vertexToFragment (interpolatorChunk p) true (by decide) hvertex

theorem foldl_addFragment_induction {P : Sink → Prop}
    (hchunk : ∀ k s text unique, s ≠ .properties → P k → P (Sink.addChunk k s text unique))
    (hproperty : ∀ k q, P k → P (Sink.addProperty k q)) (hk : P k) (p : Precision)
    (fs : List Fragment) : P (fs.foldl (Sink.addFragment p) k) := by
  induction fs generalizing k with
  | nil => exact hk
  | cons f fs ih => exact ih (addFragment_induction hchunk hproperty hk p f)

theorem addProperty_frame (property : Property) :
    (k.addProperty property).body = k.body ∧
      (k.addProperty property).propertyUsages = k.propertyUsages ∧
      (k.addProperty property).functions = k.functions ∧
      (k.addProperty property).vertex = k.vertex ∧
      (k.addProperty property).vertexToFragment = k.vertexToFragment := by
  unfold Sink.addProperty
  split
  · exact ⟨rfl, rfl, rfl, rfl, rfl⟩
  · exact ⟨rfl, rfl, rfl, rfl, rfl⟩

/-- What one fragment adds to the sections that can be read back. -/
theorem addFragment_sections :
    (k.addFragment p f).body = k.body ++ f.statements.map (·.text p) ∧
      (k.addFragment p f).propertyUsages =
        f.uniform?.toList.foldl (fun l u => addTo l (u.text p) true) k.propertyUsages ∧
      (k.addFragment p f).functions =
        f.definition.toList.foldl (fun l d => addTo l (d.text p) true) k.functions ∧
      (k.addFragment p f).vertex =
        (if f.meshUV then addTo k.vertex meshUVChunk true else k.vertex) ∧
      (k.addFragment p f).vertexToFragment =
        (if f.meshUV then addTo k.vertexToFragment (interpolatorChunk p) true
          else k.vertexToFragment) := by
  obtain ⟨statements, definition, property, meshUV⟩ := f
  unfold Sink.addFragment
  rw [foldl_addLine]
  cases definition <;> cases property <;> cases meshUV <;>
    simp [Sink.addChunk, Fragment.uniform?, addProperty_frame]

theorem body_foldl :
    (fs.foldl (Sink.addFragment p) k).body =
      k.body ++ (fs.flatMap (·.statements)).map (·.text p) := by
  induction fs generalizing k with
  | nil => simp
  | cons f fs ih =>
    rw [List.foldl_cons, ih, addFragment_sections.1, List.flatMap_cons, List.map_append,
      List.append_assoc]

/-- What a part of the sink holds to which each fragment adds one piece at most. -/
theorem foldl_pieces {α β : Type} {view : Sink → β} {piece : Fragment → Option α} {add : β → α → β}
    (hview : ∀ k f, view (Sink.addFragment p k f) = (piece f).toList.foldl add (view k)) :
    view (fs.foldl (Sink.addFragment p) k) = (fs.filterMap piece).foldl add (view k) := by
  induction fs generalizing k with
  | nil => rfl
  | cons f fs ih =>
    rw [List.foldl_cons, ih, hview]
    cases hpiece : piece f with
    | none => rw [List.filterMap_cons_none hpiece]; rfl
    | some a => rw [List.filterMap_cons_some hpiece]; rfl

theorem propertyUsages_foldl :
    (fs.foldl (Sink.addFragment p) k).propertyUsages =
      (fs.filterMap (·.uniform?)).foldl (fun l u => addTo l (u.text p) true) k.propertyUsages :=
  foldl_pieces fun _ _ => addFragment_sections.2.1

theorem functions_foldl :
    (fs.foldl (Sink.addFragment p) k).functions =
      (fs.filterMap (·.definition)).foldl (fun l d => addTo l (d.text p) true) k.functions :=
  foldl_pieces fun _ _ => addFragment_sections.2.2.1

/-- The properties with one more, unless one of them has its name. -/
def register (l : List Property) (property : Property) : List Property :=
  if l.any (·.name = property.name) then l else l ++ [property]

theorem registered_addFragment : (k.addFragment p f).registered =
    (f.property.map Prod.fst).toList.foldl register k.registered := by
  obtain ⟨statements, definition, property, meshUV⟩ := f
  unfold Sink.addFragment
  rw [foldl_addLine]
  cases definition <;> cases property <;> cases meshUV <;>
    simp [Sink.addChunk, Sink.addProperty, Sink.addLine, register, apply_ite Sink.registered]

theorem registered_foldl : (fs.foldl (Sink.addFragment p) k).registered =
    (fs.filterMap fun f => f.property.map Prod.fst).foldl register k.registered :=
  foldl_pieces fun _ _ => registered_addFragment

/-- A chunk that comes with the mesh coordinates stands in its section once if any fragment needs
them. -/
theorem foldl_chunk {view : Sink → List String} {text : String}
    (hview : ∀ k f, view (Sink.addFragment p k f) =
      if f.meshUV then addTo (view k) text true else view k)
    (hk : view k = [] ∨ view k = [text]) :
    view (fs.foldl (Sink.addFragment p) k) = if fs.any (·.meshUV) then [text] else view k := by
  induction fs generalizing k with
  | nil => rfl
  | cons f fs ih =>
    have hstep := hview k f
    rw [List.foldl_cons, List.any_cons]
    cases huv : f.meshUV with
    | false =>
      rw [huv, if_neg Bool.false_ne_true] at hstep
      rw [ih (by rwa [hstep]), hstep, Bool.false_or]
    | true =>
      have hone : view (Sink.addFragment p k f) = [text] := by
        rw [hstep, huv, if_pos rfl]
        obtain hk | hk := hk
        · rw [hk]
          rfl
        · rw [hk]
          simp [addTo]
      rw [ih (.inr hone), hone, Bool.true_or, if_pos rfl, ite_self]

theorem vertex_sink :
    (fs.foldl (Sink.addFragment p) .empty).vertex =
      if fs.any (·.meshUV) then [meshUVChunk] else [] :=
  foldl_chunk (fun _ _ => addFragment_sections.2.2.2.1) (.inl rfl)

theorem vertexToFragment_sink :
    (fs.foldl (Sink.addFragment p) .empty).vertexToFragment =
      if fs.any (·.meshUV) then [interpolatorChunk p] else [] :=
  foldl_chunk (fun _ _ => addFragment_sections.2.2.2.2) (.inl rfl)

end Filling

section Programs

variable {q : Program} {p : Precision} {fs : List Fragment}

/-- The program that the fragments of a pass spell. -/
def program (p : Precision) (fs : List Fragment) : Program where
  body := (fs.flatMap (·.statements)).map (·.line p)
  uniforms := (fs.filterMap (·.uniform?)).map fun u => (u.type.name p, u.name)
  members := if fs.any (·.meshUV) then [(ConcreteType.vector4.name p, "meshUV0")] else []

/-- No two declarations are of one name, and no variable is called like a uniform. -/
structure Distinct (fs : List Fragment) : Prop where
  outputs : (((fs.flatMap (·.statements)).filterMap Statement.declared?).map (·.2)).Nodup
  uniforms : ((fs.filterMap (·.uniform?)).map (·.name)).Nodup
  outputNames : ∀ x ∈ ((fs.flatMap (·.statements)).filterMap Statement.declared?).map (·.2),
    IsOutputName x
  propertyNames : ∀ x ∈ (fs.filterMap (·.uniform?)).map (·.name), IsPropertyName x

theorem declarations_program :
    (program p fs).body.filterMap Line.declared? =
      ((fs.flatMap (·.statements)).filterMap Statement.declared?).map
        fun d => (d.1.name p, d.2) := by
  rw [program, List.filterMap_map, List.map_filterMap]
  congr 1
  funext s
  exact s.declared?_line

theorem declaredIn?_of_mem {declarations : List (String × String)} {x : String} {t : ConcreteType}
    (hnodup : (declarations.map (·.2)).Nodup) (h : (t.name p, x) ∈ declarations) :
    Program.declaredIn? p declarations x = some t := by
  unfold Program.declaredIn?
  cases hfind : declarations.find? (·.2 = x) with
  | none =>
    have hnone := List.find?_eq_none.1 hfind _ h
    simp at hnone
  | some d =>
    have hname : d.2 = x := by simpa using List.find?_some hfind
    have hd : d = (t.name p, x) :=
      List.inj_on_of_nodup_map hnodup (List.mem_of_find?_eq_some hfind) h hname
    rw [hd]
    exact typeNamed?_name t p

/-- The names of the variables and the uniforms of a program. -/
theorem nodup_names (hd : Distinct fs) :
    (((program p fs).body.filterMap Line.declared? ++
      (program p fs).uniforms).map (·.2)).Nodup := by
  rw [declarations_program, List.map_append, List.map_map]
  have huniforms : (program p fs).uniforms.map (·.2) =
      (fs.filterMap (·.uniform?)).map (·.name) := by
    rw [program, List.map_map]
    rfl
  rw [huniforms]
  refine List.nodup_append.2 ⟨hd.outputs, hd.uniforms, ?_⟩
  rintro x hx y hy rfl
  exact (hd.outputNames x hx).not_isPropertyName (hd.propertyNames x hy)

/-- A supplied name can be read in the program, at the type it was supplied at. -/
theorem types_read (hd : Distinct fs) {r : Reference} {t : ConcreteType} (h : Supplied fs r t) :
    (program p fs).Types p (.read r) t := by
  have hnames := nodup_names (p := p) hd
  cases h with
  | @output f s x t hf hs hdeclared hx =>
    have hmem : (t, x) ∈ (fs.flatMap (·.statements)).filterMap Statement.declared? :=
      List.mem_filterMap.2 ⟨s, List.mem_flatMap.2 ⟨f, hf, hs⟩, hdeclared⟩
    have hline : (t.name p, x) ∈ (program p fs).body.filterMap Line.declared? := by
      rw [declarations_program]
      exact List.mem_map_of_mem hmem
    refine ⟨reads_name hx.isName, ?_, ?_, ?_⟩
    · exact declaredIn?_of_mem hnames (List.mem_append_left _ hline)
    · simpa [Expression.term, Reference.term, Term.isInput] using hx.ne_input
    · intro y hy
      exact ⟨_, rfl, List.mem_singleton.1 hy⟩
  | @property f u hf hu hx =>
    have hmem : u ∈ fs.filterMap (·.uniform?) := List.mem_filterMap.2 ⟨f, hf, hu⟩
    have huniform : (u.type.name p, u.name) ∈ (program p fs).uniforms :=
      List.mem_map.2 ⟨u, hmem, rfl⟩
    refine ⟨reads_name hx.isName, ?_, ?_, ?_⟩
    · exact declaredIn?_of_mem hnames (List.mem_append_right _ huniform)
    · simpa [Expression.term, Reference.term, Term.isInput] using hx.ne_input
    · intro y hy
      exact ⟨_, rfl, List.mem_singleton.1 hy⟩
  | @meshUV f hf huv =>
    have hany : fs.any (·.meshUV) = true := List.any_eq_true.2 ⟨f, hf, huv⟩
    refine ⟨reads_meshUV, ?_, rfl, ?_⟩
    · have hmembers : (program p fs).members = [(ConcreteType.vector4.name p, "meshUV0")] := by
        rw [program, if_pos hany]
      have htype : Program.declaredIn? p (program p fs).members "meshUV0" = some .vector4 := by
        rw [hmembers]
        exact declaredIn?_of_mem (List.nodup_singleton _) (List.mem_singleton_self _)
      simpa [Expression.term, Reference.term, Program.type?, Term.isInput] using htype
    · intro y hy
      refine ⟨_, rfl, ?_⟩
      simpa [Expression.term, Reference.term, Term.reads, Term.isInput, Reference.text] using hy

/-- Texts of uniforms of different names are different chunks. -/
theorem foldl_addTo_uniforms {us : List Uniform} {l : List String}
    (hname : ∀ u ∈ us, isName u.name.toList = true) (hnodup : (us.map (·.name)).Nodup)
    (hl : ∀ u ∈ us, u.text p ∉ l) :
    us.foldl (fun l u => addTo l (u.text p) true) l = l ++ us.map (·.text p) := by
  induction us generalizing l with
  | nil => simp
  | cons u us ih =>
    rw [List.map_cons, List.nodup_cons] at hnodup
    have hnew : addTo l (u.text p) true = l ++ [u.text p] := by
      have habsent := hl u List.mem_cons_self
      simp [addTo, habsent]
    have hrest : ∀ v ∈ us, v.text p ∉ l ++ [u.text p] := by
      intro v hv hmem
      rw [List.mem_append, List.mem_singleton] at hmem
      obtain hmem | heq := hmem
      · exact hl v (List.mem_cons_of_mem _ hv) hmem
      · have hread := congrArg readDeclaration? heq
        rw [Uniform.text, Uniform.text,
          readDeclaration?_text (isName_typeName v.type p) (hname v (List.mem_cons_of_mem _ hv)),
          readDeclaration?_text (isName_typeName u.type p) (hname u List.mem_cons_self)] at hread
        have hsame : v.name = u.name := (Prod.mk.inj (Option.some.inj hread)).2
        exact hnodup.1 (List.mem_map.2 ⟨v, hv, hsame⟩)
    rw [List.foldl_cons, hnew, ih (fun v hv => hname v (List.mem_cons_of_mem _ hv)) hnodup.2 hrest,
      List.map_cons, List.append_assoc]
    rfl

/-- Texts of which each can be read. -/
theorem mapM_texts {α β : Type} {read : String → Option β} {text : α → String} {h : α → β}
    {l : List α} (hread : ∀ a ∈ l, read (text a) = some (h a)) :
    (l.map text).mapM read = some (l.map h) := by
  induction l with
  | nil => rfl
  | cons a l ih =>
    rw [List.map_cons, List.mapM_cons, hread a List.mem_cons_self,
      ih fun b hb => hread b (List.mem_cons_of_mem _ hb)]
    rfl

theorem body_sink
    (hread : ∀ s ∈ fs.flatMap (·.statements), readLine? (s.text p) = some (s.line p)) :
    (fs.foldl (Sink.addFragment p) .empty).body.mapM readLine? = some (program p fs).body := by
  rw [body_foldl, Sink.empty, List.nil_append]
  exact mapM_texts hread

/-- The sections read back are the program of the fragments. -/
theorem program?_sink (hd : Distinct fs)
    (hlegible : ∀ s ∈ fs.flatMap (·.statements), s.Legible q p) :
    (fs.foldl (Sink.addFragment p) .empty).program? = some (program p fs) := by
  have hname : ∀ u ∈ fs.filterMap (·.uniform?), isName u.name.toList = true := fun u hu =>
    (hd.propertyNames _ (List.mem_map_of_mem hu)).isName
  have hbody : (fs.foldl (Sink.addFragment p) .empty).body.mapM readLine? =
      some (program p fs).body := body_sink fun s hs => (hlegible s hs).readLine?
  have huniforms : (fs.foldl (Sink.addFragment p) .empty).propertyUsages.mapM readDeclaration? =
      some (program p fs).uniforms := by
    rw [propertyUsages_foldl, Sink.empty, foldl_addTo_uniforms hname hd.uniforms (by simp),
      List.nil_append]
    exact mapM_texts fun u hu => readDeclaration?_text (isName_typeName u.type p) (hname u hu)
  have hmembers : (fs.foldl (Sink.addFragment p) .empty).vertexToFragment.mapM readDeclaration? =
      some (program p fs).members := by
    rw [vertexToFragment_sink, program]
    by_cases hany : fs.any (·.meshUV) = true
    · simp only [if_pos hany]
      have htext : interpolatorChunk p =
          ConcreteType.vector4.name p ++ " " ++ "meshUV0" ++ ";" := by
        cases p <;> decide
      rw [List.mapM_cons, htext, readDeclaration?_text (isName_typeName .vector4 p) (by decide)]
      rfl
    · simp only [if_neg hany]
      rfl
  rw [Sink.program?, hbody, huniforms, hmembers]
  rfl

end Programs

section Passes

variable {g : Graph} {mode : Mode} {settings : Settings} {shader : Shader} {pass : Pass}
  {order : List NodeId}

/-- The fragments of a pass over the nodes of `order`. -/
def fragmentsOf (g : Graph) (mode : Mode) (order : List NodeId) : List Fragment :=
  (outcomes g mode (g.resolveTypes order) .empty order).filterMap (·.fragment?)

theorem distinct_fragmentsOf (mode : Mode) (hg : g.WellFormed)
    (horder : g.topologicalOrder = .ok order) :
    Distinct (fragmentsOf g mode order) := by
  have hemitted := allEmitted_outcomes g mode (g.resolveTypes order) order
  have hserials := nodup_serials mode (g.resolveTypes order) hg
    (Graph.nodup_of_topologicalOrder horder)
  have houtputs := declared_sublist hemitted
  have huniforms := uniforms_sublist hemitted
  refine ⟨?_, ?_, ?_, ?_⟩
  · exact (nodup_of_serials (fun _ _ => serial_of_outputVariable) hserials).sublist houtputs
  · exact (nodup_of_serials (fun _ _ => serial_of_propertyName) hserials).sublist huniforms
  · intro x hx
    obtain ⟨o, -, rfl⟩ := List.mem_map.1 (houtputs.subset hx)
    exact isOutputName_outputVariable o.node
  · intro x hx
    obtain ⟨o, -, rfl⟩ := List.mem_map.1 (huniforms.subset hx)
    exact isPropertyName_propertyName o.node

theorem subset_through {α : Type} (l : List α) (a : α) (l' : List α) :
    l ++ [a] ⊆ l ++ a :: l' := by
  rw [List.append_cons l a l']
  exact List.subset_append_left _ _

/-- Where a statement stands among the statements of the fragments. -/
theorem exists_of_flatMap_eq {α β : Type} {f : α → List β} {l : List α} {before after : List β}
    {b : β} (h : l.flatMap f = before ++ b :: after) :
    ∃ l₁ a l₂ c, l = l₁ ++ a :: l₂ ∧ b ∈ f a ∧ before = l₁.flatMap f ++ c := by
  induction l generalizing before with
  | nil => simp at h
  | cons a l ih =>
    rw [List.flatMap_cons] at h
    obtain ⟨c, rfl, hrest⟩ | ⟨c, hfa, hrest⟩ := List.append_eq_append_iff.1 h
    · obtain ⟨l₁, a', l₂, d, rfl, hb, rfl⟩ := ih hrest
      exact ⟨a :: l₁, a', l₂, d, rfl, hb, by simp⟩
    · cases c with
      -- the piece of `a` ends before `b`, which then begins what is left
      | nil =>
        have hhead : l.flatMap f = [] ++ b :: after := hrest.symm
        obtain ⟨l₁, a', l₂, d, rfl, hb, hnil⟩ := ih hhead
        refine ⟨a :: l₁, a', l₂, d, rfl, hb, ?_⟩
        rw [List.append_nil] at hfa
        rw [List.flatMap_cons, List.append_assoc, ← hnil, List.append_nil, hfa]
      | cons b' c =>
        obtain ⟨rfl, -⟩ := List.cons.inj hrest
        exact ⟨[], a, l, before, rfl, by rw [hfa]; simp, rfl⟩

theorem legible_fragmentsOf (mode : Mode) (p : Precision) (hg : g.WellFormed)
    (horder : g.topologicalOrder = .ok order) {s : Statement}
    (hs : s ∈ (fragmentsOf g mode order).flatMap (·.statements)) :
    s.Legible (program p (fragmentsOf g mode order)) p := by
  obtain ⟨f, hf, hsf⟩ := List.mem_flatMap.1 hs
  obtain ⟨before, after, hsplit⟩ := List.append_of_mem hf
  obtain ⟨scope, hready, hemits⟩ :=
    exists_emits_fragment (settled_of_shaped hg.shaped horder) hsplit
  refine hemits.legible hready (fun r t hsupplied => ?_) hsf
  refine types_read (distinct_fragmentsOf mode hg horder) (hsupplied.mono ?_)
  rw [hsplit]
  exact subset_through before f after

theorem readLine?_fragmentsOf (mode : Mode) (p : Precision) (hg : g.Shaped)
    (horder : g.topologicalOrder = .ok order) {s : Statement}
    (hs : s ∈ (fragmentsOf g mode order).flatMap (·.statements)) :
    readLine? (s.text p) = some (s.line p) := by
  obtain ⟨f, hf, hsf⟩ := List.mem_flatMap.1 hs
  obtain ⟨before, after, hsplit⟩ := List.append_of_mem hf
  obtain ⟨scope, hready, hemits⟩ := exists_emits_fragment (settled_of_shaped hg horder) hsplit
  exact hemits.readLine? hready p hsf

theorem runPass_eq (mode : Mode) (hlimit : g.nodeCount ≤ settings.maxNodes)
    (horder : g.topologicalOrder = .ok order) :
    runPass g mode settings =
      .ok ⟨outcomes g mode (g.resolveTypes order) .empty order,
        (fragmentsOf g mode order).foldl (Sink.addFragment settings.precision) .empty⟩ := by
  rw [runPass, if_neg (Nat.not_lt.2 hlimit), horder]
  rfl

theorem generate_eq (hrun : runPass g mode settings = .ok pass) :
    generate g mode settings =
      .ok ⟨pass.sink.assemble settings, pass.sink.registered, pass.errors⟩ := by
  rw [generate, hrun]

/-- A pass fails if the graph is too large or has no order, and in no other way. -/
theorem runPass_eq_ok_iff :
    runPass g mode settings = .ok pass ↔ g.nodeCount ≤ settings.maxNodes ∧
      ∃ order, g.topologicalOrder = .ok order ∧
        pass = ⟨outcomes g mode (g.resolveTypes order) .empty order,
          (fragmentsOf g mode order).foldl (Sink.addFragment settings.precision) .empty⟩ := by
  constructor
  · intro hrun
    by_cases hlimit : g.nodeCount ≤ settings.maxNodes
    · cases horder : g.topologicalOrder with
      | error e =>
        rw [runPass, if_neg (Nat.not_lt.2 hlimit), horder] at hrun
        cases hrun
      | ok order =>
        rw [runPass_eq mode hlimit horder] at hrun
        exact ⟨hlimit, order, rfl, (Except.ok.inj hrun).symm⟩
    · rw [runPass, if_pos (Nat.lt_of_not_le hlimit)] at hrun
      cases hrun
  · rintro ⟨hlimit, order, horder, rfl⟩
    exact runPass_eq mode hlimit horder

theorem generate_eq_ok_iff :
    generate g mode settings = .ok shader ↔ ∃ pass, runPass g mode settings = .ok pass ∧
      shader = ⟨pass.sink.assemble settings, pass.sink.registered, pass.errors⟩ := by
  constructor
  · intro h
    cases hrun : runPass g mode settings with
    | error e =>
      rw [generate, hrun] at h
      cases h
    | ok pass =>
      rw [generate_eq hrun] at h
      exact ⟨pass, rfl, (Except.ok.inj h).symm⟩
  · rintro ⟨pass, hrun, rfl⟩
    exact generate_eq hrun

/-- What a shader is made of. -/
theorem runPass_of_generate (h : generate g mode settings = .ok shader) :
    ∃ order pass, g.topologicalOrder = .ok order ∧ runPass g mode settings = .ok pass ∧
      shader.source = pass.sink.assemble settings ∧
      pass.outcomes = outcomes g mode (g.resolveTypes order) .empty order ∧
      pass.sink =
        (fragmentsOf g mode order).foldl (Sink.addFragment settings.precision) .empty := by
  obtain ⟨pass, hrun, rfl⟩ := generate_eq_ok_iff.1 h
  obtain ⟨-, order, horder, rfl⟩ := runPass_eq_ok_iff.1 hrun
  exact ⟨order, _, horder, hrun, rfl, rfl, rfl⟩

/-- The sections of a shader can be read back, and say what the fragments say. -/
theorem pass_of_generate (hg : g.WellFormed) (h : generate g mode settings = .ok shader) :
    ∃ order pass, g.topologicalOrder = .ok order ∧ runPass g mode settings = .ok pass ∧
      shader.source = pass.sink.assemble settings ∧
      pass.outcomes = outcomes g mode (g.resolveTypes order) .empty order ∧
      pass.sink = (fragmentsOf g mode order).foldl (Sink.addFragment settings.precision) .empty ∧
      pass.sink.program? = some (program settings.precision (fragmentsOf g mode order)) := by
  obtain ⟨order, pass, horder, hrun, hsource, houtcomes, hsink⟩ := runPass_of_generate h
  refine ⟨order, pass, horder, hrun, hsource, houtcomes, hsink, ?_⟩
  rw [hsink]
  exact program?_sink (distinct_fragmentsOf mode hg horder) fun s hs =>
    legible_fragmentsOf mode settings.precision hg horder hs

end Passes

end ShaderGraph
