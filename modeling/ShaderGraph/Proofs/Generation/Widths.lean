import Mathlib.Data.List.Forall2
import ShaderGraph.Proofs.Generation.Closure

/-!
# Emitted inputs have the resolved widths

Types are resolved before anything is emitted, written on declarations, kept in the table of a pass,
and produced by adapting what feeds an input. This file shows that the four agree, with the types of
expressions read off the emitted text.

* `Line.inputs?` : the input expressions of a line, each with the slot it fills;
* `Line.InputsTyped` : these expressions have the types that were resolved for their slots;
* `generate_widths` : so do all inputs of every shader of a well-formed graph, and the variables
  have the types that the table records.
-/

namespace ShaderGraph

open Reading

section Inputs

/-- The expression at which a texture is sampled, unpacked or not. -/
def Reading.Term.coordinates? : Term → Option Term
  | .call _ [.call "UnpackNormal" [.call "tex2D" [_, uv]], _] => some uv
  | .call "tex2D" [_, uv] => some uv
  | _ => none

/-- The input expressions of a line of a node, each with the name of the slot it fills. -/
def Reading.Line.inputs? (k : NodeKind) (l : Line) : Option (List (String × Term)) :=
  match k, l with
  | .function f, .declare _ _ (.call g arguments) =>
    if g = f.callName ∧ arguments.length = f.arity then
      some ((NodeKind.argumentNames.take f.arity).zip arguments)
    else none
  | .texture _, .declare _ _ value => value.coordinates?.map fun uv => [(NodeKind.uvName, uv)]
  | .constant _, .declare .. => some []
  | .surfaceOutput, .assign slot value => some [(slot, value)]
  | _, _ => none

/-- Every input expression of the line has the type that was resolved for its slot, which for the
coordinates of a sample is a vector of two components. -/
def Reading.Line.InputsTyped (l : Line) (q : Program) (p : Precision) (types : TypeTable)
    (n : Node) : Prop :=
  ∃ inputs, l.inputs? n.kind = some inputs ∧
    ∀ i ∈ inputs, ∃ t, types.get? n.id i.1 = some t ∧ q.type? p i.2 = some t ∧
      ∀ sampler, n.kind = .texture sampler → t = .vector2

variable {s : Scope} {f : Fragment} {fs : List Fragment} {q : Program} {p : Precision}

theorem coordinates?_sample (vector texture : String) (uv : Term) (unpack : Bool) :
    (if unpack then
        Term.call vector [.call "UnpackNormal" [.call "tex2D" [.name texture, uv]], .number "0"]
      else .call "tex2D" [.name texture, uv]).coordinates? = some uv := by
  cases unpack <;> simp [Term.coordinates?]

/-- The arguments of a call have the types of the slots they were read from. -/
theorem Scope.Ready.types_arguments (hs : s.Ready fs)
    (hq : ∀ r t, Supplied fs r t → q.Types p (.read r) t) {names : List String}
    {inputs : List Slot} {defaults : List Binary32}
    (hinputs : List.Forall₂ (fun name slot => slot ∈ s.node.inputs ∧ slot.name = name) names inputs)
    (hlength : inputs.length = defaults.length) :
    List.Forall₂ (fun name e => ∃ t, s.types.get? s.node.id name = some t ∧ q.Types p e t) names
      (List.zipWith s.inputValue inputs defaults) := by
  induction hinputs generalizing defaults with
  | nil => exact .nil
  | @cons name slot names inputs hslot _ ih =>
    cases defaults with
    | nil => cases hlength
    | cons default defaults =>
      obtain ⟨hmem, rfl⟩ := hslot
      have hslots := mem_slots_of_inputs hmem
      refine .cons ⟨_, hs.resolved.found slot hslots, ?_⟩ (ih (Nat.succ.inj hlength))
      exact hs.types_inputValue hq hslots default

/-- The inputs of every line that a node emits have their types. -/
theorem Emits.inputsTyped (h : Emits s f) (hs : s.Ready fs)
    (hq : ∀ r t, Supplied (fs ++ [f]) r t → q.Types p (.read r) t) {st : Statement}
    (hst : st ∈ f.statements) : (st.line p).InputsTyped q p s.types s.node := by
  have hearlier : ∀ r t, Supplied fs r t → q.Types p (.read r) t := fun r t hsupplied =>
    hq r t (hsupplied.mono (List.subset_append_left _ _))
  cases h with
  | @function m inputs output hkind hinputs houtput =>
    obtain rfl := List.mem_singleton.1 hst
    have hlength : inputs.length = m.defaults.length := by
      rw [← hinputs.length_eq, (length_argumentNames m).1]
    have harguments := hs.types_arguments hearlier hinputs hlength
    have harity : (List.zipWith s.inputValue inputs m.defaults).length = m.arity := by
      rw [List.length_zipWith, hlength, min_self]
      rfl
    refine ⟨(NodeKind.argumentNames.take m.arity).zip
      ((List.zipWith s.inputValue inputs m.defaults).map (·.term p)), ?_, ?_⟩
    · rw [hkind]
      simp only [Line.inputs?, Statement.line, List.length_map, harity, and_self, if_true]
    · intro i hi
      rw [List.zip_map_right] at hi
      obtain ⟨⟨name, e⟩, hmem, rfl⟩ := List.mem_map.1 hi
      obtain ⟨t, ht, he⟩ := List.forall₂_zip harguments hmem
      refine ⟨t, ht, he.typed, fun sampler hsampler => ?_⟩
      rw [hkind] at hsampler
      cases hsampler
  | @texture sampler uvSlot output hkind hinput houtput =>
    obtain rfl := List.mem_singleton.1 hst
    obtain ⟨hconcrete, huv⟩ := hs.types_coordinates hearlier hkind hinput.1 hinput.2 fun hfed =>
      hq _ _ (.meshUV (List.mem_append_right fs (List.mem_singleton_self _)) (by simpa using hfed))
    have hfound : s.types.get? s.node.id uvSlot.name = some (s.concreteType uvSlot) :=
      hs.resolved.found uvSlot (mem_slots_of_inputs hinput.1)
    rw [hinput.2, hconcrete] at hfound
    generalize (if (s.feed? uvSlot).isSome then s.inputValue uvSlot .zero
      else Expression.select (.read .meshUV) (.leading 2)) = uv at huv ⊢
    refine ⟨[(NodeKind.uvName, uv.term p)], ?_, ?_⟩
    · rw [hkind]
      simp only [Line.inputs?, Statement.line, coordinates?_sample, Option.map_some]
    · intro i hi
      obtain rfl := List.mem_singleton.1 hi
      exact ⟨.vector2, hfound, huv.typed, fun _ _ => rfl⟩
  | uv hkind => cases hst
  | property hkind hproperty houtput => cases hst
  | @literal c output hkind hproperty houtput =>
    obtain rfl := List.mem_singleton.1 hst
    refine ⟨[], ?_, fun i hi => by cases hi⟩
    rw [hkind]
    rfl
  | preview hkind => cases hst
  | @surface inputs hkind hinputs =>
    obtain ⟨slot, hslot, rfl⟩ := List.mem_map.1 hst
    have hmem := mem_slots_of_inputs (hinputs slot hslot)
    refine ⟨[(slot.name, (s.inputValue slot .zero).term p)], ?_, ?_⟩
    · rw [hkind]
      rfl
    · intro i hi
      obtain rfl := List.mem_singleton.1 hi
      refine ⟨_, hs.resolved.found slot hmem, (hs.types_inputValue hearlier hmem .zero).typed, ?_⟩
      intro sampler hsampler
      rw [hkind] at hsampler
      cases hsampler

/-- A variable is recorded for an output slot of the node that declares it, at its type. -/
theorem Emits.recorded (h : Emits s f) (hs : s.Ready fs) {st : Statement} (hst : st ∈ f.statements)
    {t : ConcreteType} {x : String} (hdeclared : st.declared? = some (t, x)) :
    ∃ slot ∈ s.node.outputs, s.outputExpression slot = .read (.output x) ∧
      s.concreteType slot = t := by
  cases h with
  | @function m inputs output hkind hinputs houtput =>
    obtain rfl := List.mem_singleton.1 hst
    obtain ⟨rfl, rfl⟩ := Prod.mk.inj (Option.some.inj hdeclared)
    refine ⟨output, houtput, ?_, rfl⟩
    rw [Scope.outputExpression, hkind]
  | @texture sampler uvSlot output hkind hinput houtput =>
    obtain rfl := List.mem_singleton.1 hst
    obtain ⟨rfl, rfl⟩ := Prod.mk.inj (Option.some.inj hdeclared)
    obtain ⟨hmem, hout⟩ := mem_slots_of_outputs houtput.1
    have hrequired := hs.slots hmem
    rw [hkind] at hrequired
    have hwhole : Scope.channel? output.name = none := by
      rw [houtput.2]
      decide
    refine ⟨output, houtput.1, ?_, ?_⟩
    · rw [Scope.outputExpression, hkind]
      simp only [hwhole]
    · obtain ⟨-, htype⟩ | ⟨c, -, hchannel, -⟩ := texture_output hrequired hout
      · exact hs.concreteType_eq hmem htype
      · rw [hwhole] at hchannel
        cases hchannel
  | uv hkind => cases hst
  | property hkind hproperty houtput => cases hst
  | @literal c output hkind hproperty houtput =>
    obtain rfl := List.mem_singleton.1 hst
    obtain ⟨rfl, rfl⟩ := Prod.mk.inj (Option.some.inj hdeclared)
    refine ⟨output, houtput, ?_, hs.value_type hkind houtput⟩
    rw [Scope.outputExpression, hkind]
    simp only [hproperty, Bool.false_eq_true, if_false]
  | preview hkind => cases hst
  | surface hkind hinputs =>
    obtain ⟨slot, -, rfl⟩ := List.mem_map.1 hst
    cases hdeclared

end Inputs

section Shaders

/-- The lines of what a node contributed. -/
def Outcome.lines (p : Precision) (o : Outcome) : List Line :=
  match o.result with
  | .ok f => f.statements.filterMap fun st => readLine? (st.text p)
  | .error _ => []

variable {g : Graph} {mode : Mode} {settings : Settings} {order : List NodeId} {p : Precision}

/-- In the program of a pass every supplied name has its type. -/
theorem types_supplied (mode : Mode) (p : Precision) (hg : g.WellFormed)
    (horder : g.topologicalOrder = .ok order) {before after : List Outcome} {o : Outcome}
    {f : Fragment}
    (hsplit : outcomes g mode (g.resolveTypes order) .empty order = before ++ o :: after)
    (hf : o.fragment? = some f) {r : Reference} {t : ConcreteType}
    (h : Supplied (before.filterMap (·.fragment?) ++ [f]) r t) :
    (program p (fragmentsOf g mode order)).Types p (.read r) t := by
  refine types_read (distinct_fragmentsOf mode hg horder) (h.mono ?_)
  rw [fragmentsOf, hsplit, List.filterMap_append, List.filterMap_cons_some hf]
  exact subset_through _ _ _

theorem lines_of_ok {o : Outcome} {f : Fragment} (hf : o.result = .ok f)
    (hread : ∀ st ∈ f.statements, readLine? (st.text p) = some (st.line p)) :
    o.lines p = f.statements.map (·.line p) := by
  rw [Outcome.lines, hf, ← List.filterMap_eq_map]
  exact List.filterMap_congr hread

/-- The body of the program is made of the lines of the outcomes, in their order. -/
theorem body_program {os : List Outcome}
    (hread : ∀ st ∈ (os.filterMap (·.fragment?)).flatMap (·.statements),
      readLine? (st.text p) = some (st.line p)) :
    (program p (os.filterMap (·.fragment?))).body = os.flatMap (·.lines p) := by
  rw [program]
  induction os with
  | nil => rfl
  | cons o os ih =>
    rw [List.flatMap_cons]
    cases hresult : o.result with
    | error e =>
      have hnone : o.fragment? = none := by
        simp only [Outcome.fragment?, hresult]
      have hlines : o.lines p = [] := by
        simp only [Outcome.lines, hresult]
      rw [List.filterMap_cons_none hnone] at hread ⊢
      rw [hlines]
      exact ih hread
    | ok f =>
      have hsome : o.fragment? = some f := by
        simp only [Outcome.fragment?, hresult]
      rw [List.filterMap_cons_some hsome, List.flatMap_cons] at hread ⊢
      have hlines := lines_of_ok hresult fun st hst => hread st (List.mem_append_left _ hst)
      rw [hlines, List.map_append, ← ih fun st hst => hread st (List.mem_append_right _ hst)]

/-- A line comes from a statement of a node that was emitted in a ready scope. -/
theorem exists_of_mem_lines (mode : Mode) (hg : g.Shaped)
    (horder : g.topologicalOrder = .ok order) {before after : List Outcome} {o : Outcome}
    (hsplit : outcomes g mode (g.resolveTypes order) .empty order = before ++ o :: after) {l : Line}
    (hl : l ∈ o.lines p) :
    ∃ ids id rest f st, order = ids ++ id :: rest ∧ g.node? id = some o.node ∧
      o.result = .ok f ∧ (scopeAfter g mode (g.resolveTypes order) ids o.node).emit = .ok f ∧
      (scopeAfter g mode (g.resolveTypes order) ids o.node).Ready
        (before.filterMap (·.fragment?)) ∧
      st ∈ f.statements ∧ l = st.line p := by
  cases hresult : o.result with
  | error e =>
    simp only [Outcome.lines, hresult] at hl
    cases hl
  | ok f =>
    obtain ⟨ids, id, rest, hids, hnode, hemit, hready⟩ :=
      exists_emits (settled_of_shaped hg horder) hsplit hresult
    rw [lines_of_ok hresult fun st hst => (emits_of_emit hemit).readLine? hready p hst] at hl
    obtain ⟨st, hst, rfl⟩ := List.mem_map.1 hl
    exact ⟨ids, id, rest, f, st, hids, hnode, rfl, hemit, hready, hst, rfl⟩

/-- The types that are resolved, recorded, declared and read off the text of a pass agree. -/
structure WidthsAgree (g : Graph) (mode : Mode) (p : Precision) (order : List NodeId)
    (os : List Outcome) (q : Program) : Prop where
  /-- The body has the lines of the nodes and no others. -/
  body : q.body = os.flatMap (·.lines p)
  inputs : ∀ o ∈ os, ∀ l ∈ o.lines p, l.InputsTyped q p (g.resolveTypes order) o.node
  /-- What the table has for an output slot is text of the recorded type. -/
  recorded : ∀ id slot e t,
    (tableFrom g mode (g.resolveTypes order) .empty order).get? id slot = some (e, t) →
      ∃ a, readTerm? (lexemes (e.text p).toList) = some a ∧ q.type? p a = some t
  /-- The table has every variable, at the type that it is declared with and that was resolved. -/
  declared : ∀ o ∈ os, ∀ l ∈ o.lines p, ∀ type x, l.declared? = some (type, x) →
    ∃ slot ∈ o.node.outputs, ∃ e t,
      (tableFrom g mode (g.resolveTypes order) .empty order).get? o.node.id slot.name =
        some (e, t) ∧
      e.text p = x ∧ t.name p = type ∧ (g.resolveTypes order).get? o.node.id slot.name = some t

theorem widthsAgree_program (mode : Mode) (p : Precision) (hg : g.WellFormed)
    (horder : g.topologicalOrder = .ok order) :
    WidthsAgree g mode p order (outcomes g mode (g.resolveTypes order) .empty order)
      (program p (fragmentsOf g mode order)) := by
  refine ⟨?_, ?_, ?_, ?_⟩
  · exact body_program fun st hst => readLine?_fragmentsOf mode p hg.shaped horder hst
  · intro o ho l hl
    obtain ⟨before, after, hsplit⟩ := List.append_of_mem ho
    obtain ⟨ids, id, rest, f, st, -, -, hresult, hemit, hready, hst, rfl⟩ :=
      exists_of_mem_lines mode hg.shaped horder hsplit hl
    have hf : o.fragment? = some f := by
      simp only [Outcome.fragment?, hresult]
    exact (emits_of_emit hemit).inputsTyped hready
      (fun r t h => types_supplied mode p hg horder hsplit hf h) hst
  · intro id slot e t hget
    have hempty : VariableTable.empty.Readable [] := fun entry hentry => by cases hentry
    have hpublished : Published (fragmentsOf g mode order) e t :=
      readable_tableFrom (settled_of_shaped hg.shaped horder) hempty _ (mem_of_lookup hget)
    have htypes : (program p (fragmentsOf g mode order)).Types p e t :=
      hpublished.types fun r t h => types_read (distinct_fragmentsOf mode hg horder) h
    exact ⟨_, htypes.spelled.readTerm?, htypes.typed⟩
  · intro o ho l hl type x hdeclared
    obtain ⟨before, after, hsplit⟩ := List.append_of_mem ho
    obtain ⟨ids, id, rest, f, st, rfl, hnode, -, hemit, hready, hst, rfl⟩ :=
      exists_of_mem_lines mode hg.shaped horder hsplit hl
    rw [st.declared?_line] at hdeclared
    obtain ⟨⟨t, y⟩, hty, heq⟩ := Option.map_eq_some_iff.1 hdeclared
    obtain ⟨rfl, rfl⟩ := Prod.mk.inj heq
    obtain ⟨slot, hslot, hexpression, rfl⟩ := (emits_of_emit hemit).recorded hready hst hty
    have hget := get?_tableFrom hg.shaped (Graph.nodup_of_topologicalOrder horder) hnode hemit hslot
    rw [hexpression] at hget
    have hfound := hready.resolved.found slot (mem_slots_of_outputs hslot).1
    exact ⟨slot, hslot, _, _, hget, rfl, rfl, hfound⟩

/-- **Emitted inputs are width-correct.** In the shader of a well-formed graph every input
expression has the type that was resolved for its slot, and every variable the type that the pass
recorded. -/
theorem generate_widths (g : Graph) (mode : Mode) (settings : Settings) (shader : Shader)
    (hg : g.WellFormed) (h : generate g mode settings = .ok shader) :
    ∃ order pass q, g.topologicalOrder = .ok order ∧ runPass g mode settings = .ok pass ∧
      shader.source = pass.sink.assemble settings ∧ pass.sink.program? = some q ∧
      WidthsAgree g mode settings.precision order pass.outcomes q := by
  obtain ⟨order, pass, horder, hrun, hsource, houtcomes, -, hprogram⟩ := pass_of_generate hg h
  refine ⟨order, pass, _, horder, hrun, hsource, hprogram, ?_⟩
  rw [houtcomes]
  exact widthsAgree_program mode settings.precision hg horder

/-- In this graph the surface takes four components for three and two for three. -/
theorem generate_tiledGraph_widths :
    tiledGraph.WellFormed ∧
    ∃ shader, generate tiledGraph .surface .standard = .ok shader ∧
      ∃ order pass q, tiledGraph.topologicalOrder = .ok order ∧
        runPass tiledGraph .surface .standard = .ok pass ∧
        shader.source = pass.sink.assemble .standard ∧ pass.sink.program? = some q ∧
        WidthsAgree tiledGraph .surface .half order pass.outcomes q ∧
        pass.sink.body.drop 2 =
          ["o.Albedo = texture3_out.xyz;", "o.Emission = half3(_vector21, 0);",
            "o.Alpha = texture3_out.a;"] := by
  obtain ⟨order, pass, q, horder, hrun, hsource, hprogram, hwidths⟩ :=
    generate_widths tiledGraph .surface .standard _ wellFormed_tiledGraph rfl
  refine ⟨wellFormed_tiledGraph, _, rfl, order, pass, q, horder, hrun, hsource, hprogram, hwidths,
    ?_⟩
  obtain rfl := Except.ok.inj (hrun.symm.trans rfl)
  rfl

end Shaders

end ShaderGraph
