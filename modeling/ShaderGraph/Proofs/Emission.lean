import Mathlib.Data.List.Basic
import ShaderGraph.Emission
import ShaderGraph.Proofs.Names
import ShaderGraph.Proofs.Shader.Typing
import ShaderGraph.Proofs.TypeResolution

/-!
# What a node emits

A node is emitted in a scope whose table was filled by the fragments before it. This file says once
what the fragment of a node can be, and reads off what the names and the types in it come from.

* `Emits`, `emits_of_emit` : the forms of a fragment, with the slots that were found;
* `Supplied`, `Published` : what a list of fragments lets later nodes read;
* `Ready` : the scopes that a pass emits nodes in;
* `Emits.published`, `Emits.supplied`, `Emits.legible` : the step of each invariant of a pass;
* `Emits.readLine?` : every statement of a node can be read back, whatever the names around it.
-/

namespace ShaderGraph

open Reading

section Supply

/-- The variable that holds the property of a node. -/
def Fragment.uniform? (f : Fragment) : Option Uniform := f.property.map Prod.snd

/-- Among the fragments is one that gives the name a value of the type. -/
inductive Supplied (fs : List Fragment) : Reference → ConcreteType → Prop
  | output {f : Fragment} {s : Statement} {x : String} {t : ConcreteType} (hf : f ∈ fs)
      (hs : s ∈ f.statements) (hdeclared : s.declared? = some (t, x)) (hx : IsOutputName x) :
      Supplied fs (.output x) t
  | property {f : Fragment} {u : Uniform} (hf : f ∈ fs) (hu : f.uniform? = some u)
      (hx : IsPropertyName u.name) : Supplied fs (.property u.name) u.type
  | meshUV {f : Fragment} (hf : f ∈ fs) (huv : f.meshUV = true) : Supplied fs .meshUV .vector4

/-- The fragments let an output slot be read by the expression, at the type. -/
inductive Published (fs : List Fragment) : Expression → ConcreteType → Prop
  | whole {r : Reference} {t : ConcreteType} (h : Supplied fs r t) (ht : t.isVector = true) :
      Published fs (.read r) t
  | channel {x : String} {c : Selection} (h : Supplied fs (.output x) .vector4)
      (hc : c ∈ [Selection.red, .green, .blue, .alpha]) :
      Published fs (.select (.read (.output x)) c) .vector1

/-- Whatever the table holds was published by the fragments. -/
def VariableTable.Readable (table : VariableTable) (fs : List Fragment) : Prop :=
  ∀ entry ∈ table.entries, Published fs entry.2.1 entry.2.2

variable {fs fs' : List Fragment} {r : Reference} {e : Expression} {t : ConcreteType}

theorem Supplied.mono (h : Supplied fs r t) (hsub : fs ⊆ fs') : Supplied fs' r t := by
  cases h with
  | output hf hs hdeclared hx => exact .output (hsub hf) hs hdeclared hx
  | property hf hu hx => exact .property (hsub hf) hu hx
  | meshUV hf huv => exact .meshUV (hsub hf) huv

theorem Published.mono (h : Published fs e t) (hsub : fs ⊆ fs') : Published fs' e t := by
  cases h with
  | whole h ht => exact .whole (h.mono hsub) ht
  | channel h hc => exact .channel (h.mono hsub) hc

theorem Published.isVector (h : Published fs e t) : t.isVector = true := by
  cases h with
  | whole _ ht => exact ht
  | channel => rfl

theorem Published.supplied (h : Published fs e t) (hr : e.reference? = some r) :
    ∃ u, Supplied fs r u := by
  cases h with
  | whole h _ =>
    obtain rfl := Option.some.inj hr
    exact ⟨_, h⟩
  | channel h _ =>
    obtain rfl := Option.some.inj hr
    exact ⟨_, h⟩

theorem Supplied.spelled (h : Supplied fs r t) (p : Precision) : Spelled p (.read r) := by
  cases h with
  | output _ _ _ hx => exact ⟨reads_name hx.isName, by simp [Expression.term, Reference.term]⟩
  | property _ _ hx => exact ⟨reads_name hx.isName, by simp [Expression.term, Reference.term]⟩
  | meshUV => exact ⟨reads_meshUV, by simp [Expression.term, Reference.term]⟩

/-- What is published can be read back. -/
theorem Published.spelled (h : Published fs e t) (p : Precision) : Spelled p e := by
  cases h with
  | whole h _ => exact h.spelled p
  | channel h hc =>
    have hread := h.spelled p
    simp only [List.mem_cons, List.not_mem_nil, or_false] at hc
    obtain rfl | rfl | rfl | rfl := hc <;> exact hread.select (by decide)

/-- Where every supplied name has its type, so has every published expression. -/
theorem Published.types {q : Program} {p : Precision} (h : Published fs e t)
    (hq : ∀ r t, Supplied fs r t → q.Types p (.read r) t) : q.Types p e t := by
  cases h with
  | whole h _ => exact hq _ _ h
  | channel h hc =>
    have hread := hq _ _ h
    simp only [List.mem_cons, List.not_mem_nil, or_false] at hc
    obtain rfl | rfl | rfl | rfl := hc <;>
      exact hread.select (by simp [Expression.term, Reference.term]) (by decide) (by decide)

end Supply

section RequiredOutputs

variable {slot : Slot}

theorem eq_of_function_output {f : MathFunction}
    (h : slot ∈ (NodeKind.function f).requiredSlots) (hout : slot.isOutput = true) :
    slot = ⟨NodeKind.resultName, .output, f.resultType⟩ := by
  simp only [NodeKind.requiredSlots, List.mem_append, List.mem_map, List.mem_singleton] at h
  obtain ⟨name, -, rfl⟩ | h := h
  · cases hout
  · exact h

/-- The whole sample or one of its channels. -/
theorem texture_output {t : TextureSampler} (h : slot ∈ (NodeKind.texture t).requiredSlots)
    (hout : slot.isOutput = true) :
    (Scope.channel? slot.name = none ∧ slot.type = .fixed .vector4) ∨
      ∃ c ∈ [Selection.red, .green, .blue, .alpha],
        Scope.channel? slot.name = some c ∧ slot.type = .fixed .vector1 := by
  simp only [NodeKind.requiredSlots, List.mem_cons, List.not_mem_nil, or_false] at h
  obtain rfl | rfl | rfl | rfl | rfl | rfl := h
  · exact .inl ⟨by decide, rfl⟩
  · exact .inr ⟨.red, by decide, by decide, rfl⟩
  · exact .inr ⟨.green, by decide, by decide, rfl⟩
  · exact .inr ⟨.blue, by decide, by decide, rfl⟩
  · exact .inr ⟨.alpha, by decide, by decide, rfl⟩
  · exact absurd hout (by decide)

theorem not_isOutput_of_surface (h : slot ∈ NodeKind.surfaceOutput.requiredSlots) :
    slot.isOutput = false := by
  have hall : ∀ slot ∈ NodeKind.surfaceInputs, slot.isOutput = false := by decide
  exact hall slot h

end RequiredOutputs

section Forms

/-- What the node of a scope may contribute, one form for each way its kind goes, with the slots
that were found. -/
inductive Emits (s : Scope) : Fragment → Prop
  | function {f : MathFunction} {inputs : List Slot} {output : Slot}
      (hkind : s.node.kind = .function f)
      (hinputs : List.Forall₂ (fun name slot => slot ∈ s.node.inputs ∧ slot.name = name)
        (NodeKind.argumentNames.take f.arity) inputs)
      (houtput : output ∈ s.node.outputs) :
      Emits s
        { statements :=
            [.call (s.concreteType output) s.node.outputVariable f.callName
              (List.zipWith s.inputValue inputs f.defaults)]
          definition :=
            f.body?.map fun body =>
              ⟨s.concreteType output, f.callName, inputs.map s.concreteType, body⟩
          property := none
          meshUV := false }
  | texture {t : TextureSampler} {uvSlot output : Slot} (hkind : s.node.kind = .texture t)
      (hinput : uvSlot ∈ s.node.inputs ∧ uvSlot.name = NodeKind.uvName)
      (houtput : output ∈ s.node.outputs ∧ output.name = NodeKind.sampleName) :
      Emits s
        { statements :=
            [.sample s.node.outputVariable s.node.propertyName
              (if (s.feed? uvSlot).isSome then s.inputValue uvSlot .zero
                else .select (.read .meshUV) (.leading 2))
              (t.type == .bump)]
          definition := none
          property :=
            some (⟨s.node.propertyName, s.node.name, .texture t.texture t.type, t.exposed⟩,
              ⟨.texture2D, s.node.propertyName⟩)
          meshUV := !(s.feed? uvSlot).isSome }
  | uv (hkind : s.node.kind = .uv) : Emits s { Fragment.none with meshUV := true }
  | property {c : Constant} {output : Slot} (hkind : s.node.kind = .constant c)
      (hproperty : s.isProperty c = true) (houtput : output ∈ s.node.outputs) :
      Emits s
        { Fragment.none with
          property :=
            some (⟨s.node.propertyName, s.node.name, Scope.constantProperty c.value, c.exposed⟩,
              ⟨c.value.type, s.node.propertyName⟩) }
  | literal {c : Constant} {output : Slot} (hkind : s.node.kind = .constant c)
      (hproperty : s.isProperty c = false) (houtput : output ∈ s.node.outputs) :
      Emits s
        { Fragment.none with
          statements :=
            [.define c.value.type s.node.outputVariable
              (.vectorLiteral c.value.components c.value.type)] }
  | preview (hkind : s.node.kind = .surfaceOutput) : Emits s Fragment.none
  | surface {inputs : List Slot} (hkind : s.node.kind = .surfaceOutput)
      (hinputs : ∀ slot ∈ inputs, slot ∈ s.node.inputs) :
      Emits s
        { Fragment.none with
          statements := inputs.map fun slot => .assign slot.name (s.inputValue slot .zero) }

variable {s : Scope} {fragment : Fragment}

theorem bind_eq_ok {ε α β : Type} {x : Except ε α} {k : α → Except ε β} {b : β}
    (h : (x >>= k) = .ok b) : ∃ a, x = .ok a ∧ k a = .ok b := by
  cases x with
  | error e => cases h
  | ok a => exact ⟨a, rfl, h⟩

theorem mapM_eq_ok {ε α β : Type} {f : α → Except ε β} {l : List α} {l' : List β}
    (h : l.mapM f = .ok l') : List.Forall₂ (fun a b => f a = .ok b) l l' := by
  induction l generalizing l' with
  | nil =>
    obtain rfl : [] = l' := by simpa [pure, Except.pure] using h
    exact .nil
  | cons a l ih =>
    rw [List.mapM_cons] at h
    obtain ⟨b, hb, h⟩ := bind_eq_ok h
    obtain ⟨rest, hrest, h⟩ := bind_eq_ok h
    obtain rfl : b :: rest = l' := by simpa [pure, Except.pure] using h
    exact .cons hb (ih hrest)

theorem exists_left_of_forall₂ {α β : Type} {R : α → β → Prop} {as : List α} {bs : List β}
    (h : List.Forall₂ R as bs) {b : β} (hb : b ∈ bs) : ∃ a ∈ as, R a b := by
  induction h with
  | nil => cases hb
  | @cons a b' as bs hab _ ih =>
    rcases List.mem_cons.1 hb with rfl | hb
    · exact ⟨a, List.mem_cons_self, hab⟩
    · obtain ⟨a', ha', hab'⟩ := ih hb
      exact ⟨a', List.mem_cons_of_mem a ha', hab'⟩

/-- The slot that a look-up by direction and name finds. -/
theorem mem_filter_of_find? {slots : List Slot} {direction : Slot → Bool} {name : String}
    {slot : Slot} (h : slots.find? (fun t => direction t && t.name = name) = some slot) :
    slot ∈ slots.filter direction ∧ slot.name = name := by
  have hmatch := List.find?_some h
  simp only [Bool.and_eq_true, decide_eq_true_eq] at hmatch
  exact ⟨List.mem_filter.2 ⟨List.mem_of_find?_eq_some h, hmatch.1⟩, hmatch.2⟩

theorem requireInput_eq_ok {name : String} {slot : Slot} (h : s.requireInput name = .ok slot) :
    slot ∈ s.node.inputs ∧ slot.name = name := by
  unfold Scope.requireInput at h
  cases hfind : s.node.input? name with
  | none =>
    rw [hfind] at h
    cases h
  | some found =>
    rw [hfind] at h
    obtain rfl := Except.ok.inj h
    exact mem_filter_of_find? hfind

theorem mem_inputs_of_mapM {names : List String} {inputs : List Slot}
    (h : names.mapM s.requireInput = .ok inputs) : ∀ slot ∈ inputs, slot ∈ s.node.inputs := by
  intro slot hslot
  obtain ⟨name, -, hfound⟩ := exists_left_of_forall₂ (mapM_eq_ok h) hslot
  exact (requireInput_eq_ok hfound).1

theorem requireOutput_eq_ok {name : String} {slot : Slot} (h : s.requireOutput name = .ok slot) :
    slot ∈ s.node.outputs ∧ slot.name = name := by
  unfold Scope.requireOutput at h
  cases hfind : s.node.output? name with
  | none =>
    rw [hfind] at h
    cases h
  | some found =>
    rw [hfind] at h
    obtain rfl := Except.ok.inj h
    exact mem_filter_of_find? hfind

theorem isProperty_iff {c : Constant} :
    s.isProperty c = true ↔ c.exposed = true ∨ s.mode = .preview := by
  simp [Scope.isProperty]

theorem emits_of_emitFunction {f : MathFunction} (hkind : s.node.kind = .function f)
    (h : s.emitFunction f = .ok fragment) : Emits s fragment := by
  obtain ⟨⟨inputs, output⟩, hslots, h⟩ := bind_eq_ok h
  obtain ⟨inputs', hinputs, hslots⟩ := bind_eq_ok hslots
  obtain ⟨output', houtput, hslots⟩ := bind_eq_ok hslots
  obtain ⟨rfl, rfl⟩ := Prod.mk.inj (Except.ok.inj hslots)
  obtain rfl := Except.ok.inj h
  have hforall := (mapM_eq_ok hinputs).imp fun _ _ hslot => requireInput_eq_ok hslot
  exact .function hkind hforall (requireOutput_eq_ok houtput).1

theorem emits_of_emitTexture {t : TextureSampler} (hkind : s.node.kind = .texture t)
    (h : s.emitTexture t = .ok fragment) : Emits s fragment := by
  obtain ⟨uvSlot, huv, h⟩ := bind_eq_ok h
  obtain ⟨output, houtput, h⟩ := bind_eq_ok h
  obtain rfl := Except.ok.inj h
  exact .texture hkind (requireInput_eq_ok huv) (requireOutput_eq_ok houtput)

theorem emits_of_emitConstant {c : Constant} (hkind : s.node.kind = .constant c)
    (h : s.emitConstant c = .ok fragment) : Emits s fragment := by
  obtain ⟨output, houtput, h⟩ := bind_eq_ok h
  by_cases hproperty : s.isProperty c = true
  · simp only [if_pos hproperty] at h
    obtain rfl := Except.ok.inj h
    exact .property hkind hproperty (requireOutput_eq_ok houtput).1
  · simp only [if_neg hproperty] at h
    obtain rfl := Except.ok.inj h
    exact .literal hkind (by simpa using hproperty) (requireOutput_eq_ok houtput).1

theorem emits_of_emitSurface (hkind : s.node.kind = .surfaceOutput)
    (h : s.emitSurface = .ok fragment) : Emits s fragment := by
  obtain ⟨inputs, hinputs, h⟩ := bind_eq_ok h
  by_cases hpreview : (s.mode == .preview) = true
  · simp only [if_pos hpreview] at h
    obtain rfl := Except.ok.inj h
    exact .preview hkind
  · simp only [if_neg hpreview] at h
    obtain rfl := Except.ok.inj h
    refine .surface hkind fun slot hslot => ?_
    exact mem_inputs_of_mapM hinputs slot (List.mem_of_mem_filter hslot)

theorem emits_of_emit (h : s.emit = .ok fragment) : Emits s fragment := by
  unfold Scope.emit at h
  cases hkind : s.node.kind with
  | function f =>
    rw [hkind] at h
    exact emits_of_emitFunction hkind h
  | texture t =>
    rw [hkind] at h
    exact emits_of_emitTexture hkind h
  | uv =>
    rw [hkind] at h
    obtain ⟨output, -, h⟩ := bind_eq_ok h
    obtain rfl := Except.ok.inj h
    exact .uv hkind
  | constant c =>
    rw [hkind] at h
    exact emits_of_emitConstant hkind h
  | surfaceOutput =>
    rw [hkind] at h
    exact emits_of_emitSurface hkind h

end Forms

section Steps

variable {s : Scope} {f : Fragment} {fs : List Fragment}

/-- A scope that a pass emits a node in, after the fragments `fs`. -/
structure Scope.Ready (s : Scope) (fs : List Fragment) : Prop where
  resolved : Graph.Resolved s.types s.node
  slots : s.node.slots ⊆ s.node.kind.requiredSlots
  readable : s.published.Readable fs

theorem mem_slots_of_outputs {n : Node} {slot : Slot} (h : slot ∈ n.outputs) :
    slot ∈ n.slots ∧ slot.isOutput = true :=
  List.mem_filter.1 h

theorem mem_slots_of_inputs {n : Node} {slot : Slot} (h : slot ∈ n.inputs) : slot ∈ n.slots :=
  (List.mem_filter.1 h).1

theorem Scope.Ready.concreteType_eq (hs : s.Ready fs) {slot : Slot} (h : slot ∈ s.node.slots)
    {t : ConcreteType} (ht : slot.type = .fixed t) : s.concreteType slot = t :=
  hs.resolved.declared slot h t ht

theorem Scope.Ready.value_type (hs : s.Ready fs) {c : Constant} (hkind : s.node.kind = .constant c)
    {slot : Slot} (h : slot ∈ s.node.outputs) : s.concreteType slot = c.value.type := by
  have hslot := (mem_slots_of_outputs h).1
  have hrequired := hs.slots hslot
  rw [hkind] at hrequired
  obtain rfl := List.mem_singleton.1 hrequired
  exact hs.concreteType_eq hslot rfl

theorem Scope.Ready.result_type (hs : s.Ready fs) {m : MathFunction}
    (hkind : s.node.kind = .function m) {slot output : Slot} (h : slot ∈ s.node.outputs)
    (houtput : output ∈ s.node.outputs) : slot = output := by
  obtain ⟨hslot, hout⟩ := mem_slots_of_outputs h
  obtain ⟨hslot', hout'⟩ := mem_slots_of_outputs houtput
  have hrequired := hs.slots hslot
  have hrequired' := hs.slots hslot'
  rw [hkind] at hrequired hrequired'
  rw [eq_of_function_output hrequired hout, eq_of_function_output hrequired' hout']

/-- The table publishes nothing that the fragments, with the one of the node, do not supply. -/
theorem Emits.published (h : Emits s f) (hs : s.Ready fs) {slot : Slot}
    (hslot : slot ∈ s.node.outputs) :
    Published (fs ++ [f]) (s.outputExpression slot) (s.concreteType slot) := by
  obtain ⟨hmem, hout⟩ := mem_slots_of_outputs hslot
  have hvector : (s.concreteType slot).isVector = true := hs.resolved.isVector slot hmem
  have hrequired := hs.slots hmem
  have hlast : f ∈ fs ++ [f] := by simp
  have hname := isOutputName_outputVariable s.node
  cases h with
  | @function m inputs output hkind hinputs houtput =>
    obtain rfl := hs.result_type hkind hslot houtput
    rw [Scope.outputExpression, hkind]
    exact .whole (.output hlast (List.mem_singleton_self _) rfl hname) hvector
  | @texture t uvSlot output hkind hinput houtput =>
    have hsupplied := Supplied.output hlast (List.mem_singleton_self _) rfl hname
    rw [hkind] at hrequired
    rw [Scope.outputExpression, hkind]
    obtain ⟨hchannel, htype⟩ | ⟨c, hc, hchannel, htype⟩ := texture_output hrequired hout
    · rw [hs.concreteType_eq hmem htype]
      simp only [hchannel]
      exact .whole hsupplied rfl
    · rw [hs.concreteType_eq hmem htype]
      simp only [hchannel]
      exact .channel hsupplied hc
  | uv hkind =>
    rw [hkind] at hrequired
    obtain rfl := List.mem_singleton.1 hrequired
    rw [hs.concreteType_eq hmem rfl, Scope.outputExpression, hkind]
    exact .whole (.meshUV hlast rfl) rfl
  | @property c output hkind hproperty houtput =>
    rw [hs.value_type hkind hslot] at hvector ⊢
    rw [Scope.outputExpression, hkind]
    simp only [hproperty, if_true]
    exact .whole (.property hlast rfl (isPropertyName_propertyName s.node)) hvector
  | @literal c output hkind hproperty houtput =>
    rw [hs.value_type hkind hslot] at hvector ⊢
    rw [Scope.outputExpression, hkind]
    simp only [hproperty, Bool.false_eq_true, if_false]
    exact .whole (.output hlast (List.mem_singleton_self _) rfl hname) hvector
  | preview hkind =>
    rw [hkind] at hrequired
    rw [not_isOutput_of_surface hrequired] at hout
    cases hout
  | surface hkind hinputs =>
    rw [hkind] at hrequired
    rw [not_isOutput_of_surface hrequired] at hout
    cases hout

theorem entries_foldl_publish (id : NodeId) (e : Slot → Expression) (t : Slot → ConcreteType)
    (slots : List Slot) (table : VariableTable) :
    (slots.foldl (fun table slot => table.insert id slot.name (e slot) (t slot)) table).entries =
      rows id slots (fun slot => (e slot, t slot)) ++ table.entries := by
  induction slots generalizing table with
  | nil => rfl
  | cons slot slots ih =>
    rw [List.foldl_cons, ih, rows_cons, List.append_assoc]
    rfl

theorem entries_publish (s : Scope) :
    s.publish.entries =
      rows s.node.id s.node.outputs (fun slot => (s.outputExpression slot, s.concreteType slot)) ++
        s.published.entries :=
  entries_foldl_publish _ _ _ _ _

theorem Emits.readable (h : Emits s f) (hs : s.Ready fs) : s.publish.Readable (fs ++ [f]) := by
  intro entry hentry
  rw [entries_publish, List.mem_append] at hentry
  obtain hentry | hentry := hentry
  · obtain ⟨slot, hslot, rfl⟩ := mem_rows.1 hentry
    exact h.published hs hslot
  · exact (hs.readable entry hentry).mono (List.subset_append_left _ _)

theorem Scope.Ready.feed (hs : s.Ready fs) {slot : Slot} {e : Expression} {t : ConcreteType}
    (h : s.feed? slot = some (e, t)) : Published fs e t := by
  obtain ⟨c, -, hget⟩ := Option.bind_eq_some_iff.1 h
  exact hs.readable _ (mem_of_lookup hget)

theorem Scope.Ready.supplied_inputValue (hs : s.Ready fs) {slot : Slot} {default : Binary32}
    {r : Reference} (hr : (s.inputValue slot default).reference? = some r) :
    ∃ t, Supplied fs r t := by
  unfold Scope.inputValue at hr
  cases hfeed : s.feed? slot with
  | none =>
    simp only [hfeed, reference?_vectorLiteral] at hr
    cases hr
  | some fed =>
    obtain ⟨e, source⟩ := fed
    simp only [hfeed, reference?_coerce] at hr
    exact (hs.feed hfeed).supplied hr

/-- A statement reads what the fragments before it supply, or the property and the coordinates that
come with it. The variable that it declares itself is none of them. -/
theorem Emits.supplied (h : Emits s f) (hs : s.Ready fs) {st : Statement} (hst : st ∈ f.statements)
    {r : Reference} (hr : r ∈ st.references) :
    ∃ t, Supplied fs r t ∨ (Supplied [f] r t ∧ ∀ x, r ≠ .output x) := by
  have hown : f ∈ [f] := List.mem_singleton_self f
  cases h with
  | @function m inputs output hkind hinputs houtput =>
    obtain rfl := List.mem_singleton.1 hst
    obtain ⟨e, he, hre⟩ := List.mem_filterMap.1 hr
    rw [List.mem_iff_getElem] at he
    obtain ⟨i, hi, rfl⟩ := he
    rw [List.getElem_zipWith] at hre
    obtain ⟨t, ht⟩ := hs.supplied_inputValue hre
    exact ⟨t, .inl ht⟩
  | @texture t uvSlot output hkind hinput houtput =>
    obtain rfl := List.mem_singleton.1 hst
    simp only [Statement.references, List.mem_cons, Option.mem_toList] at hr
    obtain rfl | hr := hr
    · refine ⟨.texture2D, .inr ⟨?_, by simp⟩⟩
      exact .property hown rfl (isPropertyName_propertyName s.node)
    · by_cases hfed : (s.feed? uvSlot).isSome = true
      · rw [if_pos hfed] at hr
        obtain ⟨u, hu⟩ := hs.supplied_inputValue hr
        exact ⟨u, .inl hu⟩
      · rw [if_neg hfed] at hr
        obtain rfl := Option.some.inj hr
        exact ⟨.vector4, .inr ⟨.meshUV hown (by simpa using hfed), by simp⟩⟩
  | uv hkind => cases hst
  | property hkind hproperty houtput => cases hst
  | @literal c output hkind hproperty houtput =>
    obtain rfl := List.mem_singleton.1 hst
    simp only [Statement.references, reference?_vectorLiteral, Option.toList_none] at hr
    cases hr
  | preview hkind => cases hst
  | surface hkind hinputs =>
    obtain ⟨slot, hslot, rfl⟩ := List.mem_map.1 hst
    simp only [Statement.references, Option.mem_toList] at hr
    obtain ⟨t, ht⟩ := hs.supplied_inputValue hr
    exact ⟨t, .inl ht⟩

end Steps

section Declarations

variable {s : Scope} {f : Fragment}

/-- A node declares its own variable or nothing. -/
theorem Emits.declared (h : Emits s f) :
    ((f.statements.filterMap Statement.declared?).map (·.2)).Sublist [s.node.outputVariable] := by
  cases h with
  | function hkind hinputs houtput => exact List.Sublist.refl _
  | texture hkind hinput houtput => exact List.Sublist.refl _
  | uv hkind => exact List.nil_sublist _
  | property hkind hproperty houtput => exact List.nil_sublist _
  | literal hkind hproperty houtput => exact List.Sublist.refl _
  | preview hkind => exact List.nil_sublist _
  | @surface inputs hkind hinputs =>
    have hnone : (inputs.map fun slot => Statement.assign slot.name
        (s.inputValue slot .zero)).filterMap Statement.declared? = [] := by
      rw [List.filterMap_map, List.filterMap_eq_nil_iff]
      intro slot _
      rfl
    rw [hnone]
    exact List.nil_sublist _

/-- A node has its own property or none. -/
theorem Emits.uniform (h : Emits s f) :
    (f.uniform?.toList.map (·.name)).Sublist [s.node.propertyName] := by
  cases h with
  | function hkind hinputs houtput => exact List.nil_sublist _
  | texture hkind hinput houtput => exact List.Sublist.refl _
  | uv hkind => exact List.nil_sublist _
  | property hkind hproperty houtput => exact List.Sublist.refl _
  | literal hkind hproperty houtput => exact List.nil_sublist _
  | preview hkind => exact List.nil_sublist _
  | surface hkind hinputs => exact List.nil_sublist _

end Declarations

section Types

variable {s : Scope} {f : Fragment} {fs : List Fragment} {q : Program} {p : Precision}

theorem isName_callName (m : MathFunction) : isName m.callName.toList = true := by
  cases m <;> decide

theorem length_argumentNames (m : MathFunction) :
    (NodeKind.argumentNames.take m.arity).length = m.defaults.length ∧ m.defaults ≠ [] := by
  cases m <;> decide

theorem isName_surface {slot : Slot} (h : slot ∈ NodeKind.surfaceOutput.requiredSlots) :
    isName slot.name.toList = true := by
  have hall : ∀ slot ∈ NodeKind.surfaceInputs, isName slot.name.toList = true := by decide
  exact hall slot h

/-- An input has its type, fed or not. -/
theorem Scope.Ready.types_inputValue (hs : s.Ready fs)
    (hq : ∀ r t, Supplied fs r t → q.Types p (.read r) t) {slot : Slot}
    (hslot : slot ∈ s.node.slots) (default : Binary32) :
    q.Types p (s.inputValue slot default) (s.concreteType slot) := by
  have hvector : (s.concreteType slot).isVector = true := hs.resolved.isVector slot hslot
  unfold Scope.inputValue
  cases hfeed : s.feed? slot with
  | none => exact types_vectorLiteral [default] hvector
  | some fed =>
    obtain ⟨e, source⟩ := fed
    have hpublished := hs.feed hfeed
    exact (hpublished.types hq).coerce hpublished.isVector hvector

/-- The coordinates of a sample, from the mesh if nothing is connected. -/
theorem Scope.Ready.types_coordinates (hs : s.Ready fs)
    (hq : ∀ r t, Supplied fs r t → q.Types p (.read r) t) {t : TextureSampler}
    (hkind : s.node.kind = .texture t) {slot : Slot} (hslot : slot ∈ s.node.inputs)
    (hname : slot.name = NodeKind.uvName)
    (hmesh : (s.feed? slot).isSome = false → q.Types p (.read .meshUV) .vector4) :
    s.concreteType slot = .vector2 ∧
      q.Types p
        (if (s.feed? slot).isSome then s.inputValue slot .zero
          else .select (.read .meshUV) (.leading 2)) .vector2 := by
  have hmem := mem_slots_of_inputs hslot
  have hrequired := hs.slots hmem
  rw [hkind] at hrequired
  have htype : slot.type = .fixed .vector2 := by
    simp only [NodeKind.requiredSlots, List.mem_cons, List.not_mem_nil, or_false] at hrequired
    obtain rfl | rfl | rfl | rfl | rfl | rfl := hrequired
    case inr.inr.inr.inr.inr => rfl
    all_goals exact absurd hname (by decide)
  have hconcrete := hs.concreteType_eq hmem htype
  refine ⟨hconcrete, ?_⟩
  by_cases hfed : (s.feed? slot).isSome = true
  · rw [if_pos hfed, ← hconcrete]
    exact hs.types_inputValue hq hmem .zero
  · rw [if_neg hfed]
    have hread := hmesh (by simpa using hfed)
    exact hread.narrow (u := .vector2) rfl (by decide)

/-- What the statements of a node are written with: values for its inputs, the coordinates of the
mesh if the fragment asks for them, and literals. -/
inductive Scope.Builds (s : Scope) (f : Fragment) : Expression → Prop
  | input {slot : Slot} (hslot : slot ∈ s.node.slots) (default : Binary32) :
      Builds s f (s.inputValue slot default)
  | coordinates (huv : f.meshUV = true) : Builds s f (.select (.read .meshUV) (.leading 2))
  | literal (values : List Binary32) {t : ConcreteType} (ht : t.isVector = true) :
      Builds s f (.vectorLiteral values t)

theorem Emits.builds (h : Emits s f) {st : Statement} (hst : st ∈ f.statements) {e : Expression}
    (he : e ∈ st.expressions) : s.Builds f e := by
  cases h with
  | @function m inputs output hkind hinputs houtput =>
    obtain rfl := List.mem_singleton.1 hst
    rw [Statement.expressions, ← List.map_uncurry_zip_eq_zipWith] at he
    obtain ⟨⟨slot, default⟩, hargument, rfl⟩ := List.mem_map.1 he
    obtain ⟨name, -, hslot, -⟩ := exists_left_of_forall₂ hinputs (List.of_mem_zip hargument).1
    exact .input (mem_slots_of_inputs hslot) default
  | @texture t uvSlot output hkind hinput houtput =>
    obtain rfl := List.mem_singleton.1 hst
    obtain rfl := List.mem_singleton.1 he
    by_cases hfed : (s.feed? uvSlot).isSome = true
    · rw [if_pos hfed]
      exact .input (mem_slots_of_inputs hinput.1) .zero
    · rw [if_neg hfed]
      exact .coordinates (by simpa using hfed)
  | uv hkind => cases hst
  | property hkind hproperty houtput => cases hst
  | @literal c output hkind hproperty houtput =>
    obtain rfl := List.mem_singleton.1 hst
    obtain rfl := List.mem_singleton.1 he
    refine .literal c.value.components ?_
    cases c.value <;> rfl
  | preview hkind => cases hst
  | @surface inputs hkind hinputs =>
    obtain ⟨slot, hslot, rfl⟩ := List.mem_map.1 hst
    obtain rfl := List.mem_singleton.1 he
    exact .input (mem_slots_of_inputs (hinputs slot hslot)) .zero

theorem Emits.named (h : Emits s f) (hs : s.Ready fs) {st : Statement} (hst : st ∈ f.statements) :
    st.Named := by
  have hvariable := (isOutputName_outputVariable s.node).isName
  cases h with
  | @function m inputs output hkind hinputs houtput =>
    obtain rfl := List.mem_singleton.1 hst
    obtain ⟨hlength, hdefaults⟩ := length_argumentNames m
    refine ⟨hvariable, isName_callName m, fun hnil => ?_⟩
    rw [List.zipWith_eq_nil_iff] at hnil
    obtain rfl | hnil := hnil
    · rw [hinputs.length_eq] at hlength
      exact hdefaults (List.eq_nil_of_length_eq_zero hlength.symm)
    · exact hdefaults hnil
  | texture hkind hinput houtput =>
    obtain rfl := List.mem_singleton.1 hst
    exact ⟨hvariable, (isPropertyName_propertyName s.node).isName⟩
  | uv hkind => cases hst
  | property hkind hproperty houtput => cases hst
  | literal hkind hproperty houtput =>
    obtain rfl := List.mem_singleton.1 hst
    exact hvariable
  | preview hkind => cases hst
  | @surface inputs hkind hinputs =>
    obtain ⟨slot, hslot, rfl⟩ := List.mem_map.1 hst
    have hrequired := hs.slots (mem_slots_of_inputs (hinputs slot hslot))
    rw [hkind] at hrequired
    exact isName_surface hrequired

theorem Scope.Ready.reads_built (hs : s.Ready fs) (p : Precision) {e : Expression}
    (h : s.Builds f e) : Reads (e.text p).toList (e.term p) := by
  cases h with
  | @input slot hslot default =>
    have hvector : (s.concreteType slot).isVector = true := hs.resolved.isVector slot hslot
    unfold Scope.inputValue
    cases hfeed : s.feed? slot with
    | none => exact reads_vectorLiteral [default] _
    | some fed => exact ((hs.feed hfeed).spelled p).coerce _ hvector
  | coordinates =>
    have hmesh : Spelled p (.read .meshUV) :=
      ⟨reads_meshUV, by simp [Expression.term, Reference.term]⟩
    exact (hmesh.select (by decide)).reads
  | @literal values t ht => exact reads_vectorLiteral values t

/-- Every statement of a node can be read back. -/
theorem Emits.readLine? (h : Emits s f) (hs : s.Ready fs) (p : Precision) {st : Statement}
    (hst : st ∈ f.statements) : readLine? (st.text p) = some (st.line p) :=
  (h.named hs hst).readLine? fun _ he => hs.reads_built p (h.builds hst he)

theorem Scope.Ready.types_built (hs : s.Ready fs)
    (hq : ∀ r t, Supplied (fs ++ [f]) r t → q.Types p (.read r) t) {e : Expression}
    (h : s.Builds f e) : ∃ t, q.Types p e t := by
  cases h with
  | input hslot default =>
    have hearlier : ∀ r t, Supplied fs r t → q.Types p (.read r) t := fun r t hsupplied =>
      hq r t (hsupplied.mono (List.subset_append_left _ _))
    exact ⟨_, hs.types_inputValue hearlier hslot default⟩
  | coordinates huv =>
    have hmesh := hq _ _ (.meshUV (List.mem_append_right fs (List.mem_singleton_self f)) huv)
    exact ⟨_, hmesh.narrow (u := .vector2) rfl (by decide)⟩
  | literal values ht => exact ⟨_, types_vectorLiteral values ht⟩

/-- The expressions of every statement of a node have types. -/
theorem Emits.legible (h : Emits s f) (hs : s.Ready fs)
    (hq : ∀ r t, Supplied (fs ++ [f]) r t → q.Types p (.read r) t) {st : Statement}
    (hst : st ∈ f.statements) : st.Legible q p :=
  st.legible_iff.2 ⟨h.named hs hst, fun _ he => hs.types_built hq (h.builds hst he)⟩

end Types

end ShaderGraph
