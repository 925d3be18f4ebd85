import ShaderGraph.Proofs.Generation.Run
import ShaderGraph.Proofs.Graph.Renaming

/-!
# Shaders under other identities

The names in a shader are numbered by serials, so a graph whose nodes and connections have other
identities yields the same text. A pass over the renamed graph runs in step with one over the graph:
after every node the tables hold the same under the renamed identities.

* `emit_rename`, `publishNode_rename` : one node of both passes;
* `outcomes_rename` : all of them;
* `generate_rename` : the same source and properties, the same errors of the renamed nodes;
* `identities_do_not_matter` : with what the queries of the graph answer.
-/

namespace ShaderGraph

open ShaderGraph.Graph

section Renaming

def NodeError.rename (r : Renaming) (e : NodeError) : NodeError := { e with node := r.node e.node }

def VariableTable.rename (r : Renaming) (t : VariableTable) : VariableTable :=
  ⟨t.entries.map (Prod.map r.slot id)⟩

def Scope.rename (r : Renaming) (s : Scope) : Scope :=
  { s with
    graph := s.graph.rename r
    node := s.node.rename r
    types := s.types.rename r
    published := s.published.rename r }

def Outcome.rename (r : Renaming) (o : Outcome) : Outcome :=
  ⟨o.node.rename r, o.result.mapError (NodeError.rename r)⟩

def GenerationError.rename (r : Renaming) : GenerationError → GenerationError
  | cycle e => cycle (e.rename r)
  | graphTooLarge nodes limit => graphTooLarge nodes limit

/-- The same shader, with the nodes that contributed nothing under their new identities. -/
def Shader.rename (r : Renaming) (s : Shader) : Shader :=
  { s with errors := s.errors.map (NodeError.rename r) }

end Renaming

variable (r : Renaming)

section Emission

variable (s : Scope)

theorem VariableTable.get?_rename (table : VariableTable) (id : NodeId) (slot : String) :
    (table.rename r).get? (r.node id) slot = table.get? id slot :=
  r.lookup_slot id slot table.entries

theorem feed?_rename (slot : Slot) : (s.rename r).feed? slot = s.feed? slot := by
  have hinto : (s.rename r).graph.connectionInto (s.rename r).node.id slot.name =
      (s.graph.connectionInto s.node.id slot.name).map (Connection.rename r) :=
    connectionInto_rename r s.graph s.node.id slot.name
  rw [Scope.feed?, Scope.feed?, hinto, Option.bind_map]
  exact Option.bind_congr fun c _ => VariableTable.get?_rename r s.published c.fromNode c.fromSlot

theorem concreteType_rename : (s.rename r).concreteType = s.concreteType := by
  funext slot
  have hget : (s.rename r).types.get? (s.rename r).node.id slot.name =
      s.types.get? s.node.id slot.name := TypeTable.get?_rename r s.types s.node.id slot.name
  rw [Scope.concreteType, Scope.concreteType, TypeTable.concreteType, TypeTable.concreteType, hget]

theorem inputValue_rename : (s.rename r).inputValue = s.inputValue := by
  funext slot default
  rw [Scope.inputValue, Scope.inputValue, feed?_rename, concreteType_rename]

/-- One computation after the other, with the error of either renamed. -/
theorem bind_mapError {ε α β : Type} {e : ε → ε} {x : Except ε α} {k k' : α → Except ε β}
    (h : ∀ a, k' a = (k a).mapError e) : (x.mapError e >>= k') = (x >>= k).mapError e := by
  cases x with
  | error _ => rfl
  | ok a => exact h a

theorem mapM_mapError {ε α β : Type} {e : ε → ε} {f f' : α → Except ε β}
    (h : ∀ a, f' a = (f a).mapError e) (l : List α) : l.mapM f' = (l.mapM f).mapError e := by
  induction l with
  | nil => rfl
  | cons a l ih =>
    rw [List.mapM_cons, List.mapM_cons, h, ih]
    exact bind_mapError fun b => bind_mapError fun bs => rfl

theorem requireInput_rename (name : String) :
    (s.rename r).requireInput name = (s.requireInput name).mapError (NodeError.rename r) := by
  have hinput : (s.rename r).node.input? name = s.node.input? name := rfl
  rw [Scope.requireInput, Scope.requireInput, hinput]
  cases s.node.input? name <;> rfl

theorem requireOutput_rename (name : String) :
    (s.rename r).requireOutput name = (s.requireOutput name).mapError (NodeError.rename r) := by
  have houtput : (s.rename r).node.output? name = s.node.output? name := rfl
  rw [Scope.requireOutput, Scope.requireOutput, houtput]
  cases s.node.output? name <;> rfl

theorem emitFunction_rename (f : MathFunction) :
    (s.rename r).emitFunction f = (s.emitFunction f).mapError (NodeError.rename r) := by
  have hslots : (s.rename r).functionSlots f =
      (s.functionSlots f).mapError (NodeError.rename r) := by
    rw [Scope.functionSlots, Scope.functionSlots, mapM_mapError (requireInput_rename r s),
      requireOutput_rename]
    exact bind_mapError fun inputs => bind_mapError fun output => rfl
  rw [Scope.emitFunction, Scope.emitFunction, hslots]
  refine bind_mapError fun ⟨inputs, output⟩ => ?_
  simp only [inputValue_rename, concreteType_rename]
  rfl

/-- A node of the renamed graph emits what it emits in the graph, or fails at the same slot. -/
theorem emit_rename : (s.rename r).emit = s.emit.mapError (NodeError.rename r) := by
  have hkind : (s.rename r).node.kind = s.node.kind := rfl
  unfold Scope.emit
  rw [hkind]
  cases s.node.kind with
  | function f => exact emitFunction_rename r s f
  | texture t =>
    simp only [Scope.emitTexture, requireInput_rename, requireOutput_rename, feed?_rename,
      inputValue_rename]
    exact bind_mapError fun uvSlot => bind_mapError fun output => rfl
  | uv =>
    simp only [Scope.emitUV, requireOutput_rename]
    exact bind_mapError fun output => rfl
  | constant c =>
    simp only [Scope.emitConstant, requireOutput_rename]
    refine bind_mapError fun output => ?_
    have hproperty : (s.rename r).isProperty c = s.isProperty c := rfl
    rw [hproperty]
    cases s.isProperty c <;> rfl
  | surfaceOutput =>
    simp only [Scope.emitSurface, mapM_mapError (requireInput_rename r s), feed?_rename,
      inputValue_rename]
    refine bind_mapError fun inputs => ?_
    have hmode : (s.rename r).mode = s.mode := rfl
    rw [hmode]
    cases s.mode <;> rfl

theorem publish_rename : (s.rename r).publish = s.publish.rename r := by
  have hentries : (s.rename r).publish.entries = (s.publish.rename r).entries := by
    rw [entries_publish, VariableTable.rename, entries_publish, List.map_append,
      concreteType_rename, rows, rows, List.map_reverse, List.map_map]
    rfl
  rw [VariableTable.mk.injEq]
  exact hentries

end Emission

section Passes

variable (g : Graph) (mode : Mode)

theorem publishNode_rename (types : TypeTable) (table : VariableTable) (id : NodeId) :
    publishNode (g.rename r) mode (types.rename r) (table.rename r) (r.node id) =
      (publishNode g mode types table id).rename r := by
  rw [publishNode, publishNode, node?_rename]
  cases g.node? id with
  | none => rfl
  | some n =>
    have hemit := emit_rename r ⟨g, n, mode, types, table⟩
    have hpublish := publish_rename r ⟨g, n, mode, types, table⟩
    simp only [Option.map_some]
    rw [Scope.rename] at hemit hpublish
    simp only [hemit, hpublish]
    cases Scope.emit ⟨g, n, mode, types, table⟩ <;> rfl

theorem outcomes_rename (types : TypeTable) (table : VariableTable) (order : List NodeId) :
    outcomes (g.rename r) mode (types.rename r) (table.rename r) (order.map r.node) =
      (outcomes g mode types table order).map (Outcome.rename r) := by
  induction order generalizing table with
  | nil => rfl
  | cons id order ih =>
    have hrest := ih (publishNode g mode types table id)
    rw [← publishNode_rename] at hrest
    rw [List.map_cons]
    cases hn : g.node? id with
    | none =>
      have hn' : (g.rename r).node? (r.node id) = none := by rw [node?_rename, hn, Option.map_none]
      rw [outcomes_cons_of_none hn, outcomes_cons_of_none hn', ih]
    | some n =>
      have hn' : (g.rename r).node? (r.node id) = some (n.rename r) := by
        rw [node?_rename, hn, Option.map_some]
      have hemit := emit_rename r ⟨g, n, mode, types, table⟩
      rw [outcomes_cons_of_some hn, outcomes_cons_of_some hn', hrest, List.map_cons]
      exact congrArg (· :: _) (congrArg (Outcome.mk (n.rename r)) hemit)

theorem fragment?_rename (o : Outcome) : (o.rename r).fragment? = o.fragment? := by
  obtain ⟨n, result⟩ := o
  cases result <;> rfl

theorem error?_rename (o : Outcome) : (o.rename r).error? = o.error?.map (NodeError.rename r) := by
  obtain ⟨n, result⟩ := o
  cases result <;> rfl

/-- The outcomes of the renamed graph are those of the graph; the sections are the same. -/
theorem runPass_rename (settings : Settings) :
    runPass (g.rename r) mode settings =
      ((runPass g mode settings).map fun p => ⟨p.outcomes.map (Outcome.rename r), p.sink⟩).mapError
        (GenerationError.rename r) := by
  rw [runPass, runPass, nodeCount_rename, topologicalOrder_rename]
  by_cases hlimit : settings.maxNodes < g.nodeCount
  · rw [if_pos hlimit, if_pos hlimit]
    rfl
  · rw [if_neg hlimit, if_neg hlimit]
    cases g.topologicalOrder with
    | error e => rfl
    | ok order =>
      have hrun := outcomes_rename r g mode (g.resolveTypes order) .empty order
      have hempty : VariableTable.empty.rename r = .empty := rfl
      rw [← resolveTypes_rename, hempty] at hrun
      have hfragments : ((outcomes g mode (g.resolveTypes order) .empty order).map
            (Outcome.rename r)).filterMap (·.fragment?) =
          (outcomes g mode (g.resolveTypes order) .empty order).filterMap (·.fragment?) := by
        rw [List.filterMap_map]
        exact List.filterMap_congr fun o _ => fragment?_rename r o
      simp only [Except.map, Except.mapError, hrun, hfragments]

/-- The renamed graph has the same source and properties. What names a node names it under its new
identity: the errors of the nodes, and a cycle. -/
theorem generate_rename (settings : Settings) :
    generate (g.rename r) mode settings =
      ((generate g mode settings).map (Shader.rename r)).mapError (GenerationError.rename r) := by
  rw [generate, generate, runPass_rename]
  cases runPass g mode settings with
  | error e => rfl
  | ok pass =>
    have herrors : (pass.outcomes.map (Outcome.rename r)).filterMap (·.error?) =
        pass.errors.map (NodeError.rename r) := by
      rw [List.filterMap_map, Pass.errors, List.map_filterMap]
      exact List.filterMap_congr fun o _ => error?_rename r o
    exact congrArg (fun errors => Except.ok (Shader.mk _ _ errors)) herrors

end Passes

/-- Nothing depends on the identities of nodes and connections but which of them are equal. -/
theorem identities_do_not_matter (r : Renaming) (g : Graph) (mode : Mode) (settings : Settings) :
    generate (g.rename r) mode settings =
        ((generate g mode settings).map (Shader.rename r)).mapError (GenerationError.rename r) ∧
      (g.rename r).topologicalOrder =
        (g.topologicalOrder.map (List.map r.node)).mapError (CycleError.rename r) ∧
      (g.rename r).validate = g.validate.mapError (ConnectionError.rename r) ∧
      ∀ order : List NodeId,
        (g.rename r).resolveTypes (order.map r.node) = (g.resolveTypes order).rename r :=
  ⟨generate_rename r g mode settings, topologicalOrder_rename r g, validate_rename r g,
    resolveTypes_rename r g⟩

end ShaderGraph
