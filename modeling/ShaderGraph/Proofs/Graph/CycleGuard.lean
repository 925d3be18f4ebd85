import ShaderGraph.Proofs.Graph.Configuring
import ShaderGraph.Proofs.Graph.TopologicalOrder

/-!
# The cycle guard

`wouldCreateCycle` searches the nodes that one node depends on. The bound on its steps counts the
nodes still to be searched and the connections into nodes not searched yet, so it is never met.

* `wouldCreateCycle_iff_reaches` : the guard answers whether there is a path, for every graph;
* `GuardedStep` : an edit of a graph, with connections made only where the guard sees no cycle;
* `acyclic_of_guardedRun` : no run of such edits makes a cycle.
-/

namespace ShaderGraph.Graph

open Relation

variable {g g' : Graph}

section Search

variable {goal : NodeId} {visited waiting : List NodeId} {fuel : ℕ}

/-- How many connections run into nodes that were not searched. -/
def openInputs (g : Graph) (visited : List NodeId) : ℕ :=
  g.connections.values.countP (·.toNode ∉ visited)

theorem openInputs_cons {id : NodeId} (h : id ∉ visited) :
    g.openInputs (id :: visited) + g.connections.values.countP (·.toNode = id) =
      g.openInputs visited := by
  unfold openInputs
  induction g.connections.values with
  | nil => rfl
  | cons c l ih =>
    simp only [List.countP_cons, List.mem_cons, not_or] at ih ⊢
    by_cases hc : c.toNode = id
    · simp [hc, h] at ih ⊢
      omega
    · simp [hc] at ih ⊢
      omega

theorem length_eraseDups_le (l : List NodeId) : l.eraseDups.length ≤ l.length := by
  induction hn : l.length using Nat.strong_induction_on generalizing l with
  | _ n ih =>
    cases l with
    | nil => simp
    | cons a l =>
      rw [List.eraseDups_cons, List.length_cons]
      have hlen := List.length_filter_le (fun b => !b == a) l
      rw [List.length_cons] at hn
      have := ih _ (by omega) (l.filter fun b => !b == a) rfl
      omega

theorem length_dependencies_le (g : Graph) (id : NodeId) :
    (g.dependencies id).length ≤ g.connections.values.countP (·.toNode = id) := by
  refine le_trans (length_eraseDups_le _) ?_
  rw [List.length_map, List.countP_eq_length_filter]

/-- A path up to a node that was not searched leaves the searched ones through a waiting one. -/
theorem exists_waiting_of_reaches (hgoal : goal ∉ visited)
    (hclosed : ∀ b ∈ visited, ∀ a, g.Feeds a b → a ∈ visited ∨ a ∈ waiting) {b : NodeId}
    (hb : b ∈ visited) (hreach : ReflTransGen g.Feeds goal b) :
    ∃ w ∈ waiting, ReflTransGen g.Feeds goal w := by
  induction hreach with
  | refl => exact absurd hb hgoal
  | @tail a b hgoal_a hab ih =>
    rcases hclosed b hb a hab with ha | ha
    · exact ih ha
    · exact ⟨a, ha, hgoal_a⟩

/-- The search, by induction on the bound of its steps. -/
theorem search_iff (hgoal : goal ∉ visited)
    (hclosed : ∀ b ∈ visited, ∀ a, g.Feeds a b → a ∈ visited ∨ a ∈ waiting)
    (hfuel : waiting.length + g.openInputs visited ≤ fuel) :
    search g goal fuel visited waiting = true ↔
      ∃ w ∈ waiting, ReflTransGen g.Feeds goal w := by
  induction fuel generalizing visited waiting with
  | zero =>
    obtain rfl : waiting = [] := List.eq_nil_of_length_eq_zero (by omega)
    simp [search]
  | succ fuel ih =>
    cases waiting with
    | nil => simp [search]
    | cons id waiting =>
      rw [search]
      rw [List.length_cons] at hfuel
      split_ifs with hid hvis
      · subst hid
        exact ⟨fun _ => ⟨id, List.mem_cons_self, ReflTransGen.refl⟩, fun _ => rfl⟩
      · have hclosed' : ∀ b ∈ visited, ∀ a, g.Feeds a b → a ∈ visited ∨ a ∈ waiting := by
          intro b hb a hab
          rcases hclosed b hb a hab with ha | ha
          · exact Or.inl ha
          · rcases List.mem_cons.1 ha with rfl | ha
            · exact Or.inl hvis
            · exact Or.inr ha
        rw [ih hgoal hclosed' (by omega)]
        constructor
        · rintro ⟨w, hw, hreach⟩
          exact ⟨w, List.mem_cons_of_mem _ hw, hreach⟩
        · rintro ⟨w, hw, hreach⟩
          rcases List.mem_cons.1 hw with rfl | hw
          · exact exists_waiting_of_reaches hgoal hclosed' hvis hreach
          · exact ⟨w, hw, hreach⟩
      · have hclosed' : ∀ b ∈ id :: visited, ∀ a, g.Feeds a b →
            a ∈ id :: visited ∨ a ∈ g.dependencies id ++ waiting := by
          intro b hb a hab
          rcases List.mem_cons.1 hb with rfl | hb
          · exact Or.inr (List.mem_append_left _ (mem_dependencies.2 hab))
          · rcases hclosed b hb a hab with ha | ha
            · exact Or.inl (List.mem_cons_of_mem _ ha)
            · rcases List.mem_cons.1 ha with rfl | ha
              · exact Or.inl List.mem_cons_self
              · exact Or.inr (List.mem_append_right _ ha)
        have hgoal' : goal ∉ id :: visited := by
          rw [List.mem_cons, not_or]
          exact ⟨Ne.symm hid, hgoal⟩
        have hfuel' :
            (g.dependencies id ++ waiting).length + g.openInputs (id :: visited) ≤ fuel := by
          have hdeps := g.length_dependencies_le id
          have hopen := openInputs_cons (g := g) hvis
          rw [List.length_append]
          omega
        rw [ih hgoal' hclosed' hfuel']
        constructor
        · rintro ⟨w, hw, hreach⟩
          rcases List.mem_append.1 hw with hw | hw
          · exact ⟨id, List.mem_cons_self, hreach.tail (mem_dependencies.1 hw)⟩
          · exact ⟨w, List.mem_cons_of_mem _ hw, hreach⟩
        · rintro ⟨w, hw, hreach⟩
          rcases List.mem_cons.1 hw with rfl | hw
          · rcases ReflTransGen.cases_tail hreach with rfl | ⟨d, hgoal_d, hd⟩
            · exact absurd rfl hid
            · exact ⟨d, List.mem_append_left _ (mem_dependencies.2 hd), hgoal_d⟩
          · exact ⟨w, List.mem_append_right _ hw, hreach⟩

theorem wouldCreateCycle_iff_reaches (g : Graph) (source target : NodeId) :
    g.wouldCreateCycle source target = true ↔ ReflTransGen g.Feeds target source := by
  have hfuel : [source].length + g.openInputs [] ≤ g.connectionCount + 1 := by
    simp [openInputs, connectionCount, OrderedMap.values, OrderedMap.size, Nat.add_comm]
  rw [wouldCreateCycle, search_iff (by simp) (by simp) hfuel]
  simp

end Search

section NewEdge

variable {α : Type} {r : α → α → Prop} {s t a b : α}

/-- A path over one more edge is an old path, or it comes to the edge and goes on from it. -/
theorem transGen_or_through (h : TransGen (fun a b => r a b ∨ (a = s ∧ b = t)) a b) :
    TransGen r a b ∨ (ReflTransGen r a s ∧ ReflTransGen r t b) := by
  induction h with
  | single hab =>
    rcases hab with hab | ⟨rfl, rfl⟩
    · exact Or.inl (TransGen.single hab)
    · exact Or.inr ⟨ReflTransGen.refl, ReflTransGen.refl⟩
  | tail _ hbc ih =>
    rcases hbc with hbc | ⟨rfl, rfl⟩
    · rcases ih with hab | ⟨has, htb⟩
      · exact Or.inl (hab.tail hbc)
      · exact Or.inr ⟨has, htb.tail hbc⟩
    · rcases ih with hab | ⟨has, -⟩
      · exact Or.inr ⟨hab.to_reflTransGen, ReflTransGen.refl⟩
      · exact Or.inr ⟨has, ReflTransGen.refl⟩

end NewEdge

section Connect

variable {c : Connection}

/-- A connection that the guard lets in closes no cycle. -/
theorem Acyclic.connect (hg : g.Acyclic) (hguard : g.wouldCreateCycle c.fromNode c.toNode = false)
    (h : g.connect c = .ok g') : g'.Acyclic := by
  intro n hn
  have hnew := TransGen.mono (fun a b hab => feeds_of_connect h hab) n n hn
  rcases transGen_or_through hnew with hold | ⟨hsource, htarget⟩
  · exact hg n hold
  · have hback := (wouldCreateCycle_iff_reaches g c.fromNode c.toNode).2 (htarget.trans hsource)
    rw [hguard] at hback
    cases hback

/-- A connection that the guard warns of closes a cycle through the node it ends at. -/
theorem no_topologicalOrder_of_connect (hguard : g.wouldCreateCycle c.fromNode c.toNode = true)
    (hfresh : g.connection? c.id = none) (h : g.connect c = .ok g') (order : List NodeId) :
    g'.topologicalOrder ≠ .ok order := by
  intro horder
  have hback := (wouldCreateCycle_iff_reaches g c.fromNode c.toNode).1 hguard
  have hback' : ReflTransGen g'.Feeds c.toNode c.fromNode :=
    ReflTransGen.mono (fun a b hab => feeds_old_of_connect h hfresh hab) _ _ hback
  have hkey : c.toNode ∈ g'.nodes.keys := by
    obtain ⟨hfits, -, -, rfl⟩ := connect_eq_ok_iff.1 h
    exact hfits.mem_keys.2
  exact irrefl_of_topologicalOrder horder hkey (TransGen.tail' hback' (feeds_new_of_connect h))

end Connect

section Runs

/-- One edit of a graph. Connections are made only where the guard sees no cycle; an edit that is
refused leaves the graph as it is. -/
inductive GuardedStep : Graph → Graph → Prop
  | addNode (g : Graph) (n : Node) : GuardedStep g (g.addNode n)
  | removeNode (g : Graph) (id : NodeId) : GuardedStep g (g.removeNode id)
  | disconnect (g : Graph) (id : ConnectionId) : GuardedStep g (g.disconnect id)
  | configureNode {g g' : Graph} {id : NodeId} {configure : NodeKind → NodeKind}
      {report : Reconfiguration} (h : g.configureNode id configure = some (g', report)) :
      GuardedStep g g'
  | connect {g g' : Graph} {c : Connection}
      (hguard : g.wouldCreateCycle c.fromNode c.toNode = false) (h : g.connect c = .ok g') :
      GuardedStep g g'

theorem Acyclic.of_subset (hg : g.Acyclic)
    (h : ∀ c ∈ g'.connections.values, c ∈ g.connections.values) : g'.Acyclic := by
  refine hg.mono ?_
  rintro a b ⟨c, hc, hab⟩
  exact ⟨c, h c hc, hab⟩

/-- One edit keeps a graph free of cycles. -/
theorem GuardedStep.acyclic (h : GuardedStep g g') (hg : g.Acyclic) : g'.Acyclic := by
  cases h with
  | addNode n => exact hg
  | removeNode id => exact hg.of_subset fun c hc => OrderedMap.mem_values_of_mem_filter hc
  | disconnect id => exact hg.of_subset fun c hc => OrderedMap.mem_values_of_mem_filter hc
  | configureNode h =>
    obtain ⟨-, -, -, hkept, -⟩ := exists_of_configureNode h
    exact hg.of_subset fun c hc => (hkept.map Prod.snd).subset hc
  | connect hguard h => exact hg.connect hguard h

/-- So does a run of edits. -/
theorem acyclic_of_guardedRun (h : ReflTransGen GuardedStep g g') (hg : g.Acyclic) :
    g'.Acyclic := by
  induction h with
  | refl => exact hg
  | tail _ hstep ih => exact hstep.acyclic ih

/-- **The cycle guard is exact and sufficient.** It answers whether the nodes are equal or a path of
connections leads back; after a connection is made under an identity of its own there is an order
exactly if the guard saw no cycle; and no run of guarded edits loses the order. -/
theorem cycle_guard_exact_and_sufficient :
    (∀ (g : Graph) (source target : NodeId), g.wouldCreateCycle source target = true ↔
      source = target ∨ TransGen g.Feeds target source) ∧
    (∀ (g g' : Graph) (c : Connection), g.Acyclic → g.connection? c.id = none →
      g.connect c = .ok g' → ((∃ order, g'.topologicalOrder = .ok order) ↔
        g.wouldCreateCycle c.fromNode c.toNode = false)) ∧
    (∀ g g' : Graph, g.Acyclic → ReflTransGen GuardedStep g g' →
      ∃ order, g'.topologicalOrder = .ok order) := by
  refine ⟨fun g source target => ?_, fun g g' c hg hfresh h => ?_, fun g g' hg hrun => ?_⟩
  · rw [wouldCreateCycle_iff_reaches, reflTransGen_iff_eq_or_transGen]
  · constructor
    · rintro ⟨order, horder⟩
      by_contra hguard
      exact no_topologicalOrder_of_connect (Bool.of_not_eq_false hguard) hfresh h order horder
    · intro hguard
      exact exists_topologicalOrder_of_acyclic (hg.connect hguard h)
  · exact exists_topologicalOrder_of_acyclic (acyclic_of_guardedRun hrun hg)

/-- The loop opened again: the guard warns of the connection that would close it, which is made all
the same when asked for, and lets in one that runs forward. -/
theorem cycle_guard_loopGraph :
    let opened := loopGraph.disconnect ⟨.ofNat 3⟩
    let back : Connection := ⟨⟨.ofNat 7⟩, ⟨.ofNat 2⟩, "Output", ⟨.ofNat 1⟩, "Input2"⟩
    let forth : Connection := ⟨⟨.ofNat 8⟩, ⟨.ofNat 3⟩, "Output", ⟨.ofNat 4⟩, "Input1"⟩
    let added := opened.addNode (.ofKind ⟨.ofNat 4⟩ (.function .sin))
    opened.Acyclic ∧ TransGen opened.Feeds ⟨.ofNat 1⟩ ⟨.ofNat 2⟩ ∧
      (∃ g, opened.connect back = .ok g ∧ ¬ ∃ order, g.topologicalOrder = .ok order) ∧
      ∃ g, added.connect forth = .ok g ∧ ∃ order, g.topologicalOrder = .ok order := by
  intro opened back forth added
  obtain ⟨hexact, hconnect, hrun⟩ := cycle_guard_exact_and_sufficient
  have hacyclic : opened.Acyclic := by
    have hjoined : opened.Joined := by unfold Joined; decide
    have horder : opened.topologicalOrder = .ok [⟨.ofNat 1⟩, ⟨.ofNat 2⟩, ⟨.ofNat 3⟩] := by rfl
    exact hjoined.acyclic_of_topologicalOrder horder
  have hwarned : opened.wouldCreateCycle ⟨.ofNat 2⟩ ⟨.ofNat 1⟩ = true := by rfl
  refine ⟨hacyclic, ?_, ?_, ?_⟩
  · exact ((hexact opened _ _).1 hwarned).resolve_left (by decide)
  · refine ⟨_, rfl, fun horder => ?_⟩
    have hfree := (hconnect opened _ back hacyclic rfl rfl).1 horder
    rw [hwarned] at hfree
    cases hfree
  · have hadd : GuardedStep opened added := .addNode opened _
    have hguard : added.wouldCreateCycle ⟨.ofNat 3⟩ ⟨.ofNat 4⟩ = false := by rfl
    refine ⟨_, rfl, hrun opened _ hacyclic ((ReflTransGen.single hadd).tail ?_)⟩
    exact GuardedStep.connect (c := forth) hguard rfl

end Runs

end ShaderGraph.Graph
