import Mathlib.Data.List.Nodup
import Mathlib.Data.List.Perm.Subperm
import ShaderGraph.Graph.Order
import ShaderGraph.Proofs.Graph.Dependency

/-!
# The topological order is an order of the dependencies, or a cycle

The search keeps its finished nodes closed under dependencies (`Graph.Finished`) and its path a
chain of feeding nodes (`Graph.Searching`). A path that is a chain of distinct nodes is no longer
than there are connections, so the bound on the depth of the search is never met.

* `visit_spec` : what one visit gives back;
* `topologicalOrder_spec` : what the whole search gives back, for every graph;
* `forall_mem_of_topologicalOrder` : induction along the order;
* `topologicalOrder_sound_and_complete` : the result where connections join nodes of the graph.
-/

namespace ShaderGraph.Graph

open Relation

variable {g : Graph} {id : NodeId} {path finished : List NodeId} {fuel : ℕ}

section Finished

/-- Distinct nodes, each with all nodes that feed it further back in the list. -/
def Finished (g : Graph) : List NodeId → Prop
  | [] => True
  | n :: rest => n ∉ rest ∧ (∀ d, g.Feeds d n → d ∈ rest) ∧ Finished g rest

theorem Finished.nodup {l : List NodeId} (h : g.Finished l) : l.Nodup := by
  induction l with
  | nil => exact List.nodup_nil
  | cons n rest ih => exact List.nodup_cons.2 ⟨h.1, ih h.2.2⟩

theorem Finished.mem_of_feeds {l : List NodeId} (h : g.Finished l) {a b : NodeId} (hb : b ∈ l)
    (hab : g.Feeds a b) : a ∈ l := by
  induction l with
  | nil => simp at hb
  | cons n rest ih =>
    rcases List.mem_cons.1 hb with rfl | hb
    · exact List.mem_cons_of_mem _ (h.2.1 a hab)
    · exact List.mem_cons_of_mem _ (ih h.2.2 hb)

theorem Finished.mem_of_reaches {l : List NodeId} (h : g.Finished l) {a b : NodeId} (hb : b ∈ l)
    (hab : ReflTransGen g.Feeds a b) : a ∈ l := by
  induction hab using ReflTransGen.head_induction_on with
  | refl => exact hb
  | head hac _ ih => exact h.mem_of_feeds ih hac

/-- What holds of a node once it holds of the nodes that feed it, holds of all finished nodes. -/
theorem Finished.forall_mem {P : NodeId → Prop} {l : List NodeId} (h : g.Finished l)
    (hstep : ∀ n ∈ l, (∀ m, g.Feeds m n → P m) → P n) : ∀ n ∈ l, P n := by
  induction l with
  | nil => simp
  | cons n rest ih =>
    have hrest := ih h.2.2 fun m hm => hstep m (List.mem_cons_of_mem n hm)
    refine List.forall_mem_cons.2 ⟨?_, hrest⟩
    exact hstep n List.mem_cons_self fun m hfeeds => hrest m (h.2.1 m hfeeds)

/-- A finished node is on no cycle. -/
theorem Finished.irrefl {l : List NodeId} (h : g.Finished l) {n : NodeId} (hn : n ∈ l) :
    ¬ TransGen g.Feeds n n := by
  induction l with
  | nil => simp at hn
  | cons m rest ih =>
    intro hcycle
    rcases List.mem_cons.1 hn with rfl | hn
    · obtain ⟨d, hreach, hfeeds⟩ := TransGen.tail'_iff.1 hcycle
      exact h.1 (h.2.2.mem_of_reaches (h.2.1 d hfeeds) hreach)
    · exact ih h.2.2 hn hcycle

/-- A feeding node stands before the node it feeds, once the newest node is put last. -/
theorem Finished.idxOf_reverse_lt {l : List NodeId} (h : g.Finished l) {a b : NodeId} (hb : b ∈ l)
    (hab : g.Feeds a b) : l.reverse.idxOf a < l.reverse.idxOf b := by
  induction l with
  | nil => simp at hb
  | cons n rest ih =>
    rw [List.reverse_cons]
    by_cases hbr : b ∈ rest
    · have har : a ∈ rest := h.2.2.mem_of_feeds hbr hab
      rw [List.idxOf_append_of_mem (List.mem_reverse.2 har),
        List.idxOf_append_of_mem (List.mem_reverse.2 hbr)]
      exact ih h.2.2 hbr
    · obtain rfl : b = n := (List.mem_cons.1 hb).resolve_right hbr
      have har : a ∈ rest.reverse := List.mem_reverse.2 (h.2.1 a hab)
      rw [List.idxOf_append_of_mem har,
        List.idxOf_append_of_notMem (fun hm => hbr (List.mem_reverse.1 hm))]
      have hlt := List.idxOf_lt_length_of_mem har
      omega

/-- In a list of feeding nodes first, the nodes that feed one stand before it. -/
theorem Finished.mem_before {before after : List NodeId} {a b : NodeId}
    (h : g.Finished (before ++ b :: after).reverse) (hab : g.Feeds a b) : a ∈ before := by
  have hcut : ∀ newer older, g.Finished (newer ++ b :: older) → a ∈ older := by
    intro newer older hl
    induction newer with
    | nil => exact hl.2.1 a hab
    | cons n newer ih => exact ih hl.2.2
  rw [List.reverse_append, List.reverse_cons, List.append_assoc] at h
  exact List.mem_reverse.1 (hcut _ _ h)

/-- Distinct nodes, each with all that feed it at an earlier place. -/
theorem finished_reverse {l : List NodeId} (hnodup : l.Nodup)
    (hbefore : ∀ a, ∀ b ∈ l, g.Feeds a b → l.idxOf a < l.idxOf b) : g.Finished l.reverse := by
  induction l using List.reverseRecOn with
  | nil => trivial
  | append_singleton l n ih =>
    rw [List.nodup_append] at hnodup
    have hn : n ∉ l := fun hmem => hnodup.2.2 n hmem n (List.mem_singleton_self n) rfl
    -- what stands before a place in the whole list stands there in the list without its end
    have hmem : ∀ a, ∀ b ∈ l ++ [n], g.Feeds a b → a ∈ l := by
      intro a b hb hab
      by_contra ha
      have hlt := hbefore a b hb hab
      have hle := List.idxOf_lt_length_of_mem hb
      rw [List.idxOf_append_of_notMem ha] at hlt
      rw [List.length_append, List.length_singleton] at hle
      omega
    rw [List.reverse_append, List.reverse_singleton, List.singleton_append]
    refine ⟨fun h => hn (List.mem_reverse.1 h), fun a ha => List.mem_reverse.2 ?_, ?_⟩
    · exact hmem a n (by simp) ha
    · refine ih hnodup.1 fun a b hb hab => ?_
      have hb' : b ∈ l ++ [n] := List.mem_append_left _ hb
      have hlt := hbefore a b hb' hab
      rwa [List.idxOf_append_of_mem (hmem a b hb' hab), List.idxOf_append_of_mem hb] at hlt

end Finished

section Path

/-- A path of distinct nodes, each feeding the next, is no longer than there are connections. -/
theorem length_le_connectionCount (hchain : (id :: path).IsChain g.Feeds) (hpath : path.Nodup) :
    path.length ≤ g.connectionCount := by
  have hfed : ∀ (l : List NodeId) (a : NodeId), (a :: l).IsChain g.Feeds →
      l ⊆ g.connections.values.map (·.toNode) := by
    intro l
    induction l with
    | nil => simp
    | cons b rest ih =>
      intro a hl
      obtain ⟨⟨c, hc, -, hcb⟩, hrest⟩ := List.isChain_cons_cons.1 hl
      exact List.cons_subset.2 ⟨List.mem_map.2 ⟨c, hc, hcb⟩, ih b hrest⟩
  have hlen := (List.subperm_of_subset hpath (hfed path id hchain)).length_le
  simpa [connectionCount, OrderedMap.values, OrderedMap.size] using hlen

theorem exists_eq_takeWhile_append {l : List NodeId} (h : id ∈ l) :
    ∃ rest, l = l.takeWhile (· ≠ id) ++ id :: rest := by
  induction l with
  | nil => simp at h
  | cons n l ih =>
    by_cases hn : n = id
    · exact ⟨l, by simp [hn]⟩
    · obtain ⟨rest, hrest⟩ := ih ((List.mem_cons.1 h).resolve_left (Ne.symm hn))
      refine ⟨rest, ?_⟩
      rw [List.takeWhile_cons_of_pos (by simpa using hn), List.cons_append, ← hrest]

theorem not_mem_takeWhile_ne (id : NodeId) (l : List NodeId) : id ∉ l.takeWhile (· ≠ id) := by
  induction l with
  | nil => simp
  | cons n l ih =>
    by_cases hn : n = id
    · simp [hn]
    · rw [List.takeWhile_cons_of_pos (by simpa using hn), List.mem_cons, not_or]
      exact ⟨Ne.symm hn, ih⟩

/-- A node that is met again on the search path closes a cycle. -/
theorem isCycle_cycleAt (hchain : (id :: path).IsChain g.Feeds) (hpath : path.Nodup)
    (hid : id ∈ path) : g.IsCycle (cycleAt id path).nodes := by
  -- the path is `pre`, then `id`, then what was met before it
  obtain ⟨rest, hsplit⟩ := exists_eq_takeWhile_append hid
  have hnot := not_mem_takeWhile_ne id path
  unfold cycleAt
  generalize path.takeWhile (· ≠ id) = pre at hsplit hnot ⊢
  subst hsplit
  have hloop : (id :: pre ++ [id]).IsChain g.Feeds := hchain.prefix ⟨rest, by simp⟩
  have hround : ((id :: pre.reverse) ++ [id]).IsChain fun a b => g.Feeds b a := by
    simpa using List.isChain_reverse.2 hloop
  obtain ⟨hfed, -, hlast⟩ := List.isChain_append.1 hround
  refine ⟨by simp, ?_, hfed, ?_⟩
  · have hpre := (List.nodup_append.1 hpath).1
    exact List.nodup_cons.2 ⟨fun h => hnot (List.mem_reverse.1 h), List.nodup_reverse.2 hpre⟩
  · exact hlast _ (List.getLast?_eq_some_getLast (by simp)) id rfl

end Path

section Search

/-- What every visit starts from. -/
structure Searching (g : Graph) (fuel : ℕ) (path finished : List NodeId) : Prop where
  nodup : path.Nodup
  bound : g.connectionCount + 2 ≤ fuel + path.length
  closed : g.Finished finished
  apart : ∀ n ∈ path, n ∉ finished

/-- What a search for some nodes gives back: a cycle, or more finished nodes, these nodes among them
and none that is not needed for them. -/
def Found (g : Graph) (path finished ids : List NodeId) :
    Except CycleError (List NodeId) → Prop
  | .error e => g.IsCycle e.nodes
  | .ok finished' =>
    g.Finished finished' ∧ (∀ n ∈ path, n ∉ finished') ∧ finished ⊆ finished' ∧ ids ⊆ finished' ∧
      ∀ n ∈ finished', n ∈ finished ∨ ∃ m ∈ ids, ReflTransGen g.Feeds n m

/-- A search for several nodes, one after the other. -/
theorem found_foldlM (ids : List NodeId) (hs : g.Searching fuel path finished)
    (hvisit : ∀ n ∈ ids, ∀ finished, g.Searching fuel path finished →
      g.Found path finished [n] (visit g fuel path finished n)) :
    g.Found path finished ids (ids.foldlM (visit g fuel path) finished) := by
  induction ids generalizing finished with
  | nil => exact ⟨hs.closed, hs.apart, List.Subset.refl _, by simp, fun n hn => Or.inl hn⟩
  | cons m ids ih =>
    rw [List.foldlM_cons]
    have hm := hvisit m List.mem_cons_self finished hs
    cases hv : visit g fuel path finished m with
    | error e => rwa [hv] at hm
    | ok finished₁ =>
      rw [hv] at hm
      obtain ⟨hfin₁, hapart₁, hsub₁, hmem₁, hneed₁⟩ := hm
      have hrest := ih ⟨hs.nodup, hs.bound, hfin₁, hapart₁⟩
        fun n hn => hvisit n (List.mem_cons_of_mem _ hn)
      show g.Found path finished (m :: ids) (ids.foldlM (visit g fuel path) finished₁)
      cases hf : ids.foldlM (visit g fuel path) finished₁ with
      | error e => rwa [hf] at hrest
      | ok finished₂ =>
        rw [hf] at hrest
        obtain ⟨hfin₂, hapart₂, hsub₂, hmem₂, hneed₂⟩ := hrest
        refine ⟨hfin₂, hapart₂, List.Subset.trans hsub₁ hsub₂, ?_, ?_⟩
        · exact List.cons_subset.2 ⟨hsub₂ (hmem₁ List.mem_cons_self), hmem₂⟩
        · intro n hn
          rcases hneed₂ n hn with hn | ⟨k, hk, hnk⟩
          · rcases hneed₁ n hn with hn | ⟨k, hk, hnk⟩
            · exact Or.inl hn
            · exact Or.inr ⟨k, by simp [List.mem_singleton.1 hk], hnk⟩
          · exact Or.inr ⟨k, List.mem_cons_of_mem _ hk, hnk⟩

/-- A visit at the end of a path of feeding nodes, by induction on the bound of its depth. -/
theorem visit_spec (hs : g.Searching fuel path finished) (hchain : (id :: path).IsChain g.Feeds) :
    g.Found path finished [id] (visit g fuel path finished id) := by
  induction fuel generalizing path finished id with
  | zero =>
    have hlen := length_le_connectionCount hchain hs.nodup
    have hbound := hs.bound
    omega
  | succ fuel ih =>
    rw [visit]
    split_ifs with hfin hpath
    · exact ⟨hs.closed, hs.apart, List.Subset.refl _, by simpa using hfin, fun n hn => Or.inl hn⟩
    · exact isCycle_cycleAt hchain hs.nodup hpath
    · have hs' : g.Searching fuel (id :: path) finished := by
        refine ⟨List.nodup_cons.2 ⟨hpath, hs.nodup⟩, ?_, hs.closed, ?_⟩
        · have hbound := hs.bound
          rw [List.length_cons]
          omega
        · exact List.forall_mem_cons.2 ⟨hfin, hs.apart⟩
      have hdeps := found_foldlM (g.dependencies id) hs' fun n hn _ hsn =>
        ih hsn (List.isChain_cons_cons.2 ⟨mem_dependencies.1 hn, hchain⟩)
      cases hf : (g.dependencies id).foldlM (visit g fuel (id :: path)) finished with
      | error e => rwa [hf] at hdeps
      | ok finished' =>
        rw [hf] at hdeps
        obtain ⟨hfin', hapart', hsub, hmem, hneed⟩ := hdeps
        have hid : id ∉ finished' := hapart' id List.mem_cons_self
        refine ⟨⟨hid, fun d hd => hmem (mem_dependencies.2 hd), hfin'⟩, ?_, ?_, by simp, ?_⟩
        · intro n hn hmem'
          rcases List.mem_cons.1 hmem' with rfl | hn'
          · exact hpath hn
          · exact hapart' n (List.mem_cons_of_mem _ hn) hn'
        · exact fun n hn => List.mem_cons_of_mem _ (hsub hn)
        · intro n hn
          rcases List.mem_cons.1 hn with rfl | hn
          · exact Or.inr ⟨n, by simp, ReflTransGen.refl⟩
          · rcases hneed n hn with hn | ⟨d, hd, hnd⟩
            · exact Or.inl hn
            · exact Or.inr ⟨id, by simp, hnd.tail (mem_dependencies.1 hd)⟩

/-- The whole search, for every graph: a cycle, or the nodes that the graph's nodes need, each after
all that feed it. -/
theorem topologicalOrder_spec (g : Graph) :
    match g.topologicalOrder with
    | .error e => g.IsCycle e.nodes
    | .ok order => g.Finished order.reverse ∧ g.nodes.keys ⊆ order ∧
        ∀ n ∈ order, ∃ k ∈ g.nodes.keys, ReflTransGen g.Feeds n k := by
  have hs : g.Searching (g.connectionCount + 2) [] [] :=
    ⟨List.nodup_nil, by simp, trivial, by simp⟩
  have hfound := found_foldlM g.nodes.keys hs fun n _ _ hsn => visit_spec hsn (.singleton n)
  unfold topologicalOrder
  cases hf : g.nodes.keys.foldlM (visit g (g.connectionCount + 2) []) [] with
  | error e => rwa [hf] at hfound
  | ok finished =>
    rw [hf] at hfound
    obtain ⟨hfin, -, -, hmem, hneed⟩ := hfound
    refine ⟨by rwa [List.reverse_reverse], fun n hn => List.mem_reverse.2 (hmem hn), ?_⟩
    intro n hn
    exact (hneed n (List.mem_reverse.1 hn)).resolve_left (by simp)

end Search

section Congruence

variable {g' : Graph}

theorem visit_congr (h : g'.connections = g.connections) (fuel : ℕ) (path finished : List NodeId)
    (id : NodeId) : visit g' fuel path finished id = visit g fuel path finished id := by
  induction fuel generalizing path finished id with
  | zero => rfl
  | succ fuel ih =>
    have hdependencies : g'.dependencies id = g.dependencies id := by
      rw [dependencies, dependencies, h]
    have hvisit : visit g' fuel (id :: path) = visit g fuel (id :: path) :=
      funext fun finished => funext fun id' => ih (id :: path) finished id'
    rw [visit, visit, hdependencies, hvisit]

/-- What a search starts with is a matter of the connections. -/
theorem visit_start_congr (h : g'.connections = g.connections) :
    visit g' (g'.connectionCount + 2) [] = visit g (g.connectionCount + 2) [] := by
  rw [connectionCount, h]
  exact funext fun finished => funext fun id => visit_congr h _ [] finished id

/-- The order is a matter of the connections and of the identities of the nodes. -/
theorem topologicalOrder_congr (hkeys : g'.nodes.keys = g.nodes.keys)
    (hconnections : g'.connections = g.connections) : g'.topologicalOrder = g.topologicalOrder := by
  rw [topologicalOrder, topologicalOrder, hkeys, visit_start_congr hconnections]

end Congruence

section Order

variable {order : List NodeId}

theorem isCycle_of_topologicalOrder {e : CycleError} (h : g.topologicalOrder = .error e) :
    g.IsCycle e.nodes := by
  have hspec := g.topologicalOrder_spec
  rwa [h] at hspec

theorem finished_of_topologicalOrder (h : g.topologicalOrder = .ok order) :
    g.Finished order.reverse := by
  have hspec := g.topologicalOrder_spec
  rw [h] at hspec
  exact hspec.1

theorem keys_subset_of_topologicalOrder (h : g.topologicalOrder = .ok order) :
    g.nodes.keys ⊆ order := by
  have hspec := g.topologicalOrder_spec
  rw [h] at hspec
  exact hspec.2.1

theorem nodup_of_topologicalOrder (h : g.topologicalOrder = .ok order) : order.Nodup :=
  List.nodup_reverse.1 (finished_of_topologicalOrder h).nodup

theorem exists_topologicalOrder_of_acyclic (hg : g.Acyclic) :
    ∃ order, g.topologicalOrder = .ok order := by
  cases h : g.topologicalOrder with
  | ok order => exact ⟨order, rfl⟩
  | error e => exact absurd hg (isCycle_of_topologicalOrder h).not_acyclic

/-- No node of the graph is on a cycle if there is an order. -/
theorem irrefl_of_topologicalOrder (h : g.topologicalOrder = .ok order) {n : NodeId}
    (hn : n ∈ g.nodes.keys) : ¬ TransGen g.Feeds n n :=
  (finished_of_topologicalOrder h).irrefl
    (List.mem_reverse.2 (keys_subset_of_topologicalOrder h hn))

theorem perm_keys_of_topologicalOrder (hg : g.Joined) (h : g.topologicalOrder = .ok order) :
    order.Perm g.nodes.keys := by
  have hspec := g.topologicalOrder_spec
  rw [h] at hspec
  refine (List.perm_ext_iff_of_nodup (nodup_of_topologicalOrder h) g.nodes.nodup_keys).2 ?_
  refine fun n => ⟨fun hn => ?_, fun hn => hspec.2.1 hn⟩
  obtain ⟨k, hk, hnk⟩ := hspec.2.2 n hn
  rcases ReflTransGen.cases_head hnk with rfl | ⟨m, hnm, -⟩
  · exact hk
  · exact hg.left hnm

/-- The feeding node of a connection stands strictly before the node it feeds. -/
theorem idxOf_lt_of_topologicalOrder (h : g.topologicalOrder = .ok order) {a b : NodeId}
    (hb : b ∈ order) (hab : g.Feeds a b) : order.idxOf a < order.idxOf b := by
  have hlt := (finished_of_topologicalOrder h).idxOf_reverse_lt (List.mem_reverse.2 hb) hab
  rwa [List.reverse_reverse] at hlt

theorem mem_before_of_topologicalOrder {before after : List NodeId} {a b : NodeId}
    (h : g.topologicalOrder = .ok (before ++ b :: after)) (hab : g.Feeds a b) : a ∈ before :=
  (finished_of_topologicalOrder h).mem_before hab

/-- What holds of a node once it holds of those that feed it holds of all nodes in the order. -/
theorem forall_mem_of_topologicalOrder {P : NodeId → Prop} (h : g.topologicalOrder = .ok order)
    (hstep : ∀ n ∈ order, (∀ m, g.Feeds m n → P m) → P n) : ∀ n ∈ order, P n := by
  have hall := (finished_of_topologicalOrder h).forall_mem fun n hn =>
    hstep n (List.mem_reverse.1 hn)
  exact fun n hn => hall n (List.mem_reverse.2 hn)

/-- The list holds every node of the graph once, each after the nodes that feed it. -/
structure FeedingOrder (g : Graph) (order : List NodeId) : Prop where
  perm : order.Perm g.nodes.keys
  before : ∀ c ∈ g.connections.values, order.idxOf c.fromNode < order.idxOf c.toNode

theorem finished_of_feedingOrder (h : g.FeedingOrder order) : g.Finished order.reverse := by
  refine finished_reverse (h.perm.nodup_iff.2 g.nodes.nodup_keys) ?_
  rintro a b - ⟨c, hc, rfl, rfl⟩
  exact h.before c hc

theorem Joined.acyclic_of_topologicalOrder (hg : g.Joined) (h : g.topologicalOrder = .ok order) :
    g.Acyclic := by
  intro n hn
  obtain ⟨m, hnm, -⟩ := TransGen.head'_iff.1 hn
  exact irrefl_of_topologicalOrder h (hg.left hnm) hn

/-- **The order is an order, its absence a cycle.** Where connections join nodes of the graph, there
is an order exactly if no node feeds itself; it lists the nodes of the graph, the feeding node of
each connection strictly before the node it feeds; otherwise the result is a cycle of the graph. -/
theorem topologicalOrder_sound_and_complete (g : Graph) (hg : g.Joined) :
    ((∃ order, g.topologicalOrder = .ok order) ↔ g.Acyclic) ∧
    (∀ order, g.topologicalOrder = .ok order → order.Perm g.nodes.keys ∧
      ∀ c ∈ g.connections.values, order.idxOf c.fromNode < order.idxOf c.toNode) ∧
    (∀ e, g.topologicalOrder = .error e → g.IsCycle e.nodes ∧ e.nodes ⊆ g.nodes.keys) := by
  refine ⟨⟨?_, exists_topologicalOrder_of_acyclic⟩, ?_, ?_⟩
  · rintro ⟨order, h⟩
    exact hg.acyclic_of_topologicalOrder h
  · intro order h
    refine ⟨perm_keys_of_topologicalOrder hg h, fun c hc => ?_⟩
    exact idxOf_lt_of_topologicalOrder h (keys_subset_of_topologicalOrder h (hg c hc).2)
      (feeds_of_mem hc)
  · intro e h
    have hcycle := isCycle_of_topologicalOrder h
    refine ⟨hcycle, fun n hn => ?_⟩
    obtain ⟨m, hnm⟩ := hcycle.exists_feeds hn
    exact hg.left hnm

/-- Two nodes that feed each other, and a third one fed by both of them. -/
def loopGraph : Graph :=
  let node (k : ℕ) : NodeId := ⟨.ofNat k⟩
  let wire (k a b : ℕ) (slot : String) : ConnectionId × Connection :=
    (⟨.ofNat k⟩, ⟨⟨.ofNat k⟩, node a, NodeKind.resultName, node b, slot⟩)
  { empty "Loop" with
    nodes := .ofEntries ([3, 1, 2].map fun k => (node k, .ofKind (node k) (.function .add)))
    connections := .ofEntries
      [wire 0 1 3 "Input1", wire 1 2 3 "Input2", wire 2 1 2 "Input1", wire 3 2 1 "Input1"] }

theorem topologicalOrder_loopGraph :
    loopGraph.Joined ∧ loopGraph.topologicalOrder = .error ⟨[⟨.ofNat 1⟩, ⟨.ofNat 2⟩]⟩ ∧
      loopGraph.IsCycle [⟨.ofNat 1⟩, ⟨.ofNat 2⟩] ∧ ¬ loopGraph.Acyclic := by
  have hjoined : loopGraph.Joined := by unfold Joined; decide
  have herror : loopGraph.topologicalOrder = .error ⟨[⟨.ofNat 1⟩, ⟨.ofNat 2⟩]⟩ := by rfl
  have hmain := topologicalOrder_sound_and_complete loopGraph hjoined
  refine ⟨hjoined, herror, (hmain.2.2 _ herror).1, fun hacyclic => ?_⟩
  obtain ⟨order, horder⟩ := hmain.1.2 hacyclic
  rw [herror] at horder
  cases horder

end Order

end ShaderGraph.Graph
