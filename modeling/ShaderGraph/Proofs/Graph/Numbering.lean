import ShaderGraph.Proofs.Graph.Configuring
import ShaderGraph.Proofs.GraphDocument

/-!
# Serials are handed out once

The serial of a node numbers its variables, so no two nodes of a graph may have the same one, and
the one of a removed node must not come back. Nodes are added with any serial preset and under any
identity, also one that is present, and documents may leave the counter out or hold a stale one.

* `Numbered` : serials are distinct and below the counter;
* `numbered_of_ofDocument` : loading repairs the counter;
* `Edit`, `Edit.numbered`, `Edit.counts` : one edit, and the serial it hands out;
* `Run`, `Run.ascending` : the serials of a whole run rise;
* `serials_are_handed_out_once` : so none of them was in use before.
-/

namespace ShaderGraph.Graph

variable {g g₀ g' : Graph} {n : Node}

section Invariant

/-- A graph whose nodes have distinct serials below the counter, which has 32 bits. -/
structure Numbered (g : Graph) : Prop where
  version : g.version ≤ graphVersion
  serials : (g.nodes.values.map (·.serial)).Nodup
  below : ∀ n ∈ g.nodes.values, n.serial < g.nextSerial
  next : g.nextSerial ≤ 0xffffffff

theorem numbered_empty (name : String) : (empty name).Numbered where
  version := Nat.le_refl graphVersion
  serials := List.nodup_nil
  below := fun _ hn => absurd hn List.not_mem_nil
  next := Nat.zero_le _

/-- Edits that neither renumber a node nor touch the counter. -/
theorem Numbered.of_sublist (hg : g.Numbered) (hversion : g'.version = g.version)
    (hnext : g'.nextSerial = g.nextSerial)
    (h : (g'.nodes.values.map (·.serial)).Sublist (g.nodes.values.map (·.serial))) :
    g'.Numbered := by
  refine ⟨hversion ▸ hg.version, hg.serials.sublist h, fun n hn => ?_, hnext ▸ hg.next⟩
  obtain ⟨m, hm, hserial⟩ := List.mem_map.1 (h.subset (List.mem_map_of_mem hn))
  have hbelow := hg.below m hm
  omega

/-- The new serial is the counter, which no node has, whatever node was there before. -/
theorem Numbered.addNode (hg : g.Numbered) (n : Node) (hroom : g.nextSerial < 0xffffffff) :
    (g.addNode n).Numbered := by
  refine ⟨hg.version, ?_, fun m hm => ?_, hroom⟩
  · refine OrderedMap.nodup_map_values_insert hg.serials fun m hm => ?_
    exact (hg.below m hm).ne
  · rcases OrderedMap.mem_values_insert hm with rfl | hm
    · exact Nat.lt_succ_self _
    · exact (hg.below m hm).trans (Nat.lt_succ_self _)

end Invariant

section Documents

theorem le_foldl_max (l : List ℕ) (a : ℕ) :
    a ≤ l.foldl max a ∧ ∀ b ∈ l, b ≤ l.foldl max a := by
  induction l generalizing a with
  | nil => simp
  | cons c l ih =>
    obtain ⟨hstart, hrest⟩ := ih (max a c)
    rw [List.foldl_cons, List.forall_mem_cons]
    exact ⟨le_of_max_le_left hstart, le_of_max_le_right hstart, hrest⟩

/-- The raised counter is above every serial and not below what it was. -/
theorem raiseSerial_above (g : Graph) :
    g.nextSerial ≤ g.raiseSerial.nextSerial ∧
      ∀ n ∈ g.nodes.values, n.serial < g.raiseSerial.nextSerial := by
  obtain ⟨hstart, hrest⟩ := le_foldl_max (g.nodes.values.map (·.serial + 1)) g.nextSerial
  exact ⟨hstart, fun n hn => hrest _ (List.mem_map_of_mem (f := (·.serial + 1)) hn)⟩

theorem nodup_of_firstRepeated? {l seen : List ℕ} (h : firstRepeated? seen l = none) :
    l.Nodup ∧ ∀ a ∈ l, a ∉ seen := by
  induction l generalizing seen with
  | nil => simp
  | cons a l ih =>
    rw [firstRepeated?] at h
    split_ifs at h with hseen
    obtain ⟨hnodup, hfree⟩ := ih h
    refine ⟨List.nodup_cons.2 ⟨fun ha => hfree a ha List.mem_cons_self, hnodup⟩, ?_⟩
    rw [List.forall_mem_cons]
    exact ⟨hseen, fun b hb hmem => hfree b hb (List.mem_cons_of_mem a hmem)⟩

/-- A loaded graph is what the document says, of a known version, with connections that obey the
rules and with distinct serials, and its counter is raised. -/
theorem exists_raiseSerial_of_ofDocument {document : String} (h : ofDocument document = .ok g) :
    ∃ v g₁, Document.readDocument graphShape document = .ok v ∧ ofValue? v = some g₁ ∧
      g₁.version ≤ graphVersion ∧ g₁.validate = .ok () ∧
      (g₁.nodes.values.map (·.serial)).Nodup ∧ g = g₁.raiseSerial := by
  unfold ofDocument at h
  cases hread : Document.readDocument graphShape document with
  | error e => rw [hread] at h; cases h
  | ok v =>
    cases hvalue : ofValue? v with
    | none => simp only [hread, hvalue] at h; cases h
    | some g₁ =>
      simp only [hread, hvalue] at h
      split_ifs at h with hversion
      cases hvalid : g₁.validate with
      | error e => rw [hvalid] at h; cases h
      | ok u =>
        cases hrepeated : firstRepeated? [] (g₁.nodes.values.map (·.serial)) with
        | some serial => simp only [hvalid, hrepeated] at h; cases h
        | none =>
          simp only [hvalid, hrepeated] at h
          obtain rfl := Except.ok.inj h
          exact ⟨v, g₁, rfl, hvalue, Nat.le_of_not_lt hversion, hvalid,
            (nodup_of_firstRepeated? hrepeated).1, rfl⟩

theorem numbered_of_ofDocument {document : String} (h : ofDocument document = .ok g)
    (hroom : g.nextSerial ≤ 0xffffffff) : g.Numbered := by
  obtain ⟨-, g₁, -, -, hversion, -, hserials, rfl⟩ := exists_raiseSerial_of_ofDocument h
  exact ⟨hversion, hserials, (raiseSerial_above g₁).2, hroom⟩

/-- Saving and loading keeps every serial and the counter, also of a graph whose nodes do not have
the slots that its connections name, if it is loaded at all. -/
theorem Numbered.eq_canonical_of_reload (hg : g.Numbered) (h : ofDocument g.toDocument = .ok g') :
    g' = g.canonical := by
  have hversion : g.version ≤ 0xffffffff := hg.version.trans (by decide)
  have hserials : ∀ n ∈ g.nodes.values, n.serial ≤ 0xffffffff := fun n hn =>
    (hg.below n hn).le.trans hg.next
  obtain ⟨v, g₁, hread, hvalue, -, -, -, rfl⟩ := exists_raiseSerial_of_ofDocument h
  rw [toDocument, Document.readDocument_document (restores hversion hg.next hserials)] at hread
  obtain rfl := Except.ok.inj hread
  rw [ofValue?_toValue] at hvalue
  obtain rfl := Option.some.inj hvalue
  exact raiseSerial_canonical hg.below

end Documents

section Edits

/-- One edit of a graph, with the serials it hands out: the one that an added node is found with.
The counter has room for an added node; an edit that is refused leaves the graph as it is. -/
inductive Edit : Graph → List ℕ → Graph → Prop
  | add {g : Graph} (n : Node) {m : Node} (hroom : g.nextSerial < 4294967295)
    (hm : (g.addNode n).node? n.id = some m) : Edit g [m.serial] (g.addNode n)
  | remove (g : Graph) (id : NodeId) : Edit g [] (g.removeNode id)
  | connect {g g' : Graph} {c : Connection} (h : g.connect c = .ok g') : Edit g [] g'
  | disconnect (g : Graph) (id : ConnectionId) : Edit g [] (g.disconnect id)
  | configure {g g' : Graph} {id : NodeId} {f : NodeKind → NodeKind} {r : Reconfiguration}
    (h : g.configureNode id f = some (g', r)) : Edit g [] g'
  | reload {g g' : Graph} (h : ofDocument g.toDocument = .ok g') : Edit g [] g'

variable {new : List ℕ}

theorem Edit.numbered (h : Edit g new g') (hg : g.Numbered) : g'.Numbered := by
  cases h with
  | add n hroom hm => exact hg.addNode n hroom
  | remove id =>
    exact hg.of_sublist rfl rfl ((OrderedMap.values_filter_sublist _ _).map _)
  | connect h =>
    obtain ⟨-, -, -, rfl⟩ := connect_eq_ok_iff.1 h
    exact hg.of_sublist rfl rfl (List.Sublist.refl _)
  | disconnect id => exact hg.of_sublist rfl rfl (List.Sublist.refl _)
  | configure h =>
    obtain ⟨n, hn, hnodes, -, hversion, -, hnext⟩ := exists_of_configureNode h
    have hsame : g'.nodes.values.map (·.serial) = g.nodes.values.map (·.serial) := by
      rw [hnodes]
      exact OrderedMap.map_values_modify hn rfl
    exact hg.of_sublist hversion hnext (by rw [hsame])
  | reload h =>
    obtain rfl := hg.eq_canonical_of_reload h
    exact hg.of_sublist rfl rfl (by rw [map_serial_canonical])

/-- What is handed out is the counter, which then is one higher. Other edits leave it. -/
theorem Edit.counts (h : Edit g new g') (hg : g.Numbered) :
    (new = [] ∧ g'.nextSerial = g.nextSerial) ∨
      (new = [g.nextSerial] ∧ g'.nextSerial = g.nextSerial + 1) := by
  cases h with
  | @add n m hroom hm =>
    obtain rfl := Option.some.inj (hm.symm.trans node?_addNode_self)
    exact .inr ⟨rfl, rfl⟩
  | remove id => exact .inl ⟨rfl, rfl⟩
  | connect h =>
    obtain ⟨-, -, -, rfl⟩ := connect_eq_ok_iff.1 h
    exact .inl ⟨rfl, rfl⟩
  | disconnect id => exact .inl ⟨rfl, rfl⟩
  | configure h =>
    obtain ⟨-, -, -, -, -, -, hnext⟩ := exists_of_configureNode h
    exact .inl ⟨rfl, hnext⟩
  | reload h =>
    obtain rfl := hg.eq_canonical_of_reload h
    exact .inl ⟨rfl, rfl⟩

end Edits

section Runs

/-- The graphs that edits make of a graph, with all the serials handed out on the way, in order. -/
inductive Run (g₀ : Graph) : List ℕ → Graph → Prop
  | start : Run g₀ [] g₀
  | edit {g g' : Graph} {given new : List ℕ} (h : Run g₀ given g) (hedit : Edit g new g') :
    Run g₀ (given ++ new) g'

variable {given : List ℕ}

theorem Run.numbered (h : Run g₀ given g) (hg : g₀.Numbered) : g.Numbered := by
  induction h with
  | start => exact hg
  | edit _ hedit ih => exact hedit.numbered ih

/-- The serials of a run rise from the counter of its first graph to that of its last. -/
theorem Run.ascending (h : Run g₀ given g) (hg : g₀.Numbered) :
    g₀.nextSerial ≤ g.nextSerial ∧ given.Pairwise (· < ·) ∧
      ∀ s ∈ given, g₀.nextSerial ≤ s ∧ s < g.nextSerial := by
  induction h with
  | start => exact ⟨le_rfl, List.Pairwise.nil, fun s hs => absurd hs List.not_mem_nil⟩
  | @edit g g' given new h hedit ih =>
    obtain ⟨hle, hpairwise, hgiven⟩ := ih
    rcases hedit.counts (h.numbered hg) with ⟨rfl, hnext⟩ | ⟨rfl, hnext⟩
    · rw [List.append_nil, hnext]
      exact ⟨hle, hpairwise, hgiven⟩
    · refine ⟨by omega, ?_, ?_⟩
      · rw [List.pairwise_append]
        refine ⟨hpairwise, List.pairwise_singleton _ _, fun s hs t ht => ?_⟩
        obtain rfl := List.mem_singleton.1 ht
        exact (hgiven s hs).2
      · intro s hs
        rw [List.mem_append, List.mem_singleton] at hs
        obtain hs | rfl := hs
        · have hbounds := hgiven s hs
          omega
        · omega

/-- **Serials are never shared and never reused.** In whatever graph edits make of a new or a loaded
one, nodes have distinct serials below the counter. The counter never falls, and no serial is handed
out that a node of the first graph has, that is below its counter, or that was handed out before. -/
theorem serials_are_handed_out_once {g₀ g : Graph} {given : List ℕ}
    (hstart : (∃ name, g₀ = empty name) ∨ ∃ document, ofDocument document = .ok g₀)
    (hroom : g₀.nextSerial ≤ 4294967295) (hrun : Run g₀ given g) :
    (g.nodes.values.map (·.serial)).Nodup ∧
      (∀ n ∈ g.nodes.values, n.serial < g.nextSerial) ∧
      g₀.nextSerial ≤ g.nextSerial ∧
      (∀ new g', Edit g new g' → g.nextSerial ≤ g'.nextSerial) ∧
      (∀ s ∈ given, g₀.nextSerial ≤ s) ∧
      (g₀.nodes.values.map (·.serial) ++ given).Nodup := by
  have hg₀ : g₀.Numbered := by
    rcases hstart with ⟨name, rfl⟩ | ⟨document, hload⟩
    · exact numbered_empty name
    · exact numbered_of_ofDocument hload hroom
  have hg := hrun.numbered hg₀
  obtain ⟨hle, hpairwise, hgiven⟩ := hrun.ascending hg₀
  refine ⟨hg.serials, hg.below, hle, fun new g' hedit => ?_, fun s hs => (hgiven s hs).1, ?_⟩
  · rcases hedit.counts hg with ⟨-, hnext⟩ | ⟨-, hnext⟩ <;> omega
  · refine List.nodup_append.2 ⟨hg₀.serials, hpairwise.imp Nat.ne_of_lt, ?_⟩
    rintro s hs t ht rfl
    obtain ⟨n, hn, rfl⟩ := List.mem_map.1 hs
    exact absurd (hg₀.below n hn) (Nat.not_lt.2 (hgiven _ ht).1)

/-- A graph whose counter is behind the serial of its only node. -/
def staleGraph : Graph where
  version := 1
  name := "Stale"
  nodes := .ofEntries [(⟨.ofNat 1⟩, ⟨⟨.ofNat 1⟩, 7, "Mesh", .uv, []⟩)]
  connections := .empty
  nextSerial := 3

/-- Loading raises the counter. The node is taken out and put back, the graph is saved and loaded,
and then another node takes its place. -/
theorem serials_of_staleGraph :
    let mesh : Node := ⟨⟨.ofNat 1⟩, 7, "Mesh", .uv, []⟩
    let loaded : Graph := { staleGraph with nextSerial := 8 }
    let back : Graph := (loaded.removeNode mesh.id).addNode mesh
    let g : Graph := back.addNode { mesh with serial := 0, name := "Other" }
    ofDocument staleGraph.toDocument = .ok loaded ∧ loaded.nextSerial ≤ 4294967295 ∧
      Run loaded [8, 9] g ∧ loaded.nodes.values.map (·.serial) = [7] ∧
      g.nodes.values.map (·.serial) = [9] ∧
      (∀ n ∈ g.nodes.values, n.serial < g.nextSerial) ∧
      loaded.nextSerial ≤ g.nextSerial ∧
      (∀ new g', Edit g new g' → g.nextSerial ≤ g'.nextSerial) ∧
      (∀ s ∈ [8, 9], loaded.nextSerial ≤ s) ∧
      (loaded.nodes.values.map Node.serial ++ [8, 9]).Nodup := by
  intro mesh loaded back g
  have hload : ofDocument staleGraph.toDocument = .ok loaded :=
    ofDocument_toDocument (by decide) rfl (by decide) (by decide) (by decide)
  have hstorable : back.Storable := ⟨by decide, rfl, by decide, by decide, by decide⟩
  have hput : Edit (loaded.removeNode mesh.id) [8] back :=
    Edit.add (g := loaded.removeNode mesh.id) mesh (by decide) rfl
  have hreload : Edit back [] back := .reload hstorable.ofDocument_toDocument
  have hreplace : Edit back [9] g :=
    Edit.add (g := back) { mesh with serial := 0, name := "Other" } (by decide) rfl
  have hrun : Run loaded [8, 9] g :=
    (((Run.start.edit (.remove loaded mesh.id)).edit hput).edit hreload).edit hreplace
  obtain ⟨-, hrest⟩ := serials_are_handed_out_once (.inr ⟨_, hload⟩) (by decide) hrun
  exact ⟨hload, by decide, hrun, by decide, by decide, hrest⟩

end Runs

end ShaderGraph.Graph
