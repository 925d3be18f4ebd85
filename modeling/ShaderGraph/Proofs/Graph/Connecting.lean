import ShaderGraph.Graph.Connecting
import ShaderGraph.Proofs.Graph.Dependency

/-!
# What a connection that is let in has

Inversion of the rules of `connect` and `validate`: the slots that a connection joins, and what the
connections of a valid graph have in common.

* `connect_eq_ok_iff` : when a connection is made, and the graph afterwards;
* `validate_eq_ok_iff` : a valid graph is one whose connections join fitting slots, no two of them
  at the same input;
* `connectionInto_eq_some_iff` : what is found at an input then.
-/

namespace ShaderGraph.Graph

variable {g g' : Graph} {c : Connection}

section Endpoints

/-- Both slots exist under the names of the connection, and the first can feed the second. -/
def Fits (nodes : OrderedMap NodeId Node) (c : Connection) : Prop :=
  ∃ source target output input, nodes.get? c.fromNode = some source ∧
    nodes.get? c.toNode = some target ∧ source.slot? c.fromSlot = some output ∧
    target.slot? c.toSlot = some input ∧ output.canFeed input = true

theorem checkEndpoints_eq_ok_iff {nodes : OrderedMap NodeId Node} :
    checkEndpoints nodes c = .ok () ↔ Fits nodes c := by
  unfold checkEndpoints Fits
  cases hs : nodes.get? c.fromNode with
  | none => simp
  | some source =>
    cases ht : nodes.get? c.toNode with
    | none => simp
    | some target =>
      cases ho : source.slot? c.fromSlot with
      | none => simp [ho]
      | some output =>
        cases hi : target.slot? c.toSlot with
        | none => simp [ho, hi]
        | some input =>
          cases h₁ : output.isOutput <;> cases h₂ : input.isInput <;>
            cases h₃ : output.type.canFeed input.type <;> simp [ho, hi, Slot.canFeed, h₁, h₂, h₃]

/-- The slot that the rules look at, the first of its name. -/
def slotAt? (nodes : OrderedMap NodeId Node) (k : NodeId) (name : String) : Option Slot :=
  (nodes.get? k).bind (·.slot? name)

theorem checkEndpoints_of_slotAt? {nodes : OrderedMap NodeId Node} {output input : Slot}
    (houtput : slotAt? nodes c.fromNode c.fromSlot = some output)
    (hinput : slotAt? nodes c.toNode c.toSlot = some input) :
    checkEndpoints nodes c =
      if !(output.isOutput && input.isInput) then .error .wrongDirection
      else if !output.canFeed input then .error .incompatibleSlots
      else .ok () := by
  obtain ⟨source, hsource, houtput⟩ := Option.bind_eq_some_iff.1 houtput
  obtain ⟨target, htarget, hinput⟩ := Option.bind_eq_some_iff.1 hinput
  rw [checkEndpoints, hsource, htarget]
  simp only [houtput, hinput]

theorem Fits.mem_keys {nodes : OrderedMap NodeId Node} (h : Fits nodes c) :
    c.fromNode ∈ nodes.keys ∧ c.toNode ∈ nodes.keys := by
  obtain ⟨source, target, -, -, hs, ht, -⟩ := h
  exact ⟨OrderedMap.mem_keys_of_get? hs, OrderedMap.mem_keys_of_get? ht⟩

/-- The rules look at the slots that the two nodes have under the names of the connection. -/
theorem Fits.of_slot? {nodes nodes' : OrderedMap NodeId Node} (h : Fits nodes c)
    (hnodes : ∀ id n, id = c.fromNode ∨ id = c.toNode → nodes.get? id = some n →
      ∃ n', nodes'.get? id = some n' ∧ ∀ name s, n.slot? name = some s → n'.slot? name = some s) :
    Fits nodes' c := by
  obtain ⟨source, target, output, input, hsource, htarget, houtput, hinput, hfeed⟩ := h
  obtain ⟨source', hsource', hs⟩ := hnodes _ _ (.inl rfl) hsource
  obtain ⟨target', htarget', ht⟩ := hnodes _ _ (.inr rfl) htarget
  exact ⟨source', target', output, input, hsource', htarget', hs _ _ houtput, ht _ _ hinput, hfeed⟩

theorem Fits.of_slots {nodes nodes' : OrderedMap NodeId Node} (h : Fits nodes c)
    (hnodes : ∀ id n, id = c.fromNode ∨ id = c.toNode → nodes.get? id = some n →
      ∃ n', nodes'.get? id = some n' ∧ n'.slots = n.slots) : Fits nodes' c := by
  refine h.of_slot? fun id n hid hn => ?_
  obtain ⟨n', hn', hslots⟩ := hnodes id n hid hn
  refine ⟨n', hn', fun name s hs => ?_⟩
  rw [Node.slot?, hslots]
  exact hs

end Endpoints

section Connect

theorem connect_eq_ok_iff :
    g.connect c = .ok g' ↔ Fits g.nodes c ∧ g.connectionInto c.toNode c.toSlot = none ∧
      c.fromNode ≠ c.toNode ∧ g' = { g with connections := g.connections.insert c.id c } := by
  unfold connect
  rw [← checkEndpoints_eq_ok_iff]
  cases hc : checkEndpoints g.nodes c with
  | error e => simp
  | ok u =>
    cases hi : g.connectionInto c.toNode c.toSlot with
    | some d => simp
    | none =>
      by_cases hne : c.fromNode = c.toNode
      · simp [hne]
      · simp [hne, eq_comm]

/-- Connecting adds no feeding but that of the new connection. -/
theorem feeds_of_connect (h : g.connect c = .ok g') {a b : NodeId} (hab : g'.Feeds a b) :
    g.Feeds a b ∨ (a = c.fromNode ∧ b = c.toNode) := by
  obtain ⟨-, -, -, rfl⟩ := connect_eq_ok_iff.1 h
  obtain ⟨d, hd, rfl, rfl⟩ := hab
  rcases OrderedMap.mem_values_insert hd with rfl | hd
  · exact Or.inr ⟨rfl, rfl⟩
  · exact Or.inl (feeds_of_mem hd)

theorem feeds_new_of_connect (h : g.connect c = .ok g') : g'.Feeds c.fromNode c.toNode := by
  obtain ⟨-, -, -, rfl⟩ := connect_eq_ok_iff.1 h
  exact feeds_of_mem (OrderedMap.mem_values_of_get? OrderedMap.get?_insert_self)

/-- Under an identity of its own a new connection leaves the others in place. -/
theorem feeds_old_of_connect (h : g.connect c = .ok g') (hfresh : g.connection? c.id = none)
    {a b : NodeId} (hab : g.Feeds a b) : g'.Feeds a b := by
  obtain ⟨-, -, -, rfl⟩ := connect_eq_ok_iff.1 h
  obtain ⟨d, hd, rfl, rfl⟩ := hab
  refine ⟨d, ?_, rfl, rfl⟩
  rw [OrderedMap.values_insert_of_not_mem (OrderedMap.get?_eq_none_iff.1 hfresh)]
  exact List.mem_append_left _ hd

end Connect

section Validate

theorem validateFrom_eq_ok_iff {nodes : OrderedMap NodeId Node} {l : List Connection}
    {occupied : List (NodeId × String)} :
    validateFrom nodes occupied l = .ok () ↔ (∀ c ∈ l, Fits nodes c) ∧
      (l.map fun c => (c.toNode, c.toSlot)).Nodup ∧
      ∀ c ∈ l, (c.toNode, c.toSlot) ∉ occupied := by
  induction l generalizing occupied with
  | nil => simp [validateFrom]
  | cons c l ih =>
    rw [validateFrom, List.forall_mem_cons, List.forall_mem_cons, List.map_cons, List.nodup_cons,
      ← checkEndpoints_eq_ok_iff]
    cases hc : checkEndpoints nodes c with
    | error e => simp
    | ok u =>
      by_cases ho : (c.toNode, c.toSlot) ∈ occupied
      · simp [ho]
      · simp only [ho, if_false, ih, List.mem_cons, not_or, List.mem_map, not_exists, not_and]
        constructor
        · rintro ⟨hfits, hnodup, hfree⟩
          exact ⟨⟨trivial, hfits⟩, ⟨fun d hd h => (hfree d hd).1 h, hnodup⟩, not_false,
            fun d hd => (hfree d hd).2⟩
        · rintro ⟨⟨-, hfits⟩, ⟨hfirst, hnodup⟩, -, hfree⟩
          exact ⟨hfits, hnodup, fun d hd => ⟨fun h => hfirst d hd h, hfree d hd⟩⟩

theorem validate_eq_ok_iff :
    g.validate = .ok () ↔ (∀ c ∈ g.connections.values, Fits g.nodes c) ∧
      (g.connections.values.map fun c => (c.toNode, c.toSlot)).Nodup := by
  rw [validate, validateFrom_eq_ok_iff]
  simp

theorem joined_of_validate (h : g.validate = .ok ()) : g.Joined :=
  fun c hc => ((validate_eq_ok_iff.1 h).1 c hc).mem_keys

/-- No two connections of a valid graph end at one input, so the one that does is found there. -/
theorem connectionInto_eq_some_iff (h : g.validate = .ok ()) {id : NodeId} {slot : String} :
    g.connectionInto id slot = some c ↔
      c ∈ g.connections.values ∧ c.toNode = id ∧ c.toSlot = slot := by
  have hends : ∀ d, g.connectionInto id slot = some d →
      d ∈ g.connections.values ∧ d.toNode = id ∧ d.toSlot = slot := by
    intro d hd
    have hfeeds := List.find?_some hd
    rw [Connection.feeds, Bool.and_eq_true, beq_iff_eq, beq_iff_eq] at hfeeds
    exact ⟨List.mem_of_find?_eq_some hd, hfeeds⟩
  constructor
  · exact hends c
  · rintro ⟨hc, rfl, rfl⟩
    have hfeeds : c.feeds c.toNode c.toSlot = true := by simp [Connection.feeds]
    obtain ⟨d, hd⟩ : ∃ d, g.connectionInto c.toNode c.toSlot = some d :=
      Option.isSome_iff_exists.1 (List.find?_isSome.2 ⟨c, hc, hfeeds⟩)
    obtain ⟨hmem, hnode, hslot⟩ := hends d hd
    have hkey : (d.toNode, d.toSlot) = (c.toNode, c.toSlot) := by rw [hnode, hslot]
    rw [hd, List.inj_on_of_nodup_map (validate_eq_ok_iff.1 h).2 hmem hc hkey]

end Validate

end ShaderGraph.Graph
