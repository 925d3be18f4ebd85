import Mathlib.Order.WellFounded
import ShaderGraph.Proofs.Graph.Configuring

/-!
# The rules of connections

A connection obeys seven rules: both nodes exist, both slots exist, it runs from an output to an
input, the types of the two fit, and no connection before it ends at the same input. The rules are
checked in this order. `validate` checks the connections of a graph one after the other; `connect`
checks a new one against all that are there.

* `Rule`, `Rule.Holds`, `Rule.error`, `BreaksFirst` : the rules and what is reported;
* `Lawful` : connections that obey the rules, each with regard to those before it;
* `validateFrom_of_holds`, `validateFrom_of_breaksFirst` : one connection;
* `lawful_or_breaksFirst` : the connections of a graph;
* `validate_decides_the_rules` : which graphs are valid, and what is reported of the others;
* `connect_agrees_with_validate` : a connection is made if the graph is valid with it.
-/

namespace ShaderGraph.Graph

variable {g g' : Graph} {nodes : OrderedMap NodeId Node} {earlier l : List Connection}
  {c : Connection}

section Rules

/-- The rules of a connection. -/
inductive Rule
  | sourceNode
  | targetNode
  | sourceSlot
  | targetSlot
  | direction
  | types
  | freeInput
deriving DecidableEq

namespace Rule

/-- The rules in the order in which they are checked. -/
def all : List Rule :=
  [sourceNode, targetNode, sourceSlot, targetSlot, direction, types, freeInput]

/-- What the rule asks of a connection that comes after others. Where a slot is missing, direction
and types are not in question. -/
def Holds (nodes : OrderedMap NodeId Node) (earlier : List Connection) (c : Connection) :
    Rule → Prop
  | sourceNode => c.fromNode ∈ nodes.keys
  | targetNode => c.toNode ∈ nodes.keys
  | sourceSlot => ∃ output, slotAt? nodes c.fromNode c.fromSlot = some output
  | targetSlot => ∃ input, slotAt? nodes c.toNode c.toSlot = some input
  | direction => ∀ output input, slotAt? nodes c.fromNode c.fromSlot = some output →
      slotAt? nodes c.toNode c.toSlot = some input →
        output.direction = .output ∧ input.direction = .input
  | types => ∀ output input, slotAt? nodes c.fromNode c.fromSlot = some output →
      slotAt? nodes c.toNode c.toSlot = some input →
        (output.type = .fixed .texture2D ↔ input.type = .fixed .texture2D)
  | freeInput => ∀ d ∈ earlier, ¬ (d.toNode = c.toNode ∧ d.toSlot = c.toSlot)

/-- What is reported of a connection that breaks the rule. -/
def error (c : Connection) : Rule → ConnectionError
  | sourceNode => .nodeNotFound c.fromNode
  | targetNode => .nodeNotFound c.toNode
  | sourceSlot => .slotNotFound c.fromSlot
  | targetSlot => .slotNotFound c.toSlot
  | direction => .wrongDirection
  | types => .incompatibleSlots
  | freeInput => .inputOccupied c.toSlot

end Rule

variable {r : Rule}

/-- The rule is broken, and none that is checked before it. -/
def BreaksFirst (nodes : OrderedMap NodeId Node) (earlier : List Connection) (c : Connection)
    (r : Rule) : Prop :=
  ¬ r.Holds nodes earlier c ∧
    ∀ r', Rule.all.idxOf r' < Rule.all.idxOf r → r'.Holds nodes earlier c

/-- Connections of which each obeys the rules with regard to those before it. -/
inductive Lawful (nodes : OrderedMap NodeId Node) : List Connection → Prop
  | nil : Lawful nodes []
  | concat {l : List Connection} {c : Connection} (hl : Lawful nodes l)
    (hc : ∀ r : Rule, r.Holds nodes l c) : Lawful nodes (l ++ [c])

theorem holds_or_breaksFirst (nodes : OrderedMap NodeId Node) (earlier : List Connection)
    (c : Connection) :
    (∀ r : Rule, r.Holds nodes earlier c) ∨ ∃ r, BreaksFirst nodes earlier c r := by
  by_cases h : ∀ r : Rule, r.Holds nodes earlier c
  · exact .inl h
  · -- of the broken rules, the one that is checked before the others
    rw [not_forall] at h
    obtain ⟨r, hr, hmin⟩ := (measure Rule.all.idxOf).wf.has_min
      {r : Rule | ¬ r.Holds nodes earlier c} h
    exact .inr ⟨r, hr, fun r' hlt => by_contra fun hbroken => hmin r' hbroken hlt⟩

/-- Connections obey the rules up to the first one that does not. -/
theorem lawful_or_breaksFirst (nodes : OrderedMap NodeId Node) (l : List Connection) :
    Lawful nodes l ∨ ∃ earlier c later r, l = earlier ++ c :: later ∧ Lawful nodes earlier ∧
      BreaksFirst nodes earlier c r := by
  induction l using List.reverseRecOn with
  | nil => exact .inl .nil
  | append_singleton l d ih =>
    rcases ih with hl | ⟨earlier, c, later, r, rfl, hearlier, hbreaks⟩
    · rcases holds_or_breaksFirst nodes l d with hd | ⟨r, hbreaks⟩
      · exact .inl (.concat hl hd)
      · exact .inr ⟨l, d, [], r, rfl, hl, hbreaks⟩
    · exact .inr ⟨earlier, c, later ++ [d], r, by simp, hearlier, hbreaks⟩

end Rules

section Slots

variable {output input : Slot}

theorem canFeed_iff : output.canFeed input = true ↔
    output.direction = .output ∧ input.direction = .input ∧
      (output.type = .fixed .texture2D ↔ input.type = .fixed .texture2D) := by
  simp only [Slot.canFeed, Slot.isOutput, Slot.isInput, SlotType.canFeed, SlotType.isTexture,
    Bool.and_eq_true, beq_iff_eq, and_assoc]
  rw [Bool.eq_iff_iff, beq_iff_eq, beq_iff_eq]

/-- All rules but the last say that the ends fit. -/
theorem fits_of_holds (h : ∀ r : Rule, r ≠ .freeInput → r.Holds nodes earlier c) :
    Fits nodes c := by
  obtain ⟨output, houtput⟩ := h .sourceSlot (by decide)
  obtain ⟨input, hinput⟩ := h .targetSlot (by decide)
  obtain ⟨hout, hin⟩ := h .direction (by decide) output input houtput hinput
  have htypes := h .types (by decide) output input houtput hinput
  obtain ⟨source, hsource, houtput⟩ := Option.bind_eq_some_iff.1 houtput
  obtain ⟨target, htarget, hinput⟩ := Option.bind_eq_some_iff.1 hinput
  exact ⟨source, target, output, input, hsource, htarget, houtput, hinput,
    canFeed_iff.2 ⟨hout, hin, htypes⟩⟩

theorem slot?_eq_none_of_slotAt? {id : NodeId} {n : Node} {name : String}
    (hn : nodes.get? id = some n) (h : ¬ ∃ s, slotAt? nodes id name = some s) :
    n.slot? name = none := by
  rw [Option.eq_none_iff_forall_ne_some]
  exact fun s hs => h ⟨s, Option.bind_eq_some_iff.2 ⟨n, hn, hs⟩⟩

/-- The ends of a connection are refused for the first rule that it breaks. -/
theorem checkEndpoints_of_breaksFirst (h : BreaksFirst nodes earlier c r)
    (hr : r ≠ .freeInput) : checkEndpoints nodes c = .error (r.error c) := by
  obtain ⟨hbroken, hbefore⟩ := h
  cases r with
  | sourceNode =>
    have hnone : nodes.get? c.fromNode = none := OrderedMap.get?_eq_none_iff.2 hbroken
    rw [checkEndpoints, hnone]
    rfl
  | targetNode =>
    obtain ⟨source, hsource⟩ :=
      OrderedMap.exists_get?_of_mem_keys (hbefore .sourceNode (by decide))
    have hnone : nodes.get? c.toNode = none := OrderedMap.get?_eq_none_iff.2 hbroken
    rw [checkEndpoints, hsource, hnone]
    rfl
  | sourceSlot =>
    obtain ⟨source, hsource⟩ :=
      OrderedMap.exists_get?_of_mem_keys (hbefore .sourceNode (by decide))
    obtain ⟨target, htarget⟩ :=
      OrderedMap.exists_get?_of_mem_keys (hbefore .targetNode (by decide))
    have hnone : source.slot? c.fromSlot = none := slot?_eq_none_of_slotAt? hsource hbroken
    rw [checkEndpoints, hsource, htarget]
    simp only [hnone]
    rfl
  | targetSlot =>
    obtain ⟨output, houtput⟩ := hbefore .sourceSlot (by decide)
    obtain ⟨source, hsource, houtput⟩ := Option.bind_eq_some_iff.1 houtput
    obtain ⟨target, htarget⟩ :=
      OrderedMap.exists_get?_of_mem_keys (hbefore .targetNode (by decide))
    have hnone : target.slot? c.toSlot = none := slot?_eq_none_of_slotAt? htarget hbroken
    rw [checkEndpoints, hsource, htarget]
    simp only [houtput, hnone]
    rfl
  | direction =>
    obtain ⟨output, houtput⟩ := hbefore .sourceSlot (by decide)
    obtain ⟨input, hinput⟩ := hbefore .targetSlot (by decide)
    have hwrong : ¬ (output.direction = .output ∧ input.direction = .input) := by
      simpa [Rule.Holds, houtput, hinput] using hbroken
    rw [checkEndpoints_of_slotAt? houtput hinput, if_pos]
    · rfl
    · simpa [Slot.isOutput, Slot.isInput, imp_iff_not_or] using hwrong
  | types =>
    obtain ⟨output, houtput⟩ := hbefore .sourceSlot (by decide)
    obtain ⟨input, hinput⟩ := hbefore .targetSlot (by decide)
    obtain ⟨hout, hin⟩ := hbefore .direction (by decide) output input houtput hinput
    have hwrong : ¬ output.canFeed input = true := by
      rw [canFeed_iff]
      rintro ⟨-, -, htypes⟩
      exact hbroken (by simpa [Rule.Holds, houtput, hinput] using htypes)
    rw [checkEndpoints_of_slotAt? houtput hinput, if_neg, if_pos]
    · rfl
    · simpa using hwrong
    · simp [Slot.isOutput, Slot.isInput, hout, hin]
  | freeInput => exact absurd rfl hr

end Slots

section Validating

/-- The inputs at which connections end, the last one first. -/
def taken (l : List Connection) : List (NodeId × String) :=
  (l.map fun c => (c.toNode, c.toSlot)).reverse

theorem mem_taken {id : NodeId} {slot : String} :
    (id, slot) ∈ taken l ↔ ∃ d ∈ l, d.toNode = id ∧ d.toSlot = slot := by
  simp [taken]

theorem taken_concat (l : List Connection) (c : Connection) :
    taken (l ++ [c]) = (c.toNode, c.toSlot) :: taken l := by
  simp [taken]

/-- A connection that obeys the rules is passed over, and its input is taken. -/
theorem validateFrom_of_holds (h : ∀ r : Rule, r.Holds nodes earlier c) (later : List Connection) :
    validateFrom nodes (taken earlier) (c :: later) =
      validateFrom nodes (taken (earlier ++ [c])) later := by
  have hends : checkEndpoints nodes c = .ok () :=
    checkEndpoints_eq_ok_iff.2 (fits_of_holds fun r _ => h r)
  have hfree : (c.toNode, c.toSlot) ∉ taken earlier := by
    rw [mem_taken]
    rintro ⟨d, hd, hsame⟩
    exact h .freeInput d hd hsame
  rw [validateFrom, hends, taken_concat]
  exact if_neg hfree

/-- A connection that breaks a rule ends the validation. -/
theorem validateFrom_of_breaksFirst (h : BreaksFirst nodes earlier c r)
    (later : List Connection) :
    validateFrom nodes (taken earlier) (c :: later) = .error (r.error c) := by
  by_cases hr : r = .freeInput
  · subst hr
    have hends : checkEndpoints nodes c = .ok () := by
      refine checkEndpoints_eq_ok_iff.2 (fits_of_holds fun r' hr' => h.2 r' ?_)
      revert hr'
      cases r' <;> decide
    have hoccupied : (c.toNode, c.toSlot) ∈ taken earlier := by
      rw [mem_taken]
      simpa [Rule.Holds] using h.1
    rw [validateFrom, hends]
    exact if_pos hoccupied
  · rw [validateFrom, checkEndpoints_of_breaksFirst h hr]

/-- Connections that obey the rules are passed over. -/
theorem Lawful.validateFrom_append (h : Lawful nodes l) (later : List Connection) :
    validateFrom nodes [] (l ++ later) = validateFrom nodes (taken l) later := by
  induction h generalizing later with
  | nil => rfl
  | @concat l c _ hc ih =>
    rw [List.append_assoc, List.singleton_append, ih, validateFrom_of_holds hc]

theorem lawful_of_validateFrom (h : validateFrom nodes [] l = .ok ()) : Lawful nodes l := by
  rcases lawful_or_breaksFirst nodes l with hl | ⟨earlier, c, later, r, rfl, hearlier, hbreaks⟩
  · exact hl
  · rw [hearlier.validateFrom_append, validateFrom_of_breaksFirst hbreaks] at h
    cases h

/-- **Validation decides the rules of connections.** A graph is valid exactly if every connection
runs from a slot to a slot, the first of their names on nodes of the graph, the one an output and
the other an input, both or neither of them for samplers, and no two connections end at the same
input. Of any other graph it reports the first connection that breaks a rule with regard to those
before it, for the first rule that it breaks. -/
theorem validate_decides_the_rules (g : Graph) :
    (g.validate = .ok () ↔
      (∀ c ∈ g.connections.values, ∃ source target output input,
        g.node? c.fromNode = some source ∧ g.node? c.toNode = some target ∧
        source.slot? c.fromSlot = some output ∧ target.slot? c.toSlot = some input ∧
        output.direction = .output ∧ input.direction = .input ∧
        (output.type = .fixed .texture2D ↔ input.type = .fixed .texture2D)) ∧
      ∀ e ∈ g.connections.entries, ∀ d ∈ g.connections.entries,
        e.2.toNode = d.2.toNode → e.2.toSlot = d.2.toSlot → e = d) ∧
    ∀ e, g.validate = .error e ↔ ∃ earlier c later r,
      g.connections.values = earlier ++ c :: later ∧ Lawful g.nodes earlier ∧
        BreaksFirst g.nodes earlier c r ∧ e = r.error c := by
  refine ⟨?_, fun e => ⟨fun h => ?_, ?_⟩⟩
  · rw [validate_eq_ok_iff]
    refine and_congr (forall₂_congr fun c _ => ?_) ?_
    · simp only [Fits, canFeed_iff]
      rfl
    · have hentries : g.connections.entries.Nodup := .of_map Prod.fst g.connections.nodup
      rw [OrderedMap.values, List.map_map, List.nodup_map_iff_inj_on hentries]
      simp
  · rcases lawful_or_breaksFirst g.nodes g.connections.values with
      hl | ⟨earlier, c, later, r, hvalues, hearlier, hbreaks⟩
    · have hok := hl.validateFrom_append []
      rw [List.append_nil] at hok
      rw [validate, hok] at h
      cases h
    · refine ⟨earlier, c, later, r, hvalues, hearlier, hbreaks, ?_⟩
      rw [validate, hvalues, hearlier.validateFrom_append, validateFrom_of_breaksFirst hbreaks] at h
      exact (Except.error.inj h).symm
  · rintro ⟨earlier, c, later, r, hvalues, hearlier, hbreaks, rfl⟩
    rw [validate, hvalues, hearlier.validateFrom_append, validateFrom_of_breaksFirst hbreaks]

end Validating

section Connecting

/-- The graph with one more connection at the end, whatever it joins. -/
def appended (g : Graph) (c : Connection) : Graph :=
  { g with connections := g.connections.insert c.id c }

/-- The graph after a connection is asked for; it stays as it is if the connection is refused. -/
def connected (g : Graph) (c : Connection) : Graph :=
  match g.connect c with
  | .error _ => g
  | .ok g' => g'

/-- An input has a connection if it is among those at which connections end. -/
theorem isSome_connectionInto_iff {id : NodeId} {slot : String} :
    (g.connectionInto id slot).isSome = true ↔ (id, slot) ∈ taken g.connections.values := by
  rw [connectionInto, List.find?_isSome, mem_taken]
  simp [Connection.feeds]

/-- The checks of a new connection are those of validation, with the one that it joins different
nodes at the end. -/
theorem connect_eq (hvalid : g.validate = .ok ()) (hfresh : g.connection? c.id = none) :
    g.connect c =
      match (g.appended c).validate with
      | .error e => .error e
      | .ok () => if c.fromNode = c.toNode then .error .selfLoop else .ok (g.appended c) := by
  have hvalues : (g.appended c).connections.values = g.connections.values ++ [c] :=
    OrderedMap.values_insert_of_not_mem (OrderedMap.get?_eq_none_iff.1 hfresh)
  have hvalidate : (g.appended c).validate =
      validateFrom g.nodes (taken g.connections.values) [c] := by
    rw [validate, hvalues]
    exact (lawful_of_validateFrom hvalid).validateFrom_append [c]
  rw [hvalidate, connect, validateFrom]
  cases hends : checkEndpoints g.nodes c with
  | error e => rfl
  | ok u =>
    by_cases hfree : (c.toNode, c.toSlot) ∈ taken g.connections.values
    · simp only [if_pos hfree, if_pos (isSome_connectionInto_iff.2 hfree)]
    · simp only [if_neg hfree, if_neg (mt isSome_connectionInto_iff.1 hfree), validateFrom]
      rfl

/-- **A connection is made exactly if the graph is valid with it.** Asked to connect two nodes, a
valid graph becomes the one with the connection at the end if that is valid, and otherwise reports
what validation reports of that graph. A node is never connected to itself: the error is that of
validation again, or else that it is a loop. The graph stays as it is on every error, and taking the
new connection out again restores it. -/
theorem connect_agrees_with_validate (g : Graph) (c : Connection) (hvalid : g.validate = .ok ())
    (hfresh : g.connection? c.id = none) :
    (g.appended c).connections.entries = g.connections.entries ++ [(c.id, c)] ∧
    (c.fromNode ≠ c.toNode →
      (∀ g', g.connect c = .ok g' ↔ (g.appended c).validate = .ok () ∧ g' = g.appended c) ∧
      ∀ e, g.connect c = .error e ↔ (g.appended c).validate = .error e) ∧
    (c.fromNode = c.toNode →
      (∀ g', g.connect c ≠ .ok g') ∧
      ∀ e, g.connect c = .error e ↔ (g.appended c).validate = .error e ∨
        (g.appended c).validate = .ok () ∧ e = .selfLoop) ∧
    (∀ e, g.connect c = .error e → g.connected c = g) ∧
    ∀ g', g.connect c = .ok g' →
      g.connected c = g' ∧ g'.connection? c.id = some c ∧ g'.disconnect c.id = g := by
  have hkey : c.id ∉ g.connections.keys := OrderedMap.get?_eq_none_iff.1 hfresh
  refine ⟨OrderedMap.entries_insert_of_not_mem hkey, fun hne => ?_, fun heq => ?_,
    fun e h => ?_, fun g' h => ?_⟩
  · rw [connect_eq hvalid hfresh]
    cases hcheck : (g.appended c).validate with
    | error e => simp
    | ok u => simp [hne, eq_comm]
  · rw [connect_eq hvalid hfresh]
    cases hcheck : (g.appended c).validate with
    | error e => simp
    | ok u => simp [heq, eq_comm]
  · rw [connected, h]
  · obtain ⟨-, -, -, rfl⟩ := connect_eq_ok_iff.1 h
    refine ⟨by rw [connected, h], OrderedMap.get?_insert_self, ?_⟩
    rw [disconnect, OrderedMap.erase_insert_of_not_mem hkey]

/-- One connection is made and taken out again; a loop is refused as one unless its input is
occupied. -/
theorem connect_lerpGraph :
    let c : Connection := ⟨⟨.ofNat 9⟩, ⟨.ofNat 3⟩, "Output", ⟨.ofNat 2⟩, "Input2"⟩
    let loop : Connection := { c with fromNode := c.toNode }
    let occupied : Connection := { loop with toSlot := "Input3" }
    lerpGraph.validate = .ok () ∧ lerpGraph.connection? c.id = none ∧
      lerpGraph.connect c = .ok (lerpGraph.appended c) ∧
      (lerpGraph.appended c).disconnect c.id = lerpGraph ∧
      lerpGraph.connect loop = .error .selfLoop ∧ lerpGraph.connected loop = lerpGraph ∧
      (lerpGraph.appended occupied).validate = .error (.inputOccupied "Input3") ∧
      lerpGraph.connect occupied = .error (.inputOccupied "Input3") := by
  intro c loop occupied
  obtain ⟨-, hdifferent, -, -, hundone⟩ := connect_agrees_with_validate lerpGraph c rfl rfl
  have hmade : lerpGraph.connect c = .ok (lerpGraph.appended c) :=
    ((hdifferent (by decide)).1 _).2 ⟨rfl, rfl⟩
  obtain ⟨-, -, hequal, hkept, -⟩ := connect_agrees_with_validate lerpGraph loop rfl rfl
  have hloop : lerpGraph.connect loop = .error .selfLoop :=
    ((hequal rfl).2 _).2 (.inr ⟨rfl, rfl⟩)
  obtain ⟨-, -, hequal', -, -⟩ := connect_agrees_with_validate lerpGraph occupied rfl rfl
  have hoccupied : lerpGraph.connect occupied = .error (.inputOccupied "Input3") :=
    ((hequal' rfl).2 _).2 (.inl rfl)
  exact ⟨rfl, rfl, hmade, (hundone _ hmade).2.2, hloop, hkept _ hloop, rfl, hoccupied⟩

end Connecting

end ShaderGraph.Graph
