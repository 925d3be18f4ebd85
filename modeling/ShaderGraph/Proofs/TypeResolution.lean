import ShaderGraph.Proofs.Graph.TopologicalOrder
import ShaderGraph.Proofs.Graph.WellFormed
import ShaderGraph.TypeResolution

/-!
# Resolved types

Resolution writes the types of a node once, when its place in the order comes, so the table in the
end holds what was computed there. Where nodes have slots of their kinds all of it are vectors.

* `lookup_rows` : what a table holds after the slots of a node were written to it;
* `get?_resolveTypes` : a slot of a node in the order has the type computed at that node;
* `exists_get?_resolveTypes` : every slot has a type;
* `get?_resolveTypes_self` : at every node the table is what its own types give there;
* `allVectors_resolveTypes` : every resolved type is a vector;
* `widest_dynamicWidth` : a dynamic output is as wide as the widest dynamic input;
* `Resolved`, `resolved_resolveTypes` : what emission relies on.
-/

namespace ShaderGraph

section Rows

variable {α : Type} {id : NodeId} {f : Slot → α} {l : List ((NodeId × String) × α)}

/-- What is written to a table for the slots of a node, the last one first. -/
def rows (id : NodeId) (slots : List Slot) (f : Slot → α) : List ((NodeId × String) × α) :=
  (slots.map fun s => ((id, s.name), f s)).reverse

theorem mem_rows {slots : List Slot} {e : (NodeId × String) × α} :
    e ∈ rows id slots f ↔ ∃ s ∈ slots, ((id, s.name), f s) = e := by
  simp [rows]

theorem rows_cons (s : Slot) (slots : List Slot) :
    rows id (s :: slots) f = rows id slots f ++ [((id, s.name), f s)] := by
  simp [rows]

theorem mem_of_lookup {k : NodeId × String} {a : α} (h : l.lookup k = some a) : (k, a) ∈ l := by
  obtain ⟨l₁, l₂, rfl, -⟩ := List.lookup_eq_some_iff.1 h
  simp

/-- A slot whose name no other slot has is found under it. -/
theorem lookup_rows {slots : List Slot} {s : Slot} (hs : s ∈ slots)
    (hname : ∀ s' ∈ slots, s'.name = s.name → s' = s) :
    (rows id slots f ++ l).lookup (id, s.name) = some (f s) := by
  rw [List.lookup_append]
  cases hrow : (rows id slots f).lookup (id, s.name) with
  | none =>
    have hnone := List.lookup_eq_none_iff.1 hrow _ (mem_rows.2 ⟨s, hs, rfl⟩)
    simp at hnone
  | some a =>
    obtain ⟨s', hs', heq⟩ := mem_rows.1 (mem_of_lookup hrow)
    obtain ⟨hkey, rfl⟩ := Prod.mk.inj heq
    rw [hname s' hs' (Prod.mk.inj hkey).2]
    rfl

theorem lookup_rows_of_ne {slots : List Slot} {id' : NodeId} (h : id' ≠ id) (name : String) :
    (rows id slots f ++ l).lookup (id', name) = l.lookup (id', name) := by
  have hnone : (rows id slots f).lookup (id', name) = none := by
    rw [List.lookup_eq_none_iff]
    intro e he
    obtain ⟨s, -, rfl⟩ := mem_rows.1 he
    simp [h]
  rw [List.lookup_append, hnone, Option.none_or]

/-- A name is found among the rows of some slots if one of them has it. -/
theorem isSome_lookup_rows (id : NodeId) (slots : List Slot) (f : Slot → α) (name : String) :
    ((rows id slots f).lookup (id, name)).isSome = slots.any (·.name = name) := by
  rw [Bool.eq_iff_iff, Option.isSome_iff_exists, List.any_eq_true]
  constructor
  · rintro ⟨a, ha⟩
    obtain ⟨s, hs, heq⟩ := mem_rows.1 (mem_of_lookup ha)
    obtain ⟨hkey, -⟩ := Prod.mk.inj heq
    exact ⟨s, hs, decide_eq_true (Prod.mk.inj hkey).2⟩
  · rintro ⟨s, hs, hname⟩
    obtain rfl := of_decide_eq_true hname
    by_contra hnone
    rw [← Option.isSome_iff_exists, Bool.not_eq_true, Option.isSome_eq_false_iff,
      Option.isNone_iff_eq_none, List.lookup_eq_none_iff] at hnone
    have habsent := hnone _ (mem_rows.2 ⟨s, hs, rfl⟩)
    simp at habsent

end Rows

section Maxima

theorem maximum?_mem {l : List ConcreteType} {t : ConcreteType}
    (h : ConcreteType.maximum? l = some t) : t ∈ l := by
  have key : ∀ (l : List ConcreteType) (u : ConcreteType), l.foldl ConcreteType.max u ∈ u :: l := by
    intro l
    induction l with
    | nil => simp
    | cons v l ih =>
      intro u
      have hmax : ConcreteType.max u v = u ∨ ConcreteType.max u v = v := by
        unfold ConcreteType.max
        split
        · exact .inr rfl
        · exact .inl rfl
      rw [List.foldl_cons]
      obtain hu | hv := hmax
      · rw [hu]
        have := ih u
        simp only [List.mem_cons] at this ⊢
        tauto
      · rw [hv]
        exact List.mem_cons_of_mem u (ih v)
  cases l with
  | nil => cases h
  | cons u l =>
    obtain rfl := Option.some.inj h
    exact key l u

theorem maximum?_eq_none {l : List ConcreteType} (h : ConcreteType.maximum? l = none) : l = [] := by
  cases l with
  | nil => rfl
  | cons t l => cases h

theorem rank_foldl_max (l : List ConcreteType) (u : ConcreteType) :
    ∀ t ∈ u :: l, t.rank ≤ (l.foldl ConcreteType.max u).rank := by
  induction l generalizing u with
  | nil => simp
  | cons v l ih =>
    intro t ht
    have hmax : u.rank ≤ (u.max v).rank ∧ v.rank ≤ (u.max v).rank := by
      unfold ConcreteType.max
      split <;> omega
    have hrest := ih (u.max v)
    rw [List.foldl_cons]
    rcases List.mem_cons.1 ht with rfl | ht
    · exact Nat.le_trans hmax.1 (hrest _ List.mem_cons_self)
    · rcases List.mem_cons.1 ht with rfl | ht
      · exact Nat.le_trans hmax.2 (hrest _ List.mem_cons_self)
      · exact hrest t (List.mem_cons_of_mem _ ht)

/-- The type is in the list, and no type there is wider. -/
def Widest (t : ConcreteType) (l : List ConcreteType) : Prop := t ∈ l ∧ ∀ u ∈ l, u.rank ≤ t.rank

theorem Widest.unique {t u : ConcreteType} {l : List ConcreteType} (ht : Widest t l)
    (hu : Widest u l) : t = u := by
  have hrank : t.rank = u.rank := Nat.le_antisymm (hu.2 t ht.1) (ht.2 u hu.1)
  cases t <;> cases u <;> first | rfl | exact absurd hrank (by decide)

theorem widest_maximum? {l : List ConcreteType} {t : ConcreteType}
    (h : ConcreteType.maximum? l = some t) : Widest t l := by
  refine ⟨maximum?_mem h, ?_⟩
  cases l with
  | nil => cases h
  | cons u l =>
    obtain rfl := Option.some.inj h
    exact rank_foldl_max l u

/-- The width of a list of types is the widest of them, or the given one if there are none. -/
theorem maximum?_getD_eq_iff {l : List ConcreteType} {d t : ConcreteType} :
    (ConcreteType.maximum? l).getD d = t ↔
      (t ∈ l ∨ l = [] ∧ t = d) ∧ ∀ u ∈ l, u.rank ≤ t.rank := by
  cases hmax : ConcreteType.maximum? l with
  | none =>
    rw [maximum?_eq_none hmax]
    simp [eq_comm]
  | some v =>
    have hwidest := widest_maximum? hmax
    rw [Option.getD_some]
    constructor
    · rintro rfl
      exact ⟨.inl hwidest.1, hwidest.2⟩
    · rintro ⟨ht | ⟨rfl, -⟩, hrank⟩
      · exact hwidest.unique ⟨ht, hrank⟩
      · cases hmax

end Maxima

namespace Graph

variable {g : Graph} {types : TypeTable} {n : Node} {id : NodeId} {order : List NodeId}

section Tables

theorem entries_foldl_insert (slots : List Slot) (f : Slot → ConcreteType) :
    (slots.foldl (fun t s => t.insert id s.name (f s)) types).entries =
      rows id slots f ++ types.entries := by
  induction slots generalizing types with
  | nil => rfl
  | cons s slots ih =>
    rw [List.foldl_cons, ih, rows_cons, List.append_assoc]
    rfl

theorem entries_resolveNode (hn : g.node? id = some n) :
    (resolveNode g types id).entries =
      rows id n.slots (slotType g types id n) ++ types.entries := by
  rw [resolveNode, hn]
  exact entries_foldl_insert n.slots _

theorem get?_resolveNode_of_ne {id' : NodeId} (h : id' ≠ id) (name : String) :
    (resolveNode g types id).get? id' name = types.get? id' name := by
  cases hn : g.node? id with
  | none => rw [resolveNode, hn]
  | some n =>
    rw [TypeTable.get?, entries_resolveNode hn, lookup_rows_of_ne h]
    rfl

theorem get?_foldl_resolveNode_of_not_mem (h : id ∉ order) (name : String) :
    (order.foldl (resolveNode g) types).get? id name = types.get? id name := by
  induction order generalizing types with
  | nil => rfl
  | cons id' order ih =>
    rw [List.mem_cons, not_or] at h
    rw [List.foldl_cons, ih h.2, get?_resolveNode_of_ne h.1]

/-- What the table holds for a node was written when its place came, from the types of the nodes
before it. -/
theorem get?_resolveTypes_rows {before after : List NodeId} (horder : (before ++ id :: after).Nodup)
    (hn : g.node? id = some n) (name : String) :
    (g.resolveTypes (before ++ id :: after)).get? id name =
      (rows id n.slots (slotType g (g.resolveTypes before) id n)).lookup (id, name) := by
  rw [List.nodup_append, List.nodup_cons] at horder
  have hbefore : id ∉ before := fun hmem => horder.2.2 id hmem id List.mem_cons_self rfl
  have hnew : (g.resolveTypes before).get? id name = none :=
    get?_foldl_resolveNode_of_not_mem hbefore name
  have hentries : (g.resolveTypes before).entries.lookup (id, name) = none := hnew
  rw [resolveTypes, List.foldl_append, List.foldl_cons,
    get?_foldl_resolveNode_of_not_mem horder.2.1.1, TypeTable.get?, entries_resolveNode hn,
    List.lookup_append, ← resolveTypes, hentries, Option.or_none]

/-- The type of a slot is the one computed at its node. -/
theorem get?_resolveTypes (hg : g.Shaped) {before after : List NodeId}
    (horder : (before ++ id :: after).Nodup) (hn : g.node? id = some n) {s : Slot}
    (hs : s ∈ n.slots) :
    (g.resolveTypes (before ++ id :: after)).get? id s.name =
      some (slotType g (g.resolveTypes before) id n s) := by
  have hname : ∀ s' ∈ n.slots, s'.name = s.name → s' = s := fun s' hs' h =>
    hg.eq_of_slot_name (OrderedMap.mem_values_of_get? hn) hs' hs h
  rw [get?_resolveTypes_rows horder hn, ← List.append_nil (rows ..), lookup_rows hs hname]

theorem concreteType_resolveTypes (hg : g.Shaped) {before after : List NodeId}
    (horder : (before ++ id :: after).Nodup) (hn : g.node? id = some n) {s : Slot}
    (hs : s ∈ n.slots) :
    (g.resolveTypes (before ++ id :: after)).concreteType n s =
      slotType g (g.resolveTypes before) id n s := by
  rw [TypeTable.concreteType, hg.keyed.id_of_node? hn, get?_resolveTypes hg horder hn hs]
  rfl

end Tables

section Fixpoint

/-- The types of a node are decided by what comes into it. -/
theorem slotType_congr {g' : Graph} {types' : TypeTable}
    (h : ∀ name, incomingType? g types id name = incomingType? g' types' id name) (n : Node) :
    slotType g types id n = slotType g' types' id n := by
  funext s
  have hwidth : dynamicWidth g types id n = dynamicWidth g' types' id n := by
    simp only [dynamicWidth, h]
  simp only [slotType, hwidth, h]

/-- What reaches a node is decided by the nodes before it. -/
theorem incomingType?_resolveTypes {before after : List NodeId}
    (horder : g.Finished (before ++ id :: after).reverse) (name : String) :
    incomingType? g (g.resolveTypes before) id name =
      incomingType? g (g.resolveTypes (before ++ id :: after)) id name := by
  refine Option.bind_congr fun c hc => ?_
  have hmem := horder.mem_before (feeds_of_connectionInto hc)
  have hrest : c.fromNode ∉ id :: after := fun hmem' =>
    (List.nodup_append.1 (List.nodup_reverse.1 horder.nodup)).2.2 _ hmem _ hmem' rfl
  have hget : (g.resolveTypes (before ++ id :: after)).get? c.fromNode c.fromSlot =
      (g.resolveTypes before).get? c.fromNode c.fromSlot := by
    rw [resolveTypes, List.foldl_append]
    exact get?_foldl_resolveNode_of_not_mem hrest c.fromSlot
  rw [hget]

/-- The table in the end is what its own types give at every node. -/
theorem get?_resolveTypes_self (horder : g.Finished order.reverse) (hid : id ∈ order)
    (hn : g.node? id = some n) (name : String) :
    (g.resolveTypes order).get? id name =
      (rows id n.slots (slotType g (g.resolveTypes order) id n)).lookup (id, name) := by
  obtain ⟨before, after, rfl⟩ := List.append_of_mem hid
  rw [get?_resolveTypes_rows (List.nodup_reverse.1 horder.nodup) hn,
    slotType_congr (incomingType?_resolveTypes horder) n]

/-- Every slot has a type in the end. -/
theorem exists_get?_resolveTypes (hg : g.Keyed) (horder : g.topologicalOrder = .ok order)
    (hn : n ∈ g.nodes.values) {slot : Slot} (hslot : slot ∈ n.slots) :
    ∃ t, (g.resolveTypes order).get? n.id slot.name = some t := by
  have hfound := hg.node?_id hn
  have hid := keys_subset_of_topologicalOrder horder (OrderedMap.mem_keys_of_get? hfound)
  rw [← Option.isSome_iff_exists,
    get?_resolveTypes_self (finished_of_topologicalOrder horder) hid hfound, isSome_lookup_rows,
    List.any_eq_true]
  exact ⟨slot, hslot, decide_eq_true rfl⟩

end Fixpoint

section Vectors

/-- Every type found so far is a vector. -/
def AllVectors (types : TypeTable) : Prop := ∀ e ∈ types.entries, e.2.isVector = true

theorem AllVectors.get? (h : AllVectors types) {name : String} {t : ConcreteType}
    (ht : types.get? id name = some t) : t.isVector = true :=
  h _ (mem_of_lookup ht)

theorem isVector_incomingType? (hg : g.Shaped) (h : AllVectors types) {name : String}
    {t : ConcreteType} (ht : incomingType? g types id name = some t) : t.isVector = true := by
  unfold incomingType? at ht
  obtain ⟨c, -, hc⟩ := Option.bind_eq_some_iff.1 ht
  obtain hfound | ⟨-, hdeclared⟩ := Option.or_eq_some_iff.1 hc
  · exact h.get? hfound
  · obtain ⟨s, hs, hst⟩ := Option.bind_eq_some_iff.1 hdeclared
    obtain ⟨m, hm, hms⟩ := Option.bind_eq_some_iff.1 hs
    exact hg.isVector_of_slot (OrderedMap.mem_values_of_get? hm) (List.mem_of_find?_eq_some hms) hst

theorem isVector_widest (l : List ConcreteType) :
    ((ConcreteType.maximum? (l.filter (·.isVector))).getD defaultDynamicType).isVector = true := by
  cases hmax : ConcreteType.maximum? (l.filter (·.isVector)) with
  | none => rfl
  | some t =>
    have hmem := maximum?_mem hmax
    rw [List.mem_filter] at hmem
    exact hmem.2

theorem isVector_dynamicWidth : (dynamicWidth g types id n).isVector = true := isVector_widest _

theorem isVector_slotType (hg : g.Shaped) (h : AllVectors types) (hn : n ∈ g.nodes.values)
    {s : Slot} (hs : s ∈ n.slots) : (slotType g types id n s).isVector = true := by
  unfold slotType
  cases htype : s.type with
  | fixed t =>
    refine hg.isVector_of_slot hn hs (t := t) ?_
    rw [htype]
    rfl
  | dynamic =>
    simp only
    split
    · cases hin : incomingType? g types id s.name with
      | none => exact isVector_dynamicWidth
      | some t => exact isVector_incomingType? hg h hin
    · exact isVector_dynamicWidth

theorem AllVectors.resolveNode (hg : g.Shaped) (h : AllVectors types) (id : NodeId) :
    AllVectors (resolveNode g types id) := by
  cases hn : g.node? id with
  | none =>
    rw [Graph.resolveNode, hn]
    exact h
  | some n =>
    intro e he
    rw [entries_resolveNode hn, List.mem_append] at he
    obtain he | he := he
    · obtain ⟨s, hs, rfl⟩ := mem_rows.1 he
      exact isVector_slotType hg h (OrderedMap.mem_values_of_get? hn) hs
    · exact h e he

theorem allVectors_resolveTypes (hg : g.Shaped) (order : List NodeId) :
    AllVectors (g.resolveTypes order) := by
  have key : ∀ types, AllVectors types → AllVectors (order.foldl (Graph.resolveNode g) types) := by
    induction order with
    | nil => exact fun types h => h
    | cons id order ih => exact fun types h => ih _ (h.resolveNode hg id)
  exact key .empty fun e he => by cases he

end Vectors

section Resolved

/-- The table gives every slot of the node a vector type, and the declared one if there is one. -/
structure Resolved (types : TypeTable) (n : Node) : Prop where
  found : ∀ s ∈ n.slots, types.get? n.id s.name = some (types.concreteType n s)
  isVector : ∀ s ∈ n.slots, (types.concreteType n s).isVector = true
  declared : ∀ s ∈ n.slots, ∀ t, s.type = .fixed t → types.concreteType n s = t

theorem resolved_resolveTypes (hg : g.Shaped) (horder : order.Nodup) (hid : id ∈ order)
    (hn : g.node? id = some n) : Resolved (g.resolveTypes order) n := by
  obtain ⟨before, after, rfl⟩ := List.append_of_mem hid
  refine ⟨fun s hs => ?_, fun s hs => ?_, fun s hs t ht => ?_⟩
  · rw [concreteType_resolveTypes hg horder hn hs, hg.keyed.id_of_node? hn]
    exact get?_resolveTypes hg horder hn hs
  · rw [concreteType_resolveTypes hg horder hn hs]
    exact isVector_slotType hg (allVectors_resolveTypes hg before)
      (OrderedMap.mem_values_of_get? hn) hs
  · rw [concreteType_resolveTypes hg horder hn hs, slotType, ht]

end Resolved

end Graph

end ShaderGraph
