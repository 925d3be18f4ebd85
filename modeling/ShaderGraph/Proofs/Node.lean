import Mathlib.Data.List.Nodup
import Mathlib.Data.List.Sort
import ShaderGraph.Node
import ShaderGraph.Proofs.Graph.WellFormed

/-!
# Slots found and brought in line

Slots of a node are found by name, and where names are distinct each of them is. When the slots are
brought in line with the kind of the node, each required slot takes the place of the first slot of
its name. Slots of distinct names become exactly the required ones; where a name is repeated the
later ones stay, as they are.

* `Node.slot?_eq_some`, `Node.output?_eq_some`, `Node.input?_eq_some` : what is found;
* `Node.slot?_of_mem` : a slot among distinct names is found under its own;
* `Node.named_putSlot_self`, `Node.named_putSlot_of_ne` : what putting a slot in does to a name;
* `Node.syncedSlots_eq_flatMap`, `Node.syncedSlots_eq` : any slots and slots of distinct names, put
  in line;
* `Node.syncedSlots_syncedSlots` : slots that are in line stay;
* `Node.syncedSlots_eq_insertionSort` : adding, dropping and sorting one after the other;
* `Node.slots_ofKind` : a new node has the slots its kind requires;
* `Node.syncSlots_exact` : the whole synchronisation.
-/

namespace ShaderGraph

/-- A slot has one of the two directions. -/
theorem Slot.isInput_eq_not_isOutput (s : Slot) : s.isInput = !s.isOutput := by
  rcases hs : s.direction <;> simp [isInput, isOutput, hs]

namespace Node

variable {required slots : List Slot} {s t : Slot} {name : String}

section Find

variable {n : Node}

theorem slot?_eq_some (h : n.slot? name = some s) : s ∈ n.slots ∧ s.name = name :=
  ⟨List.mem_of_find?_eq_some h, by simpa using List.find?_some h⟩

theorem output?_eq_some (h : n.output? name = some s) :
    s ∈ n.slots ∧ s.isOutput = true ∧ s.name = name :=
  ⟨List.mem_of_find?_eq_some h, by simpa using List.find?_some h⟩

theorem input?_eq_some (h : n.input? name = some s) :
    s ∈ n.slots ∧ s.isInput = true ∧ s.name = name :=
  ⟨List.mem_of_find?_eq_some h, by simpa using List.find?_some h⟩

theorem slot?_of_mem (hnames : (n.slots.map (·.name)).Nodup) (hs : s ∈ n.slots) :
    n.slot? s.name = some s := by
  rw [slot?, ← List.head?_filter, filter_key_eq hnames hs]
  rfl

theorem mem_inputs_of_not_mem_outputs (hs : s ∈ n.slots) (h : s ∉ n.outputs) : s ∈ n.inputs := by
  rw [outputs, List.mem_filter, not_and] at h
  rw [inputs, List.mem_filter, Slot.isInput_eq_not_isOutput]
  exact ⟨hs, by simpa using h hs⟩

end Find

section Put

/-- The slots of a name, in order. -/
def named (name : String) (l : List Slot) : List Slot := l.filter (·.name = name)

theorem named_cons_self (l : List Slot) : named s.name (s :: l) = s :: named s.name l := by
  simp [named]

theorem named_cons_of_ne {l : List Slot} (h : t.name ≠ name) :
    named name (t :: l) = named name l := by
  simp [named, h]

/-- A slot that is put in stands for the first one of its name. -/
theorem named_putSlot_self (s : Slot) (l : List Slot) :
    named s.name (putSlot s l) = s :: (named s.name l).tail := by
  induction l with
  | nil => simp [putSlot, named]
  | cons t l ih =>
    rw [putSlot]
    by_cases h : t.name = s.name
    · have hhead : named s.name (t :: l) = t :: named s.name l := h ▸ named_cons_self l
      rw [if_pos h, named_cons_self, hhead, List.tail_cons]
    · rw [if_neg h, named_cons_of_ne h, named_cons_of_ne h, ih]

theorem named_putSlot_of_ne (h : s.name ≠ name) (l : List Slot) :
    named name (putSlot s l) = named name l := by
  induction l with
  | nil => simp [putSlot, named, h]
  | cons t l ih =>
    rw [putSlot]
    by_cases ht : t.name = s.name
    · rw [if_pos ht, named_cons_of_ne h, named_cons_of_ne (ht ▸ h)]
    · rw [if_neg ht]
      by_cases htn : t.name = name
      · subst htn
        rw [named_cons_self, named_cons_self, ih]
      · rw [named_cons_of_ne htn, named_cons_of_ne htn, ih]

/-- Putting in the slot that is found under its name changes nothing. -/
theorem putSlot_of_head? {l : List Slot} (h : (named s.name l).head? = some s) :
    putSlot s l = l := by
  induction l with
  | nil => simp [named] at h
  | cons t l ih =>
    rw [putSlot]
    by_cases ht : t.name = s.name
    · rw [← ht, named_cons_self, List.head?_cons] at h
      obtain rfl := Option.some.inj h
      rw [if_pos ht]
    · rw [named_cons_of_ne ht] at h
      rw [if_neg ht, ih h]

/-- The slots after the required ones were put in. -/
def withRequired (required slots : List Slot) : List Slot :=
  required.foldl (fun l s => putSlot s l) slots

theorem named_withRequired_of_not_mem (h : name ∉ required.map (·.name)) :
    named name (withRequired required slots) = named name slots := by
  induction required generalizing slots with
  | nil => rfl
  | cons d required ih =>
    rw [List.map_cons, List.mem_cons, not_or] at h
    have hrest : named name (withRequired required (putSlot d slots)) = _ := ih h.2
    exact hrest.trans (named_putSlot_of_ne (Ne.symm h.1) slots)

theorem named_withRequired (hrequired : (required.map (·.name)).Nodup) (hs : s ∈ required) :
    named s.name (withRequired required slots) = s :: (named s.name slots).tail := by
  induction required generalizing slots with
  | nil => cases hs
  | cons d required ih =>
    rw [List.map_cons, List.nodup_cons] at hrequired
    show named s.name (withRequired required (putSlot d slots)) = _
    rcases List.mem_cons.1 hs with rfl | hs
    · rw [named_withRequired_of_not_mem hrequired.1, named_putSlot_self]
    · have hne : d.name ≠ s.name := fun e => hrequired.1 (e ▸ List.mem_map_of_mem hs)
      rw [ih hrequired.2 hs, named_putSlot_of_ne hne]

end Put

section Sync

/-- Every required slot takes the place of the first slot of its name, and the others of its name
come after it. -/
theorem syncedSlots_eq_flatMap (hrequired : (required.map (·.name)).Nodup) (slots : List Slot) :
    syncedSlots required slots = required.flatMap fun d => d :: (named d.name slots).tail := by
  show required.flatMap (fun d => named d.name (withRequired required slots)) = _
  exact List.flatMap_congr fun d hd => named_withRequired hrequired hd

theorem syncedSlots_eq (hrequired : (required.map (·.name)).Nodup)
    (hslots : (slots.map (·.name)).Nodup) : syncedSlots required slots = required := by
  have htail : ∀ d ∈ required, d :: (named d.name slots).tail = [d] := by
    intro d _
    have hone : (named d.name slots).length ≤ 1 := by
      have hcount := List.nodup_iff_count_le_one.1 hslots d.name
      rwa [List.count, List.countP_map, List.countP_eq_length_filter] at hcount
    have hnil : (named d.name slots).tail = [] := by
      rw [← List.length_eq_zero_iff, List.length_tail]
      omega
    rw [hnil]
  rw [syncedSlots_eq_flatMap hrequired, List.flatMap_congr htail]
  simp

theorem slots_ofKind (id : NodeId) (kind : NodeKind) :
    (ofKind id kind).slots = kind.requiredSlots :=
  syncedSlots_eq (nodup_requiredSlots kind) List.nodup_nil

theorem named_named_self (name : String) (l : List Slot) :
    named name (named name l) = named name l := by
  simp [named]

theorem named_named_of_ne {name' : String} (h : name ≠ name') (l : List Slot) :
    named name (named name' l) = [] := by
  rw [named, named, List.filter_filter, List.filter_eq_nil_iff]
  intro t _ ht
  simp only [Bool.and_eq_true, decide_eq_true_eq] at ht
  exact h (ht.1.symm.trans ht.2)

/-- Taken name by name, the slots of a listed name stay together as they were. -/
theorem named_flatMap_named (hrequired : (required.map (·.name)).Nodup) (hs : s ∈ required)
    (l : List Slot) :
    named s.name (required.flatMap fun d => named d.name l) = named s.name l := by
  have happend : ∀ a b : List Slot, named s.name (a ++ b) = named s.name a ++ named s.name b :=
    fun a b => List.filter_append a b
  have hother : ∀ ds : List Slot, s.name ∉ ds.map (·.name) →
      named s.name (ds.flatMap fun d => named d.name l) = [] := by
    intro ds hds
    induction ds with
    | nil => rfl
    | cons d ds ih =>
      rw [List.map_cons, List.mem_cons, not_or] at hds
      rw [List.flatMap_cons, happend, named_named_of_ne hds.1, ih hds.2, List.append_nil]
  induction required with
  | nil => cases hs
  | cons d required ih =>
    rw [List.map_cons, List.nodup_cons] at hrequired
    rw [List.flatMap_cons, happend]
    rcases List.mem_cons.1 hs with rfl | hs
    · rw [named_named_self, hother required hrequired.1, List.append_nil]
    · have hne : s.name ≠ d.name := fun e => hrequired.1 (e ▸ List.mem_map_of_mem hs)
      rw [named_named_of_ne hne, List.nil_append, ih hrequired.2 hs]

/-- Slots in line stay as they are, also where a name is repeated among them. -/
theorem syncedSlots_syncedSlots (hrequired : (required.map (·.name)).Nodup) (slots : List Slot) :
    syncedSlots required (syncedSlots required slots) = syncedSlots required slots := by
  have hnamed : ∀ s ∈ required, named s.name (syncedSlots required slots) =
      named s.name (withRequired required slots) := fun s hs =>
    named_flatMap_named hrequired hs (withRequired required slots)
  have hpresent : ∀ ds ⊆ required, withRequired ds (syncedSlots required slots) =
      syncedSlots required slots := by
    intro ds hds
    induction ds with
    | nil => rfl
    | cons d ds ih =>
      rw [List.cons_subset] at hds
      have hhead : (named d.name (syncedSlots required slots)).head? = some d := by
        rw [hnamed d hds.1, named_withRequired hrequired hds.1, List.head?_cons]
      show withRequired ds (putSlot d (syncedSlots required slots)) = _
      rw [putSlot_of_head? hhead, ih hds.2]
  show required.flatMap (fun d => named d.name (withRequired required _)) = _
  rw [hpresent required (List.Subset.refl required)]
  exact List.flatMap_congr hnamed

end Sync

section Order

/-- The place of a slot in the order of the required ones. -/
def place (required : List Slot) (s : Slot) : ℕ := (required.map (·.name)).idxOf s.name

theorem place_lt_of_mem_before {before after : List Slot} {d : Slot}
    (h : ((before ++ d :: after).map (·.name)).Nodup) (hs : s.name ∈ before.map (·.name)) :
    place (before ++ d :: after) s < place (before ++ d :: after) d := by
  rw [List.map_append, List.map_cons] at h
  have hd : d.name ∉ before.map (·.name) := fun hd =>
    (List.nodup_append.1 h).2.2 _ hd _ List.mem_cons_self rfl
  rw [place, place, List.map_append, List.map_cons, List.idxOf_append_of_mem hs,
    List.idxOf_append_of_notMem hd, List.idxOf_cons_self]
  have := List.idxOf_lt_length_of_mem hs
  omega

theorem place_le_of_not_mem_before {before after : List Slot} {d : Slot}
    (hs : s.name ∉ before.map (·.name)) :
    place (before ++ d :: after) d ≤ place (before ++ d :: after) s := by
  rw [place, place, List.map_append, List.map_cons, List.idxOf_append_of_notMem hs]
  by_cases hd : d.name ∈ before.map (·.name)
  · have := List.idxOf_lt_length_of_mem hd
    rw [List.idxOf_append_of_mem hd]
    omega
  · rw [List.idxOf_append_of_notMem hd, List.idxOf_cons_self]
    omega

theorem orderedInsert_append {α : Type} {r : α → α → Prop} [DecidableRel r] {a : α}
    {low high : List α} (hlow : ∀ b ∈ low, ¬ r a b) (hhigh : ∀ b ∈ high, r a b) :
    (low ++ high).orderedInsert r a = low ++ a :: high := by
  induction low with
  | nil =>
    cases high with
    | nil => rfl
    | cons b high => exact List.orderedInsert_cons_of_le r high (hhigh b List.mem_cons_self)
  | cons b low ih =>
    rw [List.forall_mem_cons] at hlow
    rw [List.cons_append, List.orderedInsert_of_not_le r _ hlow.1, ih hlow.2, List.cons_append]

theorem name_of_mem_flatMap_named {ds l : List Slot} (h : s ∈ ds.flatMap fun d => named d.name l) :
    s.name ∈ ds.map (·.name) := by
  obtain ⟨d, hd, hs⟩ := List.mem_flatMap.1 h
  have hname : s.name = d.name := of_decide_eq_true (List.mem_filter.1 hs).2
  exact hname ▸ List.mem_map_of_mem hd

/-- Slots of required names, taken name by name, are a stable sort of them by place. -/
theorem insertionSort_place (hrequired : (required.map (·.name)).Nodup) {l : List Slot}
    (hl : ∀ t ∈ l, t.name ∈ required.map (·.name)) :
    l.insertionSort (fun s t => place required s ≤ place required t) =
      required.flatMap fun d => named d.name l := by
  induction l with
  | nil => simp [named]
  | cons t l ih =>
    rw [List.forall_mem_cons] at hl
    obtain ⟨d, hd, hname⟩ := List.mem_map.1 hl.1
    obtain ⟨before, after, rfl⟩ := List.append_of_mem hd
    have hnames := hrequired
    rw [List.map_append, List.map_cons, List.nodup_append, List.nodup_cons] at hnames
    obtain ⟨-, ⟨hafter, -⟩, hbefore⟩ := hnames
    -- `t` joins the slots of its name and no others
    have hothers : ∀ ds : List Slot, d.name ∉ ds.map (·.name) →
        ds.flatMap (fun e => named e.name (t :: l)) = ds.flatMap fun e => named e.name l := by
      intro ds hds
      refine List.flatMap_congr fun e he => named_cons_of_ne ?_
      rw [← hname]
      exact fun heq => hds (heq ▸ List.mem_map_of_mem he)
    have hown : named d.name (t :: l) = t :: named d.name l := hname ▸ named_cons_self l
    have hplace : place (before ++ d :: after) t = place (before ++ d :: after) d := by
      rw [place, place, hname]
    have hlow : ∀ u ∈ before.flatMap fun e => named e.name l,
        ¬ place (before ++ d :: after) t ≤ place (before ++ d :: after) u := by
      intro u hu
      have hlt := place_lt_of_mem_before hrequired (name_of_mem_flatMap_named hu)
      omega
    have hhigh : ∀ u ∈ (d :: after).flatMap fun e => named e.name l,
        place (before ++ d :: after) t ≤ place (before ++ d :: after) u := by
      intro u hu
      rw [hplace]
      refine place_le_of_not_mem_before fun hmem => ?_
      exact hbefore _ hmem _ (name_of_mem_flatMap_named hu) rfl
    have hfront : d.name ∉ before.map (·.name) := fun hmem =>
      hbefore _ hmem _ List.mem_cons_self rfl
    rw [List.insertionSort_cons, ih hl.2, List.flatMap_append, orderedInsert_append hlow hhigh,
      List.flatMap_append, hothers before hfront, List.flatMap_cons, List.flatMap_cons,
      hothers after hafter, hown, List.cons_append]

/-- The steps of the synchronisation one after the other: every required slot is added, the slots of
other names are dropped, and what is left is sorted by place, slots of one name in their order. -/
theorem syncedSlots_eq_insertionSort (n : Node) (hrequired : (required.map (·.name)).Nodup) :
    syncedSlots required n.slots =
      ((required.foldl addSlot n).keepSlots (required.map (·.name))).1.slots.insertionSort
        (fun s t => place required s ≤ place required t) := by
  have hadded : ∀ (ds : List Slot) (m : Node),
      (ds.foldl addSlot m).slots = withRequired ds m.slots := by
    intro ds
    induction ds with
    | nil => exact fun m => rfl
    | cons d ds ih => exact fun m => ih (m.addSlot d)
  show required.flatMap (fun d => named d.name (withRequired required n.slots)) = _
  have hkept : ((required.foldl addSlot n).keepSlots (required.map (·.name))).1.slots =
      (withRequired required n.slots).filter
        fun s => (required.map (·.name)).contains s.name := by
    rw [← hadded]
    rfl
  rw [hkept, insertionSort_place hrequired]
  · refine List.flatMap_congr fun d hd => ?_
    rw [named, named, List.filter_filter]
    refine List.filter_congr fun s _ => ?_
    by_cases hs : s.name = d.name
    · have hmem : d.name ∈ required.map (·.name) := List.mem_map_of_mem hd
      rw [hs, List.contains_iff_mem.2 hmem, Bool.and_true]
    · rw [decide_eq_false hs, Bool.false_and]
  · intro t ht
    exact List.contains_iff_mem.1 (List.mem_filter.1 ht).2

end Order

section Exactness

/-- **The slots of a node are brought in line with its kind exactly.** The required slots are added,
others are dropped, and the rest is sorted by place; nothing else of the node changes. Where names
were distinct the slots are then those that the kind requires, in their order and with their
directions and types. The answer is whether the slots differ from those before. Doing it again
changes nothing, also where names are repeated. -/
theorem syncSlots_exact (n : Node) :
    (∃ sorted, n.syncSlots.1 = { n with slots := sorted } ∧
      sorted = ((n.kind.requiredSlots.foldl addSlot n).keepSlots
        (n.kind.requiredSlots.map (·.name))).1.slots.insertionSort
          (fun s t => place n.kind.requiredSlots s ≤ place n.kind.requiredSlots t)) ∧
      ((n.slots.map (·.name)).Nodup → n.syncSlots.1.slots = n.kind.requiredSlots) ∧
      (n.syncSlots.2 = true ↔ n.syncSlots.1.slots ≠ n.slots) ∧
      n.syncSlots.1.syncSlots = (n.syncSlots.1, false) := by
  have hrequired := nodup_requiredSlots n.kind
  refine ⟨⟨_, rfl, syncedSlots_eq_insertionSort n hrequired⟩, syncedSlots_eq hrequired, ?_, ?_⟩
  · exact bne_iff_ne
  · have hagain : n.syncSlots.1.syncSlots.1.slots = n.syncSlots.1.slots :=
      syncedSlots_syncedSlots hrequired n.slots
    have hsame : n.syncSlots.1.syncSlots.1 = n.syncSlots.1 := by
      show { n.syncSlots.1 with slots := n.syncSlots.1.syncSlots.1.slots } = n.syncSlots.1
      rw [hagain]
    have hanswer : n.syncSlots.1.syncSlots.2 = false := by
      show (n.syncSlots.1.syncSlots.1.slots != n.syncSlots.1.slots) = false
      rw [hagain, bne_self_eq_false]
    exact Prod.ext hsame hanswer

/-- An interpolation whose result has become an input, with a slot too many and two too few. -/
def shuffledNode : Node :=
  ⟨⟨.ofNat 1⟩, 0, "Mix", .function .lerp,
    [⟨"Output", .input, .fixed .texture2D⟩, ⟨"Extra", .output, .dynamic⟩,
      ⟨"Input2", .input, .fixed .vector2⟩]⟩

theorem syncSlots_shuffledNode :
    (shuffledNode.slots.map (·.name)).Nodup ∧
      shuffledNode.syncSlots.1.slots = (NodeKind.function .lerp).requiredSlots ∧
      shuffledNode.syncSlots.2 = true ∧
      shuffledNode.syncSlots.1.syncSlots = (shuffledNode.syncSlots.1, false) := by
  have hnames : (shuffledNode.slots.map (·.name)).Nodup := by decide
  obtain ⟨-, hexact, hanswer, hagain⟩ := syncSlots_exact shuffledNode
  have hdiffers : (NodeKind.function .lerp).requiredSlots ≠ shuffledNode.slots := by decide
  refine ⟨hnames, hexact hnames, hanswer.2 ?_, hagain⟩
  rw [hexact hnames]
  exact hdiffers

end Exactness

end Node

end ShaderGraph
