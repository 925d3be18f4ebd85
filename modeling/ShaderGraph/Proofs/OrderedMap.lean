import Mathlib.Data.List.Nodup
import ShaderGraph.OrderedMap

/-!
# Looking things up in an insertion-ordered map

A look-up finds exactly the entries of the map, and every write is described by the entries that
are there afterwards.

* `filter_key_eq` : the element of a key, where keys are distinct;
* `get?_eq_some_iff` : looking up is membership of an entry;
* `mem_entries_insert`, `mem_entries_filter` : the entries after a write;
* `entries_insert_of_not_mem`, `erase_insert_of_not_mem` : a new key, put in and taken out again;
* `mem_values_insert` : the values after a write;
* `ofEntries_entries` : a map is made of its entries.
-/

namespace ShaderGraph

/-- Where keys are distinct, the elements of a key are the one that has it. -/
theorem filter_key_eq {α κ : Type} [DecidableEq κ] {key : α → κ} {a : α} :
    ∀ {l : List α}, (l.map key).Nodup → a ∈ l → l.filter (fun b => key b = key a) = [a]
  | [], _, ha => by cases ha
  | b :: l, hl, ha => by
    rw [List.map_cons, List.nodup_cons] at hl
    rcases List.mem_cons.1 ha with rfl | ha
    · have hrest : l.filter (fun b => key b = key a) = [] := by
        rw [List.filter_eq_nil_iff]
        intro c hc hkey
        exact hl.1 (List.mem_map.2 ⟨c, hc, of_decide_eq_true hkey⟩)
      simp [hrest]
    · have hne : key b ≠ key a := by
        intro hkey
        rw [hkey] at hl
        exact hl.1 (List.mem_map_of_mem ha)
      rw [List.filter_cons_of_neg (by simpa using hne), filter_key_eq hl.2 ha]

namespace OrderedMap

variable {κ α : Type}

section Views

theorem mem_values_iff {m : OrderedMap κ α} {a : α} : a ∈ m.values ↔ ∃ k, (k, a) ∈ m.entries := by
  simp [values]

theorem mem_keys_iff {m : OrderedMap κ α} {k : κ} : k ∈ m.keys ↔ ∃ a, (k, a) ∈ m.entries := by
  simp [keys]

theorem eq_of_entries {m m' : OrderedMap κ α} (h : m.entries = m'.entries) : m = m' := by
  cases m
  cases m'
  cases h
  rfl

theorem nodup_keys (m : OrderedMap κ α) : m.keys.Nodup := m.nodup

end Views

variable [DecidableEq κ]

section Lookup

theorem lookup_eq_some_iff {l : List (κ × α)} (hl : (l.map Prod.fst).Nodup) {k : κ} {a : α} :
    l.lookup k = some a ↔ (k, a) ∈ l := by
  induction l with
  | nil => simp
  | cons e rest ih =>
    obtain ⟨k', a'⟩ := e
    rw [List.map_cons, List.nodup_cons] at hl
    by_cases hk : k = k'
    · subst hk
      have hnot : (k, a) ∉ rest := fun h => hl.1 (List.mem_map.2 ⟨_, h, rfl⟩)
      simp [hnot, eq_comm]
    · have hb : (k == k') = false := by simpa using hk
      simp [List.lookup_cons, hb, hk, ih hl.2]

theorem get?_eq_some_iff {m : OrderedMap κ α} {k : κ} {a : α} :
    m.get? k = some a ↔ (k, a) ∈ m.entries :=
  lookup_eq_some_iff m.nodup

theorem get?_eq_none_iff {m : OrderedMap κ α} {k : κ} : m.get? k = none ↔ k ∉ m.keys := by
  rw [mem_keys_iff, Option.eq_none_iff_forall_ne_some]
  simp [get?_eq_some_iff]

theorem lookup_map_snd (f : κ → α → α) (l : List (κ × α)) (k : κ) :
    (l.map fun e => (e.1, f e.1 e.2)).lookup k = (l.lookup k).map (f k) := by
  induction l with
  | nil => rfl
  | cons e rest ih =>
    rw [List.map_cons, List.lookup_cons, List.lookup_cons, ih]
    cases hk : k == e.1 with
    | false => rfl
    | true => rw [eq_of_beq hk, Option.map_some]

theorem mem_keys_of_get? {m : OrderedMap κ α} {k : κ} {a : α} (h : m.get? k = some a) :
    k ∈ m.keys :=
  mem_keys_iff.2 ⟨a, get?_eq_some_iff.1 h⟩

theorem exists_get?_of_mem_keys {m : OrderedMap κ α} {k : κ} (h : k ∈ m.keys) :
    ∃ a, m.get? k = some a := by
  obtain ⟨a, hentry⟩ := mem_keys_iff.1 h
  exact ⟨a, get?_eq_some_iff.2 hentry⟩

theorem mem_values_of_get? {m : OrderedMap κ α} {k : κ} {a : α} (h : m.get? k = some a) :
    a ∈ m.values :=
  mem_values_iff.2 ⟨k, get?_eq_some_iff.1 h⟩

end Lookup

section Writes

theorem mem_put {l : List (κ × α)} (hl : (l.map Prod.fst).Nodup) {k : κ} {a : α} {e : κ × α} :
    e ∈ put k a l ↔ e = (k, a) ∨ (e ∈ l ∧ e.1 ≠ k) := by
  induction l with
  | nil => simp [put]
  | cons e' rest ih =>
    obtain ⟨k', a'⟩ := e'
    rw [List.map_cons, List.nodup_cons] at hl
    by_cases hk : k' = k
    · subst hk
      -- the key stands here, so it stands nowhere in the rest
      have hrest : ∀ e ∈ rest, e.1 ≠ k' := fun e he h => hl.1 (List.mem_map.2 ⟨e, he, h⟩)
      simp only [put, if_true, List.mem_cons]
      constructor
      · rintro (rfl | he)
        · exact Or.inl rfl
        · exact Or.inr ⟨Or.inr he, hrest e he⟩
      · rintro (rfl | ⟨rfl | he, hne⟩)
        · exact Or.inl rfl
        · exact absurd rfl hne
        · exact Or.inr he
    · simp only [put, if_neg hk, List.mem_cons, ih hl.2]
      constructor
      · rintro (rfl | rfl | ⟨he, hne⟩)
        · exact Or.inr ⟨Or.inl rfl, hk⟩
        · exact Or.inl rfl
        · exact Or.inr ⟨Or.inr he, hne⟩
      · rintro (rfl | ⟨rfl | he, hne⟩)
        · exact Or.inr (Or.inl rfl)
        · exact Or.inl rfl
        · exact Or.inr (Or.inr ⟨he, hne⟩)

theorem mem_entries_insert {m : OrderedMap κ α} {k : κ} {a : α} {e : κ × α} :
    e ∈ (m.insert k a).entries ↔ e = (k, a) ∨ (e ∈ m.entries ∧ e.1 ≠ k) :=
  mem_put m.nodup

omit [DecidableEq κ] in
theorem mem_entries_filter {m : OrderedMap κ α} {p : κ → α → Bool} {e : κ × α} :
    e ∈ (m.filter p).entries ↔ e ∈ m.entries ∧ p e.1 e.2 = true := by
  simp [filter]

theorem get?_insert_self {m : OrderedMap κ α} {k : κ} {a : α} : (m.insert k a).get? k = some a :=
  get?_eq_some_iff.2 (mem_entries_insert.2 (.inl rfl))

theorem get?_insert_of_ne {m : OrderedMap κ α} {k k' : κ} (hne : k' ≠ k) (a : α) :
    (m.insert k a).get? k' = m.get? k' := by
  ext b
  rw [get?_eq_some_iff, get?_eq_some_iff, mem_entries_insert]
  simp [hne]

theorem get?_erase_of_ne {m : OrderedMap κ α} {k k' : κ} (hne : k' ≠ k) :
    (m.erase k).get? k' = m.get? k' := by
  ext b
  rw [get?_eq_some_iff, get?_eq_some_iff, erase, mem_entries_filter]
  simp [hne]

theorem get?_modify {m : OrderedMap κ α} {k k' : κ} {f : α → α} :
    (m.modify k f).get? k' = if k' = k then (m.get? k').map f else m.get? k' := by
  refine (lookup_map_snd (fun k' a => if k' = k then f a else a) m.entries k').trans ?_
  split_ifs with hk
  · rfl
  · exact Option.map_id'

theorem get?_modify_self {m : OrderedMap κ α} {k : κ} {a b : α} (h : m.get? k = some a) :
    (m.modify k fun _ => b).get? k = some b := by
  rw [get?_modify, if_pos rfl, h, Option.map_some]

theorem get?_modify_of_ne {m : OrderedMap κ α} {k k' : κ} (hne : k' ≠ k) (f : α → α) :
    (m.modify k f).get? k' = m.get? k' := by
  rw [get?_modify, if_neg hne]

theorem keys_modify (m : OrderedMap κ α) (k : κ) (f : α → α) : (m.modify k f).keys = m.keys :=
  map_fst_map_snd (fun k' a => if k' = k then f a else a) m.entries

theorem mem_values_modify {m : OrderedMap κ α} {k : κ} {f : α → α} {a : α}
    (h : a ∈ (m.modify k f).values) : a ∈ m.values ∨ ∃ b ∈ m.values, a = f b := by
  simp only [values, modify, List.map_map, List.mem_map, Function.comp_apply] at h
  obtain ⟨e, he, rfl⟩ := h
  have hmem : e.2 ∈ m.values := List.mem_map_of_mem he
  split_ifs
  · exact .inr ⟨e.2, hmem, rfl⟩
  · exact .inl hmem

/-- Changing a value leaves every image of it that the new value shares. -/
theorem map_values_modify {β : Type} {m : OrderedMap κ α} {k : κ} {a b : α} {f : α → β}
    (ha : m.get? k = some a) (hf : f b = f a) :
    (m.modify k fun _ => b).values.map f = m.values.map f := by
  simp only [values, modify, List.map_map]
  refine List.map_congr_left fun e he => ?_
  by_cases hk : e.1 = k
  · obtain rfl : e.2 = a := Option.some.inj ((get?_eq_some_iff.2 (hk ▸ he)).symm.trans ha)
    simp [hk, hf]
  · simp [hk]

/-- A new key goes to the end. -/
theorem put_of_not_mem {l : List (κ × α)} {k : κ} (h : k ∉ l.map Prod.fst) (a : α) :
    put k a l = l ++ [(k, a)] := by
  induction l with
  | nil => rfl
  | cons e rest ih =>
    rw [List.map_cons, List.mem_cons, not_or] at h
    simp [put, Ne.symm h.1, ih h.2]

theorem entries_insert_of_not_mem {m : OrderedMap κ α} {k : κ} {a : α} (h : k ∉ m.keys) :
    (m.insert k a).entries = m.entries ++ [(k, a)] :=
  put_of_not_mem h a

theorem keys_insert_of_not_mem {m : OrderedMap κ α} {k : κ} {a : α} (h : k ∉ m.keys) :
    (m.insert k a).keys = m.keys ++ [k] := by
  rw [keys, entries_insert_of_not_mem h, List.map_append]
  rfl

theorem values_insert_of_not_mem {m : OrderedMap κ α} {k : κ} {a : α} (h : k ∉ m.keys) :
    (m.insert k a).values = m.values ++ [a] := by
  rw [values, entries_insert_of_not_mem h, List.map_append]
  rfl

/-- Taking a new entry out again restores the map. -/
theorem erase_insert_of_not_mem {m : OrderedMap κ α} {k : κ} {a : α} (h : k ∉ m.keys) :
    (m.insert k a).erase k = m := by
  refine eq_of_entries ?_
  have hold : ∀ e ∈ m.entries, (e.1 != k) = true := by
    intro e he
    have hne : e.1 ≠ k := fun hk => h (hk ▸ List.mem_map_of_mem he)
    simpa using hne
  show (m.insert k a).entries.filter (fun e => e.1 != k) = m.entries
  rw [entries_insert_of_not_mem h, List.filter_append, List.filter_eq_self.2 hold]
  simp

theorem mem_values_insert {m : OrderedMap κ α} {k : κ} {a b : α} (h : b ∈ (m.insert k a).values) :
    b = a ∨ b ∈ m.values := by
  obtain ⟨k', hk'⟩ := mem_values_iff.1 h
  rcases mem_entries_insert.1 hk' with he | ⟨he, -⟩
  · exact Or.inl (congrArg Prod.snd he)
  · exact Or.inr (mem_values_iff.2 ⟨k', he⟩)

/-- Values that are told apart by an image of them still are after a write, wherever it goes. -/
theorem nodup_map_values_insert {β : Type} {m : OrderedMap κ α} {k : κ} {a : α} {f : α → β}
    (hm : (m.values.map f).Nodup) (ha : ∀ b ∈ m.values, f b ≠ f a) :
    ((m.insert k a).values.map f).Nodup := by
  rw [values, List.map_map] at hm ⊢
  have hnew : ∀ e ∈ m.entries, f e.2 ≠ f a := fun e he => ha e.2 (List.mem_map_of_mem he)
  refine List.Nodup.map_on (fun e he e' he' heq => ?_) (.of_map _ (m.insert k a).nodup)
  rcases mem_entries_insert.1 he with rfl | ⟨he, -⟩ <;>
    rcases mem_entries_insert.1 he' with rfl | ⟨he', -⟩
  · rfl
  · exact absurd heq.symm (hnew e' he')
  · exact absurd heq (hnew e he)
  · exact List.inj_on_of_nodup_map hm he he' heq

omit [DecidableEq κ] in
theorem values_filter (m : OrderedMap κ α) (p : α → Bool) :
    (m.filter fun _ a => p a).values = m.values.filter p :=
  (List.filter_map (f := Prod.snd) (p := p)).symm

omit [DecidableEq κ] in
theorem values_filter_sublist (m : OrderedMap κ α) (p : κ → α → Bool) :
    (m.filter p).values.Sublist m.values :=
  List.filter_sublist.map Prod.snd

omit [DecidableEq κ] in
theorem mem_values_of_mem_filter {m : OrderedMap κ α} {p : κ → α → Bool} {a : α}
    (h : a ∈ (m.filter p).values) : a ∈ m.values := by
  obtain ⟨k, hk⟩ := mem_values_iff.1 h
  exact mem_values_iff.2 ⟨k, (mem_entries_filter.1 hk).1⟩

theorem entries_foldl_insert_of_not_mem {l : List (κ × α)} (hl : (l.map Prod.fst).Nodup)
    {m : OrderedMap κ α} (hm : ∀ e ∈ l, e.1 ∉ m.keys) :
    (l.foldl (fun m e => m.insert e.1 e.2) m).entries = m.entries ++ l := by
  induction l generalizing m with
  | nil => simp
  | cons e rest ih =>
    rw [List.map_cons, List.nodup_cons] at hl
    rw [List.forall_mem_cons] at hm
    have hrest : ∀ e' ∈ rest, e'.1 ∉ (m.insert e.1 e.2).keys := by
      intro e' he' hmem
      rw [keys_insert_of_not_mem hm.1, List.mem_append, List.mem_singleton] at hmem
      obtain hmem | hmem := hmem
      · exact hm.2 e' he' hmem
      · exact hl.1 (hmem ▸ List.mem_map_of_mem he')
    rw [List.foldl_cons, ih hl.2 hrest, entries_insert_of_not_mem hm.1, List.append_assoc]
    rfl

/-- A map is made of its entries. -/
theorem ofEntries_entries (m : OrderedMap κ α) : ofEntries m.entries = m := by
  refine eq_of_entries ?_
  rw [ofEntries, entries_foldl_insert_of_not_mem m.nodup (by simp [keys, empty])]
  rfl

end Writes

end OrderedMap

end ShaderGraph
