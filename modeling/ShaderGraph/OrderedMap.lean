/-!
# Insertion-ordered maps

Nodes and connections are kept in the order in which they were added. An `OrderedMap` is a list of
entries with distinct keys: inserting under a key that is present replaces the value where it
stands, inserting under a new key appends, and erasing keeps the order of the rest.
-/

namespace ShaderGraph

/-- A finite map whose entries keep the order in which their keys were first inserted. -/
structure OrderedMap (κ : Type) (α : Type) where
  entries : List (κ × α)
  nodup : (entries.map Prod.fst).Nodup

namespace OrderedMap

variable {κ α : Type} [DecidableEq κ]

/-- The entries with `a` under `k`, in place if `k` is present and at the end if it is not. -/
def put (k : κ) (a : α) : List (κ × α) → List (κ × α)
  | [] => [(k, a)]
  | (k', a') :: rest => if k' = k then (k, a) :: rest else (k', a') :: put k a rest

theorem map_fst_put (k : κ) (a : α) (l : List (κ × α)) :
    (put k a l).map Prod.fst =
      if k ∈ l.map Prod.fst then l.map Prod.fst else l.map Prod.fst ++ [k] := by
  induction l with
  | nil => simp [put]
  | cons e rest ih =>
    obtain ⟨k', a'⟩ := e
    by_cases h : k' = k
    · simp [put, h]
    · have h' : ¬ k = k' := fun e => h e.symm
      simp only [put, h, if_false, List.map_cons, ih, List.mem_cons, h', false_or]
      split <;> simp

theorem nodup_map_fst_put (k : κ) (a : α) {l : List (κ × α)} (h : (l.map Prod.fst).Nodup) :
    ((put k a l).map Prod.fst).Nodup := by
  rw [map_fst_put]
  split
  · exact h
  · next hk =>
    refine List.nodup_append.2 ⟨h, by simp, ?_⟩
    intro x hx y hy
    obtain rfl := List.mem_singleton.1 hy
    exact fun e => hk (e ▸ hx)

omit [DecidableEq κ] in
theorem nodup_map_fst_filter (p : κ × α → Bool) {l : List (κ × α)}
    (h : (l.map Prod.fst).Nodup) : ((l.filter p).map Prod.fst).Nodup :=
  h.sublist (List.filter_sublist.map Prod.fst)

omit [DecidableEq κ] in
theorem map_fst_map_snd (f : κ → α → α) (l : List (κ × α)) :
    (l.map fun e => (e.1, f e.1 e.2)).map Prod.fst = l.map Prod.fst := by
  simp [Function.comp_def]

def empty : OrderedMap κ α := ⟨[], by simp⟩

/-- The keys in insertion order. -/
def keys (m : OrderedMap κ α) : List κ := m.entries.map Prod.fst

/-- The values in insertion order. -/
def values (m : OrderedMap κ α) : List α := m.entries.map Prod.snd

def size (m : OrderedMap κ α) : Nat := m.entries.length

/-- The value under a key. -/
def get? (m : OrderedMap κ α) (k : κ) : Option α := m.entries.lookup k

/-- Replace the value under `k` where it stands, or append a new entry. -/
def insert (m : OrderedMap κ α) (k : κ) (a : α) : OrderedMap κ α :=
  ⟨put k a m.entries, nodup_map_fst_put k a m.nodup⟩

/-- Keep the entries that satisfy `p`, in order. -/
def filter (m : OrderedMap κ α) (p : κ → α → Bool) : OrderedMap κ α :=
  ⟨m.entries.filter fun e => p e.1 e.2, nodup_map_fst_filter _ m.nodup⟩

/-- Remove the entry under `k`. -/
def erase (m : OrderedMap κ α) (k : κ) : OrderedMap κ α := m.filter fun k' _ => k' != k

/-- Change the value under `k`, if there is one. -/
def modify (m : OrderedMap κ α) (k : κ) (f : α → α) : OrderedMap κ α :=
  ⟨m.entries.map fun e => (e.1, if e.1 = k then f e.2 else e.2),
    (map_fst_map_snd (fun k' a => if k' = k then f a else a) m.entries).symm ▸ m.nodup⟩

/-- The map of a list of entries: a repeated key keeps its first place and takes its last value. -/
def ofEntries (l : List (κ × α)) : OrderedMap κ α :=
  l.foldl (fun m e => m.insert e.1 e.2) empty

end OrderedMap

end ShaderGraph
