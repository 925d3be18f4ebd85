import ShaderGraph.Node
import ShaderGraph.Proofs.Shader.Reading

/-!
# Names of nodes

A node declares at most two names, the variable of its value and its property, both made of the slug
of its kind and its serial.

* `variableBase_eq_iff` : the start of the names tells the slug and the serial;
* `serial_of_outputVariable`, `serial_of_propertyName` : so each name tells the serial;
* `IsOutputName`, `IsPropertyName` : the two forms, which no name has both of;
* `IsOutputName.isName`, `IsPropertyName.isName` : both are names of the shading language;
* `Node.names_never_collide` : the names that are kept apart.
-/

namespace ShaderGraph

open Reading

section Slugs

/-- The slugs of all node kinds. -/
def slugs : List String :=
  MathFunction.all.map (·.slug) ++
    ["texture", "uv", "vector1", "vector2", "vector3", "vector4", "surface"]

theorem slug_mem (k : NodeKind) : k.slug ∈ slugs := by
  cases k with
  | function f => cases f <;> decide
  | texture t => exact (by decide : "texture" ∈ slugs)
  | uv => decide
  | constant c =>
    obtain ⟨value, exposed⟩ := c
    cases value with
    | vector1 x => exact (by decide : "vector1" ∈ slugs)
    | vector2 x y => exact (by decide : "vector2" ∈ slugs)
    | vector3 x y z => exact (by decide : "vector3" ∈ slugs)
    | vector4 x y z w => exact (by decide : "vector4" ∈ slugs)
  | surfaceOutput => decide

theorem isName_of_mem_slugs : ∀ s ∈ slugs, isName s.toList = true := by decide

theorem isLower_of_mem_slugs : ∀ s ∈ slugs, s.toList.head?.any Char.isLower = true := by decide

/-- No slug is another one followed by digits. This is what keeps `vector12` from being read in two
ways. -/
theorem eq_of_slug_digits : ∀ a ∈ slugs, ∀ b ∈ slugs,
    a.toList <+: b.toList → (b.toList.drop a.toList.length).all Char.isDigit = true → a = b := by
  decide +kernel

theorem digits_of_slug_append {a b : String} (ha : a ∈ slugs) (hb : b ∈ slugs) {v w : List Char}
    (hv : v.all Char.isDigit = true) (hw : w.all Char.isDigit = true)
    (h : a.toList ++ v = b.toList ++ w) : v = w := by
  -- the longer slug is the shorter one and some digits
  obtain ⟨rest, hrest, rfl⟩ | ⟨rest, hrest, rfl⟩ := List.append_eq_append_iff.1 h
  · rw [List.all_append, Bool.and_eq_true] at hv
    have hab : a = b := by
      refine eq_of_slug_digits a ha b hb ⟨rest, hrest.symm⟩ ?_
      rw [hrest, List.drop_left]
      exact hv.1
    subst hab
    obtain rfl : rest = [] := by simpa using hrest
    rfl
  · rw [List.all_append, Bool.and_eq_true] at hw
    have hba : b = a := by
      refine eq_of_slug_digits b hb a ha ⟨rest, hrest.symm⟩ ?_
      rw [hrest, List.drop_left]
      exact hw.1
    subst hba
    obtain rfl : rest = [] := by simpa using hrest
    rfl

theorem toString_digits (n : Nat) : (toString n).toList.all Char.isDigit = true := by
  have h := isDigits_toDigits n
  rw [isDigits, Bool.and_eq_true] at h
  rw [Nat.toString_eq_repr, Nat.toList_repr]
  exact h.2

/-- A slug and a serial put together tell both. -/
theorem slug_append_inj {a b : String} (ha : a ∈ slugs) (hb : b ∈ slugs) {m n : Nat} :
    a ++ toString m = b ++ toString n ↔ a = b ∧ m = n := by
  constructor
  · intro h
    have hlist := congrArg String.toList h
    rw [String.toList_append, String.toList_append] at hlist
    have hdigits := digits_of_slug_append ha hb (toString_digits m) (toString_digits n) hlist
    have hnumber := congrArg (Nat.ofDigitChars 10 · 0) hdigits
    rw [hdigits, List.append_cancel_right_eq] at hlist
    exact ⟨String.toList_inj.1 hlist, by simpa [Nat.toString_eq_ofList_toDigits] using hnumber⟩
  · rintro ⟨rfl, rfl⟩
    rfl

end Slugs

section Forms

/-- The variable of the value of some node. -/
def IsOutputName (x : String) : Prop :=
  ∃ (k : NodeKind) (serial : Nat), x = k.slug ++ toString serial ++ "_out"

/-- The property of some node. -/
def IsPropertyName (x : String) : Prop :=
  ∃ (k : NodeKind) (serial : Nat), x = "_" ++ (k.slug ++ toString serial)

variable {x : String}

theorem isOutputName_outputVariable (n : Node) : IsOutputName n.outputVariable :=
  ⟨n.kind, n.serial, rfl⟩

theorem isPropertyName_propertyName (n : Node) : IsPropertyName n.propertyName :=
  ⟨n.kind, n.serial, rfl⟩

theorem IsOutputName.isLower (h : IsOutputName x) : x.toList.head?.any Char.isLower = true := by
  obtain ⟨k, serial, rfl⟩ := h
  have hslug := isLower_of_mem_slugs _ (slug_mem k)
  rw [String.toList_append, String.toList_append, List.append_assoc]
  cases hlist : k.slug.toList with
  | nil =>
    rw [hlist] at hslug
    cases hslug
  | cons c rest =>
    rw [hlist] at hslug
    simpa using hslug

theorem IsPropertyName.head (h : IsPropertyName x) : x.toList.head? = some '_' := by
  obtain ⟨k, serial, rfl⟩ := h
  rw [String.toList_append]
  rfl

theorem IsOutputName.not_isPropertyName (h : IsOutputName x) : ¬ IsPropertyName x := by
  intro hproperty
  have hlower := h.isLower
  rw [hproperty.head] at hlower
  revert hlower
  decide

theorem isName_append {v w : List Char} (hv : isName v = true) (hw : w.all isWordChar = true) :
    isName (v ++ w) = true := by
  simp only [isName, Bool.and_eq_true, Bool.not_eq_true', List.isEmpty_eq_false_iff] at hv ⊢
  obtain ⟨⟨hne, hall⟩, hhead⟩ := hv
  refine ⟨⟨by simp [hne], by simp [List.all_append, hall, hw]⟩, ?_⟩
  rwa [List.head?_append_of_ne_nil _ hne]

theorem toString_word (n : Nat) : (toString n).toList.all isWordChar = true := by
  have h := toString_digits n
  rw [List.all_eq_true] at h ⊢
  exact fun c hc => isDigit_isWordChar (h c hc)

theorem isName_slug_append (k : NodeKind) (n : Nat) :
    isName (k.slug ++ toString n).toList = true := by
  rw [String.toList_append]
  exact isName_append (isName_of_mem_slugs _ (slug_mem k)) (toString_word n)

theorem IsOutputName.isName (h : IsOutputName x) : isName x.toList = true := by
  obtain ⟨k, serial, rfl⟩ := h
  rw [String.toList_append]
  exact isName_append (isName_slug_append k serial) (by decide)

theorem IsPropertyName.isName (h : IsPropertyName x) : isName x.toList = true := by
  obtain ⟨k, serial, rfl⟩ := h
  rw [String.toList_append]
  have hword := isName_isWord (isName_slug_append k serial)
  exact isName_append (v := "_".toList) (by decide) hword.2

theorem IsOutputName.ne_input (h : IsOutputName x) : x ≠ "IN" := by
  rintro rfl
  have hlower := h.isLower
  revert hlower
  decide

theorem IsPropertyName.ne_input (h : IsPropertyName x) : x ≠ "IN" := by
  rintro rfl
  have hhead := h.head
  revert hhead
  decide

end Forms

section Serials

variable {a b : Node}

theorem variableBase_eq_iff :
    a.variableBase = b.variableBase ↔ a.kind.slug = b.kind.slug ∧ a.serial = b.serial :=
  slug_append_inj (slug_mem a.kind) (slug_mem b.kind)

theorem serial_of_propertyName (h : a.propertyName = b.propertyName) : a.serial = b.serial :=
  (variableBase_eq_iff.1 ((String.append_right_inj "_").1 h)).2

theorem serial_of_outputVariable (h : a.outputVariable = b.outputVariable) :
    a.serial = b.serial :=
  (variableBase_eq_iff.1 ((String.append_left_inj "_out").1 h)).2

/-- Names that tell the serial are distinct where the serials are. -/
theorem nodup_of_serials {α : Type} {l : List α} {node : α → Node} {name : Node → String}
    (hname : ∀ a b : Node, name a = name b → a.serial = b.serial)
    (h : (l.map fun a => (node a).serial).Nodup) : (l.map fun a => name (node a)).Nodup := by
  rw [List.Nodup, List.pairwise_map] at h ⊢
  exact h.imp fun hne heq => hne (hname _ _ heq)

end Serials

section Collisions

/-- No function is called by a name that ends like a variable. -/
theorem not_suffix_callName (f : MathFunction) : ¬ "_out".toList <:+ f.callName.toList := by
  cases f <;> decide

theorem IsOutputName.ne_callName {x : String} (h : IsOutputName x) (f : MathFunction) :
    x ≠ f.callName := by
  rintro rfl
  obtain ⟨k, serial, hx⟩ := h
  refine not_suffix_callName f ⟨(k.slug ++ toString serial).toList, ?_⟩
  rw [← String.toList_append, ← hx]

/-- **Names never collide.** Two nodes share the start of their names only if they share both the
slug and the serial, so that distinct serials keep all the names of their nodes apart. Whatever the
serials, the variable of a node is called like no property and no function. -/
theorem Node.names_never_collide :
    (∀ a b : Node, a.variableBase = b.variableBase ↔
      a.kind.slug = b.kind.slug ∧ a.serial = b.serial) ∧
    (∀ nodes : List Node, (nodes.map (·.serial)).Nodup →
      (nodes.map (·.outputVariable) ++ nodes.map (·.propertyName)).Nodup) ∧
    (∀ a b : Node, a.outputVariable ≠ b.propertyName) ∧
    ∀ (n : Node) (f : MathFunction), n.outputVariable ≠ f.callName := by
  have hapart : ∀ a b : Node, a.outputVariable ≠ b.propertyName := by
    intro a b h
    exact (isOutputName_outputVariable a).not_isPropertyName (h ▸ isPropertyName_propertyName b)
  refine ⟨fun _ _ => variableBase_eq_iff, fun nodes hserials => ?_, hapart,
    fun n f => (isOutputName_outputVariable n).ne_callName f⟩
  refine List.nodup_append.2 ⟨?_, ?_, ?_⟩
  · exact nodup_of_serials (fun _ _ => serial_of_outputVariable) hserials
  · exact nodup_of_serials (fun _ _ => serial_of_propertyName) hserials
  · intro x hx y hy
    obtain ⟨a, -, rfl⟩ := List.mem_map.1 hx
    obtain ⟨b, -, rfl⟩ := List.mem_map.1 hy
    exact hapart a b

/-- Nodes of these kinds and serials. -/
def numberedNodes (kinds : List (NodeKind × Nat)) : List Node :=
  kinds.map fun k => { Node.ofKind ⟨.ofNat k.2⟩ k.1 with serial := k.2 }

/-- Slugs that end in a digit, with serials that begin with one. -/
theorem Node.names_of_numberedNodes :
    let nodes := numberedNodes
      [(.constant ⟨.vector1 .zero, false⟩, 0), (.constant ⟨.vector1 .zero, true⟩, 10),
        (.constant ⟨.vector1 .zero, false⟩, 1), (.function .add, 11), (.uv, 110)]
    (nodes.map (·.serial)).Nodup ∧
    (nodes.map (·.outputVariable) ++ nodes.map (·.propertyName)).Nodup ∧
    nodes.map (·.outputVariable) =
      ["vector10_out", "vector110_out", "vector11_out", "add11_out", "uv110_out"] := by
  refine ⟨by decide, ?_, by decide⟩
  exact Node.names_never_collide.2.1 _ (by decide)

end Collisions

end ShaderGraph
