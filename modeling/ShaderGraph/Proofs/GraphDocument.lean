import ShaderGraph.GraphDocument
import ShaderGraph.Proofs.Document.RoundTrip
import ShaderGraph.Proofs.Graph.Connecting

/-!
# Graph documents are read back

Every part of a graph is printed in a way that is read back, up to the payload of the constants that
are no numbers (`Graph.canonical`), and the checks a loaded graph has to pass look at nothing else.

* `Graph.restores` : what is printed for a graph is read as its canonical one;
* `Graph.ofValue?_toValue` : the value of a graph determines it;
* `Graph.Storable.ofDocument_toDocument` : loading what was saved gives the canonical graph;
* `Graph.loads_what_was_saved` : which is the same but for the words that are no numbers.
-/

namespace ShaderGraph

open Document

section Canonical

def ConstantValue.canonical : ConstantValue → ConstantValue
  | vector1 x => vector1 x.canonical
  | vector2 x y => vector2 x.canonical y.canonical
  | vector3 x y z => vector3 x.canonical y.canonical z.canonical
  | vector4 x y z w => vector4 x.canonical y.canonical z.canonical w.canonical

def NodeKind.canonical : NodeKind → NodeKind
  | constant c => constant { c with value := c.value.canonical }
  | kind => kind

def Node.canonical (n : Node) : Node := { n with kind := n.kind.canonical }

/-- The graph whose constants hold one word for everything that is no number. -/
def Graph.canonical (g : Graph) : Graph :=
  { g with
    nodes := ⟨g.nodes.entries.map fun e => (e.1, e.2.canonical),
      (OrderedMap.map_fst_map_snd (fun _ n => n.canonical) g.nodes.entries).symm ▸ g.nodes.nodup⟩ }

end Canonical

section Labels

theorem SlotDirection.ofSymbol?_label (d : SlotDirection) :
    ofSymbol? SlotDirection.all (·.label) (.symbol d.label) = some d := by
  cases d <;> rfl

theorem SlotType.ofSymbol?_label (t : SlotType) :
    ofSymbol? SlotType.all (·.label) (.symbol t.label) = some t := by
  rcases t with t | _
  · cases t <;> rfl
  · rfl

theorem TextureType.ofSymbol?_label (t : TextureType) :
    ofSymbol? TextureType.all (·.label) (.symbol t.label) = some t := by
  cases t <;> rfl

theorem MathFunction.ofSymbol?_label (f : MathFunction) :
    ofSymbol? MathFunction.all (·.label) (.symbol f.label) = some f := by
  cases f <;> rfl

theorem SlotDirection.restores (d : SlotDirection) :
    (symbolShape SlotDirection.all (·.label)).Restores (.symbol d.label) (.symbol d.label) := by
  cases d <;> exact restores_symbol (by decide) (by decide)

theorem SlotType.restores (t : SlotType) :
    (symbolShape SlotType.all (·.label)).Restores (.symbol t.label) (.symbol t.label) := by
  rcases t with t | _
  · cases t <;> exact restores_symbol (by decide) (by decide)
  · exact restores_symbol (by decide) (by decide)

theorem TextureType.restores (t : TextureType) :
    (symbolShape TextureType.all (·.label)).Restores (.symbol t.label) (.symbol t.label) := by
  cases t <;> exact restores_symbol (by decide) (by decide)

theorem MathFunction.restores (f : MathFunction) :
    (symbolShape MathFunction.all (·.label)).Restores (.symbol f.label) (.symbol f.label) := by
  cases f <;> exact restores_symbol (by decide) (by decide)

end Labels

section Parts

theorem restores_identity {name : String} (hname : isPlainName name = true) (u : Uuid) :
    (identityShape name).Restores (identityValue name u) (identityValue name u) :=
  restores_enclosed hname (restores_text (by rw [Uuid.ofText?_toText]; rfl))

theorem NodeId.restores (id : NodeId) :
    (identityShape "NodeId").Restores id.toValue id.toValue :=
  restores_identity (by decide) id.uuid

theorem NodeId.ofValue?_toValue (id : NodeId) : NodeId.ofValue? id.toValue = some id := by
  simp [NodeId.ofValue?, NodeId.toValue, identityValue, uuidOfValue?, Uuid.ofText?_toText]

theorem ConnectionId.restores (id : ConnectionId) :
    (identityShape "ConnectionId").Restores id.toValue id.toValue :=
  restores_identity (by decide) id.uuid

theorem ConnectionId.ofValue?_toValue (id : ConnectionId) :
    ConnectionId.ofValue? id.toValue = some id := by
  simp [ConnectionId.ofValue?, ConnectionId.toValue, identityValue, uuidOfValue?,
    Uuid.ofText?_toText]

theorem Slot.restores (s : Slot) : slotShape.Restores s.toValue s.toValue :=
  restores_record (by decide) (by decide) (by decide) <|
    .required (restores_anyText s.name) <|
    .required s.direction.restores <|
    .required s.type.restores .nil

theorem Slot.ofValue?_toValue (s : Slot) : Slot.ofValue? s.toValue = some s := by
  simp [Slot.ofValue?, Slot.toValue, SlotDirection.ofSymbol?_label, SlotType.ofSymbol?_label]

end Parts

section Kinds

theorem ConstantValue.restores (v : ConstantValue) :
    constantValueShape.Restores v.toValue v.canonical.toValue := by
  cases v with
  | vector1 x => exact restores_choice (by decide) (.enclosed (restores_number x))
  | vector2 x y =>
    refine restores_choice (by decide) (.afterEnclosed (by decide) (.enclosed ?_))
    exact restores_tuple (by simp [restores_number]) rfl
  | vector3 x y z =>
    refine restores_choice (by decide) (.afterEnclosed (by decide) (.afterEnclosed (by decide)
      (.enclosed ?_)))
    exact restores_tuple (by simp [restores_number]) rfl
  | vector4 x y z w =>
    refine restores_choice (by decide) (.afterEnclosed (by decide) (.afterEnclosed (by decide)
      (.afterEnclosed (by decide) (.enclosed ?_))))
    exact restores_tuple (by simp [restores_number]) rfl

theorem ConstantValue.ofValue?_toValue (v : ConstantValue) :
    ConstantValue.ofValue? v.toValue = some v := by
  cases v <;> rfl

theorem restores_textureValue (handle : Option String) :
    (Shape.option (.enclosed "TextureHandle" anyText)).Restores (textureValue handle)
      (textureValue handle) := by
  cases handle with
  | none => exact restores_none
  | some handle => exact restores_some (restores_enclosed (by decide) (restores_anyText handle))

theorem textureOfValue?_textureValue (handle : Option String) :
    textureOfValue? (textureValue handle) = some handle := by
  cases handle <;> rfl

theorem NodeKind.restores (kind : NodeKind) :
    kindShape.Restores kind.toValue kind.canonical.toValue := by
  cases kind with
  | function f =>
    refine restores_choice (by decide) (.enclosed ?_)
    exact restores_record (by decide) (by decide) (by decide) (.required f.restores .nil)
  | texture t =>
    refine restores_choice (by decide) (.afterEnclosed (by decide) (.enclosed ?_))
    exact restores_record (by decide) (by decide) (by decide) <|
      .optional (restores_textureValue t.texture) <|
      .required t.type.restores <|
      .required (restores_flag t.exposed) .nil
  | uv =>
    refine restores_choice (by decide) (.afterEnclosed (by decide) (.afterEnclosed (by decide)
      (.enclosed ?_)))
    exact restores_unit (by decide)
  | constant c =>
    refine restores_choice (by decide) (.afterEnclosed (by decide) (.afterEnclosed (by decide)
      (.afterEnclosed (by decide) (.enclosed ?_))))
    exact restores_record (by decide) (by decide) (by decide) <|
      .required c.value.restores <|
      .required (restores_flag c.exposed) .nil
  | surfaceOutput =>
    refine restores_choice (by decide) (.afterEnclosed (by decide) (.afterEnclosed (by decide)
      (.afterEnclosed (by decide) (.afterEnclosed (by decide) (.enclosed ?_)))))
    exact restores_unit (by decide)

theorem NodeKind.ofValue?_toValue (kind : NodeKind) :
    NodeKind.ofValue? kind.toValue = some kind := by
  cases kind with
  | function f => simp [NodeKind.toValue, NodeKind.ofValue?, MathFunction.ofSymbol?_label]
  | texture t =>
    simp [NodeKind.toValue, NodeKind.ofValue?, textureOfValue?_textureValue,
      TextureType.ofSymbol?_label]
  | constant c => simp [NodeKind.toValue, NodeKind.ofValue?, ConstantValue.ofValue?_toValue]
  | uv => simp [NodeKind.toValue, NodeKind.ofValue?]
  | surfaceOutput => simp [NodeKind.toValue, NodeKind.ofValue?]

end Kinds

section Graphs

theorem forall₂_map_same {α β γ : Type} {R : β → γ → Prop} {f : α → β} {g : α → γ} {as : List α}
    (h : ∀ a ∈ as, R (f a) (g a)) : List.Forall₂ R (as.map f) (as.map g) := by
  rw [List.forall₂_map_left_iff, List.forall₂_map_right_iff, List.forall₂_same]
  exact h

theorem Node.restores {n : Node} (h : n.serial ≤ 0xffffffff) :
    nodeShape.Restores n.toValue n.canonical.toValue :=
  restores_record (by decide) (by decide) (by decide) <|
    .required n.id.restores <|
    .required (restores_word32 h) <|
    .required (restores_anyText n.name) <|
    .required n.kind.restores <|
    .required (restores_list (forall₂_map_same fun s _ => s.restores)) .nil

theorem mapM_ofValue? {α β : Type} {f : β → Option α} {g : α → β} (h : ∀ a, f (g a) = some a)
    (as : List α) : (as.map g).mapM f = some as := by
  induction as with
  | nil => rfl
  | cons a as ih => simp [List.mapM_cons, h, ih]

theorem Node.ofValue?_toValue (n : Node) : Node.ofValue? n.toValue = some n := by
  simp [Node.ofValue?, Node.toValue, NodeId.ofValue?_toValue, NodeKind.ofValue?_toValue,
    mapM_ofValue? Slot.ofValue?_toValue]

theorem Connection.restores (c : Connection) : connectionShape.Restores c.toValue c.toValue :=
  restores_record (by decide) (by decide) (by decide) <|
    .required c.id.restores <|
    .required c.fromNode.restores <|
    .required (restores_anyText c.fromSlot) <|
    .required c.toNode.restores <|
    .required (restores_anyText c.toSlot) .nil

theorem Connection.ofValue?_toValue (c : Connection) : Connection.ofValue? c.toValue = some c := by
  simp [Connection.ofValue?, Connection.toValue, NodeId.ofValue?_toValue,
    ConnectionId.ofValue?_toValue]

namespace Graph

variable {g : Graph}

theorem restores (hversion : g.version ≤ 0xffffffff) (hnext : g.nextSerial ≤ 0xffffffff)
    (hserials : ∀ n ∈ g.nodes.values, n.serial ≤ 0xffffffff) :
    graphShape.Restores g.toValue g.canonical.toValue := by
  have hnodes : (Shape.map (identityShape "NodeId") nodeShape).Restores
      (.map (g.nodes.entries.map fun e => (e.1.toValue, e.2.toValue)))
      (.map (g.canonical.nodes.entries.map fun e => (e.1.toValue, e.2.toValue))) := by
    refine restores_map ?_
    rw [canonical, List.map_map]
    refine forall₂_map_same fun e he => ⟨e.1.restores, Node.restores (hserials e.2 ?_)⟩
    exact List.mem_map_of_mem he
  exact restores_record (by decide) (by decide) (by decide) <|
    .optional (restores_word32 hversion) <|
    .required (restores_anyText g.name) <|
    .required hnodes <|
    .required (restores_map (forall₂_map_same fun e _ => ⟨e.1.restores, e.2.restores⟩)) <|
    .optional (restores_word32 hnext) .nil

theorem entriesOfValue?_map {κ α : Type} {key? : Value → Option κ} {value? : Value → Option α}
    {key : κ → Value} {value : α → Value} (hkey : ∀ k, key? (key k) = some k)
    (hvalue : ∀ a, value? (value a) = some a) (entries : List (κ × α)) :
    entriesOfValue? key? value? (entries.map fun e => (key e.1, value e.2)) = some entries :=
  mapM_ofValue? (fun e => by simp [hkey, hvalue]) entries

theorem ofValue?_toValue (g : Graph) : ofValue? g.toValue = some g := by
  simp [ofValue?, toValue, entriesOfValue?_map, NodeId.ofValue?_toValue, Node.ofValue?_toValue,
    ConnectionId.ofValue?_toValue, Connection.ofValue?_toValue, OrderedMap.ofEntries_entries]

end Graph

end Graphs

section Checks

namespace Graph

variable {g : Graph}

theorem get?_canonical (g : Graph) (id : NodeId) :
    g.canonical.nodes.get? id = (g.nodes.get? id).map Node.canonical :=
  OrderedMap.lookup_map_snd (fun _ => Node.canonical) g.nodes.entries id

/-- The rules for connections look at slots only. -/
theorem Fits.canonical {c : Connection} (h : Fits g.nodes c) : Fits g.canonical.nodes c :=
  h.of_slots fun id n _ hn => ⟨n.canonical, by rw [get?_canonical, hn, Option.map_some], rfl⟩

theorem validate_canonical (h : g.validate = .ok ()) : g.canonical.validate = .ok () := by
  rw [validate_eq_ok_iff] at h ⊢
  exact ⟨fun c hc => (h.1 c hc).canonical, h.2⟩

theorem map_serial_canonical (g : Graph) :
    g.canonical.nodes.values.map (·.serial) = g.nodes.values.map (·.serial) := by
  simp [canonical, OrderedMap.values, Node.canonical, Function.comp_def]

theorem firstRepeated?_eq_none {l seen : List ℕ} (hl : l.Nodup) (hseen : ∀ n ∈ l, n ∉ seen) :
    firstRepeated? seen l = none := by
  induction l generalizing seen with
  | nil => rfl
  | cons n l ih =>
    rw [List.nodup_cons] at hl
    rw [List.forall_mem_cons] at hseen
    rw [firstRepeated?, if_neg hseen.1]
    refine ih hl.2 fun m hm => ?_
    rw [List.mem_cons, not_or]
    exact ⟨fun e => hl.1 (e ▸ hm), hseen.2 m hm⟩

/-- A counter that is above every serial stays. -/
theorem raiseSerial_eq (h : ∀ n ∈ g.nodes.values, n.serial < g.nextSerial) : g.raiseSerial = g := by
  have hmax : ∀ l : List ℕ, (∀ n ∈ l, n ≤ g.nextSerial) →
      l.foldl max g.nextSerial = g.nextSerial := by
    intro l hl
    induction l with
    | nil => rfl
    | cons n l ih =>
      rw [List.forall_mem_cons] at hl
      rw [List.foldl_cons, Nat.max_eq_left hl.1, ih hl.2]
  unfold raiseSerial
  rw [hmax]
  intro m hm
  obtain ⟨n, hn, rfl⟩ := List.mem_map.1 hm
  exact h n hn

/-- What was saved is loaded as the canonical graph, with its counter raised if it was behind. -/
theorem ofDocument_toDocument (hversion : g.version ≤ graphVersion) (hvalid : g.validate = .ok ())
    (hserials : (g.nodes.values.map (·.serial)).Nodup)
    (hwords : ∀ n ∈ g.nodes.values, n.serial ≤ 0xffffffff) (hnext : g.nextSerial ≤ 0xffffffff) :
    ofDocument g.toDocument = .ok g.canonical.raiseSerial := by
  have hread := readDocument_document (restores (hversion.trans (by decide)) hnext hwords)
  have hrepeated : firstRepeated? [] (g.canonical.nodes.values.map (·.serial)) = none := by
    rw [map_serial_canonical]
    exact firstRepeated?_eq_none hserials (by simp)
  have hsupported : ¬ graphVersion < g.canonical.version := Nat.not_lt.2 hversion
  rw [ofDocument, toDocument, hread]
  simp only [ofValue?_toValue, if_neg hsupported, validate_canonical hvalid, hrepeated]

/-- A counter that is above every serial is above those of the canonical graph. -/
theorem raiseSerial_canonical (h : ∀ n ∈ g.nodes.values, n.serial < g.nextSerial) :
    g.canonical.raiseSerial = g.canonical := by
  refine raiseSerial_eq fun n hn => ?_
  have hmem := List.mem_map_of_mem (f := (·.serial)) hn
  rw [map_serial_canonical] at hmem
  obtain ⟨m, hm, hserial⟩ := List.mem_map.1 hmem
  exact hserial ▸ h m hm

/-- A graph that can be saved and loaded: its version is known, its connections obey the rules, and
its serials are distinct and below the counter, which has 32 bits. -/
structure Storable (g : Graph) : Prop where
  version : g.version ≤ graphVersion
  valid : g.validate = .ok ()
  serials : (g.nodes.values.map (·.serial)).Nodup
  below : ∀ n ∈ g.nodes.values, n.serial < g.nextSerial
  next : g.nextSerial ≤ 0xffffffff

/-- What was saved is loaded as the canonical graph. -/
theorem Storable.ofDocument_toDocument (h : g.Storable) :
    ofDocument g.toDocument = .ok g.canonical := by
  have hwords : ∀ n ∈ g.nodes.values, n.serial ≤ 0xffffffff := fun n hn =>
    (h.below n hn).le.trans h.next
  rw [Graph.ofDocument_toDocument h.version h.valid h.serials hwords h.next,
    raiseSerial_canonical h.below]

end Graph

end Checks

section Alike

/-- The same word, or both no numbers. -/
def Binary32.Alike (x y : Binary32) : Prop := x = y ∨ (x.isNaN = true ∧ y.isNaN = true)

/-- As wide as each other, with components that are alike. -/
def ConstantValue.Alike (v w : ConstantValue) : Prop :=
  v.type = w.type ∧ List.Forall₂ Binary32.Alike v.components w.components

/-- The same but for the words of constants that are no numbers. -/
def NodeKind.Alike : NodeKind → NodeKind → Prop
  | constant c, constant d => c.value.Alike d.value ∧ c.exposed = d.exposed
  | kind, kind' => kind = kind'

/-- The same but for the words of constants that are no numbers. -/
structure Node.Alike (n m : Node) : Prop where
  id : n.id = m.id
  serial : n.serial = m.serial
  name : n.name = m.name
  kind : n.kind.Alike m.kind
  slots : n.slots = m.slots

theorem Binary32.alike_canonical (x : Binary32) : x.Alike x.canonical := by
  unfold Alike canonical
  split_ifs with hnan
  · exact .inr ⟨hnan, by decide⟩
  · exact .inl rfl

theorem ConstantValue.alike_canonical (v : ConstantValue) : v.Alike v.canonical := by
  cases v <;> simp [Alike, canonical, type, components, Binary32.alike_canonical]

theorem NodeKind.alike_canonical (kind : NodeKind) : kind.Alike kind.canonical := by
  cases kind with
  | constant c => exact ⟨c.value.alike_canonical, rfl⟩
  | _ => rfl

theorem Node.alike_canonical (n : Node) : n.Alike n.canonical :=
  ⟨rfl, rfl, rfl, n.kind.alike_canonical, rfl⟩

/-- **Graph documents round-trip.** A graph of a known version whose connections obey the rules and
whose serials are distinct and below the counter is loaded from its document as it was saved,
whatever its names, texture handles, constants, slots and keys are. -/
theorem Graph.loads_what_was_saved {g : Graph} (hversion : g.version ≤ 1)
    (hvalid : g.validate = .ok ()) (hserials : (g.nodes.values.map (·.serial)).Nodup)
    (hbelow : ∀ n ∈ g.nodes.values, n.serial < g.nextSerial)
    (hnext : g.nextSerial ≤ 4294967295) :
    ∃ g', ofDocument g.toDocument = .ok g' ∧ g'.version = g.version ∧ g'.name = g.name ∧
      g'.nextSerial = g.nextSerial ∧ g'.connections = g.connections ∧
      List.Forall₂ (fun e e' => e.1 = e'.1 ∧ e.2.Alike e'.2) g.nodes.entries g'.nodes.entries := by
  have hstorable : g.Storable := ⟨hversion, hvalid, hserials, hbelow, hnext⟩
  refine ⟨g.canonical, hstorable.ofDocument_toDocument, rfl, rfl, rfl, rfl, ?_⟩
  rw [canonical, List.forall₂_map_right_iff, List.forall₂_same]
  exact fun e _ => ⟨rfl, e.2.alike_canonical⟩

/-- A graph with quotes and a control character in its names, a key that is no identity, a slot that
its kind does not require, and among the constants a subnormal, `-0`, `-inf` and one of the words
that are no numbers. -/
def oddGraph : Graph where
  version := 0
  name := "\"odd\" \\ \u0001 ü"
  nodes := .ofEntries
    [(⟨.ofNat 1⟩, ⟨⟨.ofNat 9⟩, 4, "",
      .constant ⟨.vector4 ⟨1⟩ ⟨0x80000000⟩ ⟨0xff800000⟩ ⟨0xffc00001⟩, true⟩,
      [.fixedOutput "Value" .vector4]⟩),
    (⟨.ofNat 2⟩, ⟨⟨.ofNat 2⟩, 0, "Name", .texture ⟨some "a\n'b'", .bump, false⟩,
      [.fixedInput "UV" .vector2, ⟨"More", .output, .dynamic⟩]⟩)]
  connections := .ofEntries
    [(⟨.ofNat 3⟩, ⟨⟨.ofNat 4⟩, ⟨.ofNat 1⟩, "Value", ⟨.ofNat 2⟩, "UV"⟩)]
  nextSerial := 5

theorem Graph.loads_oddGraph :
    oddGraph.version ≤ 1 ∧ oddGraph.validate = .ok () ∧
    (oddGraph.nodes.values.map (·.serial)).Nodup ∧
    (∀ n ∈ oddGraph.nodes.values, n.serial < oddGraph.nextSerial) ∧
    oddGraph.nextSerial ≤ 4294967295 ∧
    ∃ g', ofDocument oddGraph.toDocument = .ok g' ∧ g'.version = oddGraph.version ∧
      g'.name = oddGraph.name ∧ g'.nextSerial = oddGraph.nextSerial ∧
      g'.connections = oddGraph.connections ∧
      List.Forall₂ (fun e e' => e.1 = e'.1 ∧ e.2.Alike e'.2) oddGraph.nodes.entries
        g'.nodes.entries :=
  ⟨by decide, rfl, by decide, by decide, by decide,
    loads_what_was_saved (by decide) rfl (by decide) (by decide) (by decide)⟩

end Alike

end ShaderGraph
