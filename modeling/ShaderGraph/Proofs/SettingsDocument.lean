import ShaderGraph.SettingsDocument
import ShaderGraph.Proofs.Document.RoundTrip

/-!
# Settings documents are read back, whole or in part

A document may hold any of the fields of settings, in any order and layout. What is read from it are
the standard settings with those fields; whether the version is supported is decided on the result,
so the version counts only where it is written.

* `Field` : the fields, with the names and values of a saved document (`toValue_eq`);
* `onStandard` : the standard settings with some fields of others;
* `collect_entries` : the fields that are found, and the standard ones for those that are not;
* `ofDocument_laid` : what a document with some of the fields is read as;
* `loads_saved_fields` : this for the texts of a saved document, which has all of the fields.
-/

namespace ShaderGraph

open Document

section Labels

theorem Precision.ofSymbol?_label (p : Precision) :
    ofSymbol? Precision.all (·.label) (.symbol p.label) = some p := by
  cases p <;> rfl

theorem Precision.restores (p : Precision) :
    (symbolShape Precision.all (·.label)).Restores (.symbol p.label) (.symbol p.label) := by
  cases p <;> exact restores_symbol (by decide) (by decide)

end Labels

namespace Settings

section Fields

/-- The fields of settings. -/
inductive Field
  | version
  | shaderName
  | precision
  | maxNodes
deriving DecidableEq

/-- In the order they are saved. -/
def Field.all : List Field := [.version, .shaderName, .precision, .maxNodes]

def Field.name : Field → String
  | .version => "version"
  | .shaderName => "shader_name"
  | .precision => "precision"
  | .maxNodes => "max_nodes"

theorem Field.mem_all (f : Field) : f ∈ Field.all := by
  cases f <;> decide

theorem Field.name_injective : Function.Injective Field.name := by
  intro f f' h
  cases f <;> cases f' <;> first | rfl | exact absurd h (by decide)

theorem Field.isPlainName_name (f : Field) : isPlainName f.name = true := by
  cases f <;> decide

/-- What a document holds for a field. -/
def value (s : Settings) : Field → Value
  | .version => .natural s.version
  | .shaderName => .text s.shaderName
  | .precision => .symbol s.precision.label
  | .maxNodes => .natural s.maxNodes

def entry (s : Settings) (f : Field) : String × Value := (f.name, s.value f)

/-- The text of a field in a saved document, without its margin and the comma after it. -/
def fieldText (s : Settings) (f : Field) : List Char := Document.fieldText 1 (s.entry f)

theorem toValue_eq (s : Settings) :
    s.toValue = .record "GeneratorConfig" (Field.all.map s.entry) := rfl

theorem ofValue?_entries (s : Settings) (name : String) :
    ofValue? (.record name (Field.all.map s.entry)) = some s := by
  simp [ofValue?, Field.all, entry, value, Precision.ofSymbol?_label]

/-- The standard settings, with some fields of `s`. -/
def onStandard (s : Settings) (fields : List Field) : Settings where
  version := if .version ∈ fields then s.version else standard.version
  shaderName := if .shaderName ∈ fields then s.shaderName else standard.shaderName
  precision := if .precision ∈ fields then s.precision else standard.precision
  maxNodes := if .maxNodes ∈ fields then s.maxNodes else standard.maxNodes

theorem onStandard_all (s : Settings) : s.onStandard Field.all = s := by
  simp [onStandard, Field.mem_all]

theorem value_onStandard (s : Settings) (fields : List Field) (f : Field) :
    (s.onStandard fields).value f = if f ∈ fields then s.value f else standard.value f := by
  by_cases hf : f ∈ fields <;> cases f <;> simp [value, onStandard, hf]

end Fields

section Reading

variable {s : Settings} {fields : List Field} {layout : List Char}

/-- The version is a word of 32 bits and the limit on nodes one of 64. -/
structure WordSized (s : Settings) : Prop where
  version : s.version ≤ 0xffffffff
  maxNodes : s.maxNodes ≤ 0xffffffffffffffff

/-- The fields of the shape of settings documents. -/
def documentFields : Fields :=
  match settingsShape with
  | .record _ fields => fields
  | _ => .nil

theorem settingsShape_eq : settingsShape = .record "GeneratorConfig" documentFields := rfl

/-- Each field is read by the reader of its name. -/
theorem readsField_entry (hs : s.WordSized) (elements depth : ℕ) (f : Field) :
    documentFields.ReadsField elements depth (s.entry f) (s.entry f) := by
  cases f with
  | version => exact ⟨rfl, _, restores_word32 hs.version, rfl⟩
  | shaderName => exact ⟨rfl, _, restores_anyText s.shaderName, rfl⟩
  | precision => exact ⟨rfl, _, s.precision.restores, rfl⟩
  | maxNodes => exact ⟨rfl, _, restores_natural hs.maxNodes, rfl⟩

theorem forall₂_readsField (hs : s.WordSized) (elements depth : ℕ) (fields : List Field) :
    List.Forall₂ (documentFields.ReadsField elements depth) (fields.map s.entry)
      (fields.map s.entry) := by
  rw [List.forall₂_map_left_iff, List.forall₂_map_right_iff, List.forall₂_same]
  intro f _
  exact readsField_entry hs elements depth f

theorem nodup_names (hfields : fields.Nodup) : ((fields.map s.entry).map Prod.fst).Nodup := by
  rw [List.map_map]
  exact hfields.map Field.name_injective

/-- Among the fields that were found, the last one first, is the value of each field written. -/
theorem lookup_entries (hfields : fields.Nodup) (f : Field) :
    (fields.map s.entry).reverse.lookup f.name = if f ∈ fields then some (s.value f) else none := by
  have hnames : ((fields.map s.entry).reverse.map Prod.fst).Nodup := by
    rw [List.map_reverse, List.nodup_reverse]
    exact nodup_names hfields
  by_cases hf : f ∈ fields
  · rw [if_pos hf, OrderedMap.lookup_eq_some_iff hnames, List.mem_reverse]
    exact List.mem_map_of_mem (f := s.entry) hf
  · rw [if_neg hf, List.lookup_eq_none_iff]
    intro e he
    obtain ⟨f', hf', rfl⟩ := List.mem_map.1 (List.mem_reverse.1 he)
    have hne : f' ≠ f := fun h => hf (h ▸ hf')
    simpa [entry] using fun h => hne (Field.name_injective h).symm

/-- The fields that were found, and the standard ones for those that are left out. -/
theorem collect_entries (hfields : fields.Nodup) :
    documentFields.collect (fields.map s.entry).reverse =
      .ok (Field.all.map (s.onStandard fields).entry) := by
  have hvalue : ∀ f : Field, ((fields.map s.entry).reverse.lookup f.name).getD (standard.value f) =
      (s.onStandard fields).value f := by
    intro f
    rw [lookup_entries hfields, value_onStandard]
    by_cases hf : f ∈ fields
    · rw [if_pos hf, if_pos hf, Option.getD_some]
    · rw [if_neg hf, if_neg hf, Option.getD_none]
  show Except.ok (Field.all.map fun f => (f.name,
    ((fields.map s.entry).reverse.lookup f.name).getD (standard.value f))) = _
  simp only [hvalue]
  rfl

/-- Without its version a document has the newest one that is supported. -/
theorem version_onStandard (s : Settings) (fields : List Field) :
    settingsVersion < (s.onStandard fields).version ↔ .version ∈ fields ∧ 1 < s.version := by
  by_cases hversion : Field.version ∈ fields <;>
    simp [onStandard, hversion, standard, settingsVersion]

/-- A document with some of the fields, in any order and layout, after the name of the type or
without it. -/
theorem ofDocument_laid (hs : s.WordSized) (hfields : fields.Nodup)
    (hlaid : Laid ')' (fields.map s.fieldText) layout) {name : String}
    (hname : name ∈ ["GeneratorConfig", ""]) :
    ofDocument (String.ofList (name.toList ++ '(' :: layout)) =
      if .version ∈ fields ∧ 1 < s.version then .error (.unsupportedVersion s.version)
      else .ok (s.onStandard fields) := by
  have hopens : Opens (name.toList ++ '(' :: layout) := by
    rcases List.mem_cons.1 hname with rfl | hname
    · exact opens_of_isPlainName (by decide) _
    · obtain rfl := List.mem_singleton.1 hname
      exact ⟨'(', layout, rfl, by decide⟩
  have hplain : ∀ e ∈ fields.map s.entry, isPlainName e.1 = true := by
    intro e he
    obtain ⟨f, -, rfl⟩ := List.mem_map.1 he
    exact f.isPlainName_name
  have hlaid' : Laid ')' ((fields.map s.entry).map (Document.fieldText 1)) layout := by
    rw [List.map_map]
    exact hlaid
  have hlen : layout.length ≤ (name.toList ++ '(' :: layout).length := by
    simp only [List.length_append, List.length_cons]
    omega
  have hread := read_record_laid maxDepth (by decide) hname hplain (nodup_names hfields)
    (forall₂_readsField hs _ _ fields) (collect_entries hfields) hlaid' hlen []
  rw [List.append_nil] at hread
  have hdocument := readDocument_ofList hopens hread
  rw [← settingsShape_eq] at hdocument
  rw [ofDocument, hdocument]
  simp only [ofValue?_entries]
  by_cases hnewer : .version ∈ fields ∧ 1 < s.version
  · have hversion : (s.onStandard fields).version = s.version := if_pos hnewer.1
    rw [if_pos ((version_onStandard s fields).2 hnewer), if_pos hnewer, hversion]
  · rw [if_neg (mt (version_onStandard s fields).1 hnewer), if_neg hnewer]

/-- A saved document has every field. -/
theorem exists_laid_toDocument (s : Settings) :
    ∃ layout, s.toDocument = String.ofList ("GeneratorConfig".toList ++ '(' :: layout) ∧
      Laid ')' (Field.all.map s.fieldText) layout := by
  refine ⟨'\n' :: printedElements 0 ')' (Field.all.map s.fieldText), ?_, ?_⟩
  · rw [toDocument, Value.document, toValue_eq, print_record, List.map_map]
    rfl
  · exact (laid_printedElements 0 ')' _).blank (by decide)

/-- Settings that were saved are loaded, unless their version is not supported. With the texts of
only some of the fields, in any order and layout, the standard settings with those fields are
loaded. -/
theorem loads_saved_fields (s : Settings) (hs : s.WordSized) :
    (s.version ≤ 1 → ofDocument s.toDocument = .ok s) ∧
    (1 < s.version → ofDocument s.toDocument = .error (.unsupportedVersion s.version)) ∧
    (∃ layout, s.toDocument = String.ofList ("GeneratorConfig".toList ++ '(' :: layout) ∧
      Laid ')' (Field.all.map s.fieldText) layout) ∧
    ∀ fields : List Field, fields.Nodup →
      ∀ layout, Laid ')' (fields.map s.fieldText) layout → ∀ name ∈ ["GeneratorConfig", ""],
        ofDocument (String.ofList (name.toList ++ '(' :: layout)) =
          if .version ∈ fields ∧ 1 < s.version then .error (.unsupportedVersion s.version)
          else .ok (s.onStandard fields) := by
  obtain ⟨layout, hdocument, hlaid⟩ := exists_laid_toDocument s
  have hwhole := ofDocument_laid hs (by decide) hlaid (List.mem_cons_self : "GeneratorConfig" ∈ _)
  rw [← hdocument, onStandard_all] at hwhole
  refine ⟨?_, ?_, ⟨layout, hdocument, hlaid⟩,
    fun fields hfields layout hlaid name hname => ofDocument_laid hs hfields hlaid hname⟩
  · intro hversion
    rw [hwhole, if_neg (by omega)]
  · intro hversion
    rw [hwhole, if_pos ⟨Field.version.mem_all, hversion⟩]

/-- Settings with a name of quotes, a backslash and a line feed, and the largest limit. -/
def boldSettings : Settings := ⟨1, "\"Ash\"\\\n", .fixed, 18446744073709551615⟩

theorem loads_boldSettings :
    ofDocument boldSettings.toDocument = .ok boldSettings ∧
    ofDocument "(max_nodes: 18446744073709551615,\n  shader_name: \"\\\"Ash\\\"\\\\\\n\")" =
      .ok { standard with
        maxNodes := 18446744073709551615, shaderName := "\"Ash\"\\\n" } ∧
    ofDocument { boldSettings with version := 4294967295 }.toDocument =
      .error (.unsupportedVersion 4294967295) := by
  have hall := loads_saved_fields boldSettings ⟨by decide, by decide⟩
  have hnewer := loads_saved_fields { boldSettings with version := 4294967295 }
    ⟨by decide, by decide⟩
  have hgap : Blank ['\n', ' ', ' '] := by simp [Blank, isBlank]
  have hlaid : Laid ')' ([.maxNodes, .shaderName].map boldSettings.fieldText)
      "max_nodes: 18446744073709551615,\n  shader_name: \"\\\"Ash\\\"\\\\\\n\")".toList :=
    .cons blank_nil _ (.last hgap _ (stops_cons (by decide) []))
  exact ⟨hall.1 (by decide), hall.2.2.2 [.maxNodes, .shaderName] (by decide) _ hlaid "" (by decide),
    hnewer.2.1 (by decide)⟩

end Reading

end Settings

end ShaderGraph
