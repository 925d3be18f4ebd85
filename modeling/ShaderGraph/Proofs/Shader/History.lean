import ShaderGraph.Proofs.Shader.Sink

/-!
# What was added to a sink

A sink is filled by calls. What it holds then is told from the calls alone: a section holds the
texts that were added to it, without the unique ones that it held already, and a property is
registered by the first call with its name, which also adds its declaration.

* `count_addAll`, `eraseDups_addAll` : how often a section holds a text, and in which order;
* `Sink.Call`, `Sink.filled` : the calls, and the sink that they fill;
* `Sink.additions`, `Sink.chunks_filled` : what the calls add to a section, which holds no more;
* `Sink.registered_filled` : the properties that the calls register;
* `Sink.Agrees` : sinks that the calls for one section cannot tell apart;
* `Sink.holds_what_was_added` : all of this, for every sequence of calls.
-/

namespace ShaderGraph

/-- A text that is added to a section. -/
structure Addition where
  text : String
  unique : Bool
deriving DecidableEq

section Additions

/-- The chunks of a section after some additions. -/
def addAll (chunks : List String) (as : List Addition) : List String :=
  as.foldl (fun chunks a => addTo chunks a.text a.unique) chunks

variable {chunks : List String} {text other : String} {unique : Bool}

/-- Only a unique text that is held already is left out. -/
theorem addTo_of_mem (h : text ∈ chunks) : addTo chunks text true = chunks := by
  simp [addTo, h]

theorem addTo_of_not_mem (h : unique = true → text ∉ chunks) :
    addTo chunks text unique = chunks ++ [text] := by
  cases unique with
  | false => rfl
  | true => simp [addTo, h rfl]

theorem count_addTo_of_ne (h : text ≠ other) :
    (addTo chunks text unique).count other = chunks.count other := by
  unfold addTo
  split_ifs
  · rfl
  · simp [h]

theorem addAll_cons (chunks : List String) (a : Addition) (as : List Addition) :
    addAll chunks (a :: as) = addAll (addTo chunks a.text a.unique) as := rfl

theorem addAll_append (chunks : List String) (as bs : List Addition) :
    addAll chunks (as ++ bs) = addAll (addAll chunks as) bs := List.foldl_append

/-- A text is held as often as it was added without being unique, and once more if it was unique
where it was added first. -/
theorem count_addAll (as : List Addition) (chunks : List String) (text : String) :
    (addAll chunks as).count text = chunks.count text + as.count ⟨text, false⟩ +
      if text ∉ chunks ∧ as.find? (·.text = text) = some ⟨text, true⟩ then 1 else 0 := by
  induction as generalizing chunks with
  | nil => simp [addAll]
  | cons a as ih =>
    obtain ⟨added, unique⟩ := a
    rw [addAll_cons, ih]
    -- an addition of another text leaves all three terms as they are
    by_cases hadded : added = text
    · subst hadded
      cases unique with
      | false =>
        rw [addTo_of_not_mem (by simp)]
        simp
        omega
      | true =>
        by_cases hmem : added ∈ chunks
        · simp [addTo_of_mem hmem, hmem]
        · rw [addTo_of_not_mem fun _ => hmem]
          simp [hmem, List.count_eq_zero.2 hmem]
          omega
    · simp only [← List.count_eq_zero, count_addTo_of_ne hadded]
      simp [hadded]

theorem eraseDups_append_cons {l r : List String} (h : text ∈ l) :
    (l ++ text :: r).eraseDups = (l ++ r).eraseDups := by
  rw [List.eraseDups_append, List.eraseDups_append, List.cons_removeAll]
  simp [h]

/-- The first occurrences of the texts stand in the order in which they were added first. -/
theorem eraseDups_addAll (as : List Addition) (chunks : List String) :
    (addAll chunks as).eraseDups = (chunks ++ as.map (·.text)).eraseDups := by
  induction as generalizing chunks with
  | nil => simp [addAll]
  | cons a as ih =>
    obtain ⟨text, unique⟩ := a
    rw [addAll_cons, ih, List.map_cons]
    by_cases hheld : unique = true ∧ text ∈ chunks
    · obtain ⟨rfl, hmem⟩ := hheld
      rw [addTo_of_mem hmem, eraseDups_append_cons hmem]
    · rw [addTo_of_not_mem fun hunique hmem => hheld ⟨hunique, hmem⟩, List.append_assoc,
        List.singleton_append]

variable {as : List Addition}

theorem mem_addAll : text ∈ addAll [] as ↔ ∃ a ∈ as, a.text = text := by
  rw [← List.mem_eraseDups, eraseDups_addAll, List.mem_eraseDups, List.nil_append, List.mem_map]

theorem addAll_eq_nil_iff : addAll [] as = [] ↔ as = [] := by
  cases as with
  | nil => simp [addAll]
  | cons a as =>
    have hheld : a.text ∈ addAll [] (a :: as) := mem_addAll.2 ⟨a, List.mem_cons_self, rfl⟩
    simpa using List.ne_nil_of_mem hheld

end Additions

namespace Sink

/-- A call that fills a sink. -/
inductive Call
  | chunk (place : Section) (text : String) (unique : Bool)
  | line (place : Section) (text : String)
  | property (p : Property)

/-- The section that a call may change. -/
def Call.place : Call → Section
  | chunk place _ _ => place
  | line place _ => place
  | property _ => .properties

/-- The property that a call registers. -/
def Call.property? : Call → Option Property
  | property p => some p
  | _ => none

def call (k : Sink) : Call → Sink
  | .chunk place text unique => k.addChunk place text unique
  | .line place text => k.addLine place text
  | .property p => k.addProperty p

/-- The sink that the calls fill. -/
def filled (calls : List Call) : Sink := calls.foldl call .empty

/-- What is added to a section by an addition to some place. -/
def added (s place : Section) (text : String) (unique : Bool) : List Addition :=
  if place = s then [⟨text, unique⟩] else []

/-- What the calls add to a section after properties of these names were registered. A property adds
its declaration if it is the first of its name. -/
def additionsFrom (s : Section) : List String → List Call → List Addition
  | _, [] => []
  | names, .chunk place text unique :: rest =>
    added s place text unique ++ additionsFrom s names rest
  | names, .line place text :: rest => added s place text false ++ additionsFrom s names rest
  | names, .property p :: rest =>
    if p.name ∈ names then additionsFrom s names rest
    else added s .properties p.declaration false ++ additionsFrom s (names ++ [p.name]) rest

/-- What the calls add to a section. -/
def additions (s : Section) (calls : List Call) : List Addition := additionsFrom s [] calls

/-- The properties that the calls offer, those of a name that is taken included. -/
def offered (calls : List Call) : List Property := calls.filterMap Call.property?

variable {k k' : Sink} {s place : Section} {text : String} {unique : Bool} {p : Property}
  {calls : List Call}

section Contents

theorem addProperty_of_mem (h : p.name ∈ k.registered.map (·.name)) : k.addProperty p = k := by
  rw [addProperty, if_pos]
  simpa using h

theorem addProperty_of_not_mem (h : p.name ∉ k.registered.map (·.name)) :
    k.addProperty p =
      { k.addLine .properties p.declaration with registered := k.registered ++ [p] } := by
  rw [addProperty, if_neg]
  simpa using h

theorem chunks_register (k : Sink) (l : List Property) (s : Section) :
    ({ k with registered := l } : Sink).chunks s = k.chunks s := by
  cases s <;> rfl

/-- An addition to some place, seen from any section. -/
theorem chunks_addChunk :
    (k.addChunk place text unique).chunks s = addAll (k.chunks s) (added s place text unique) := by
  unfold added
  split_ifs with hplace
  · rw [hplace, chunks_addChunk_self]
    rfl
  · rw [chunks_addChunk_of_ne (Ne.symm hplace)]
    rfl

/-- A section holds what is added to it, and nothing else. -/
theorem chunks_foldl_call (s : Section) (calls : List Call) (k : Sink) :
    (calls.foldl call k).chunks s =
      addAll (k.chunks s) (additionsFrom s (k.registered.map (·.name)) calls) := by
  induction calls generalizing k with
  | nil => rfl
  | cons c calls ih =>
    rw [List.foldl_cons, ih]
    cases c with
    | chunk place text unique =>
      rw [call, additionsFrom, addAll_append, chunks_addChunk, registered_addChunk]
    | line place text =>
      rw [call, addLine, additionsFrom, addAll_append, chunks_addChunk, registered_addChunk]
    | property p =>
      rw [call, additionsFrom]
      split_ifs with htaken
      · rw [addProperty_of_mem htaken]
      · rw [addProperty_of_not_mem htaken, addAll_append, chunks_register, addLine,
          chunks_addChunk, List.map_append]
        rfl

theorem chunks_filled (s : Section) (calls : List Call) :
    (filled calls).chunks s = addAll [] (additions s calls) := by
  have h := chunks_foldl_call s calls .empty
  cases s <;> exact h

theorem filled_append (calls more : List Call) :
    filled (calls ++ more) = more.foldl call (filled calls) := List.foldl_append

theorem grows_call (k : Sink) (c : Call) : k.Grows (k.call c) := by
  cases c with
  | chunk place text unique => exact grows_addChunk k place text unique
  | line place text => exact grows_addChunk k place text false
  | property p => exact grows_addProperty k p

theorem grows_foldl_call (calls : List Call) (k : Sink) : k.Grows (calls.foldl call k) := by
  induction calls generalizing k with
  | nil => exact .refl k
  | cons c calls ih => exact (grows_call k c).trans (ih _)

end Contents

section Registration

theorem offered_cons_property : offered (.property p :: calls) = p :: offered calls := rfl

/-- Of the properties on offer those of a new name are registered, the first one of each. -/
theorem registered_foldl_call (calls : List Call) (k : Sink) :
    (calls.foldl call k).registered = k.registered ++
      ((offered calls).filter (·.name ∉ k.registered.map (·.name))).eraseDupsBy
        (·.name = ·.name) := by
  induction calls generalizing k with
  | nil => simp [offered, List.eraseDupsBy, List.eraseDupsBy.loop]
  | cons c calls ih =>
    rw [List.foldl_cons, ih]
    cases c with
    | chunk place text unique =>
      rw [call, registered_addChunk]
      rfl
    | line place text =>
      rw [call, addLine, registered_addChunk]
      rfl
    | property p =>
      rw [call, offered_cons_property]
      by_cases htaken : p.name ∈ k.registered.map (·.name)
      · rw [addProperty_of_mem htaken, List.filter_cons_of_neg (by simpa using htaken)]
      · rw [addProperty_of_not_mem htaken, List.filter_cons_of_pos (by simpa using htaken),
          List.eraseDupsBy_cons, List.filter_filter]
        -- what is left over has neither the name of `p` nor one that is taken
        have hleft : ∀ q ∈ offered calls,
            decide (q.name ∉ (k.registered ++ [p]).map (·.name)) =
              (decide (decide (q.name = p.name) = false) &&
                decide (q.name ∉ k.registered.map (·.name))) := by
          intro q _
          rw [Bool.eq_iff_iff]
          simp [and_comm]
        rw [List.filter_congr hleft, List.append_assoc, List.singleton_append]

theorem registered_filled (calls : List Call) :
    (filled calls).registered = (offered calls).eraseDupsBy (·.name = ·.name) := by
  rw [filled, registered_foldl_call]
  simp [empty]

/-- Every name on offer is registered. -/
theorem mem_names_foldl_call {x : String} (calls : List Call) (k : Sink) :
    x ∈ (calls.foldl call k).registered.map (·.name) ↔
      x ∈ k.registered.map (·.name) ∨ x ∈ (offered calls).map (·.name) := by
  induction calls generalizing k with
  | nil => simp [offered]
  | cons c calls ih =>
    rw [List.foldl_cons, ih]
    cases c with
    | chunk place text unique =>
      rw [call, registered_addChunk]
      rfl
    | line place text =>
      rw [call, addLine, registered_addChunk]
      rfl
    | property p =>
      rw [call, offered_cons_property, List.map_cons, List.mem_cons]
      by_cases htaken : p.name ∈ k.registered.map (·.name)
      · rw [addProperty_of_mem htaken]
        constructor
        · exact Or.imp_right Or.inr
        · rintro (h | rfl | h)
          · exact Or.inl h
          · exact Or.inl htaken
          · exact Or.inr h
      · rw [addProperty_of_not_mem htaken]
        simp [or_assoc]

end Registration

section Separation

/-- Sinks that the calls for a section cannot tell apart. -/
structure Agrees (s : Section) (k k' : Sink) : Prop where
  chunks : k.chunks s = k'.chunks s
  registered : s = .properties → k.registered = k'.registered

theorem Agrees.addChunk (h : Agrees s k k') (place : Section) (text : String) (unique : Bool) :
    Agrees s (k.addChunk place text unique) (k'.addChunk place text unique) := by
  refine ⟨?_, fun hs => ?_⟩
  · rw [chunks_addChunk, chunks_addChunk, h.chunks]
  · rw [registered_addChunk, registered_addChunk, h.registered hs]

theorem Agrees.addProperty (h : Agrees .properties k k') (p : Property) :
    Agrees .properties (k.addProperty p) (k'.addProperty p) := by
  have hregistered := h.registered rfl
  by_cases htaken : p.name ∈ k.registered.map (·.name)
  · rw [addProperty_of_mem htaken, addProperty_of_mem (hregistered ▸ htaken)]
    exact h
  · rw [addProperty_of_not_mem htaken, addProperty_of_not_mem (hregistered ▸ htaken)]
    refine ⟨?_, fun _ => ?_⟩
    · rw [chunks_register, chunks_register]
      exact (h.addChunk .properties p.declaration false).chunks
    · exact congrArg (· ++ [p]) hregistered

/-- A call for the section leaves them alike. -/
theorem Agrees.step (h : Agrees s k k') {c : Call} (hc : c.place = s) :
    Agrees s (k.call c) (k'.call c) := by
  cases c with
  | chunk place text unique => exact h.addChunk place text unique
  | line place text => exact h.addChunk place text false
  | property p =>
    subst hc
    exact h.addProperty p

/-- A call for another section is not noticed. -/
theorem Agrees.step_of_ne (h : Agrees s k k') {c : Call} (hc : c.place ≠ s) :
    Agrees s (k.call c) k' := by
  have hchunk : ∀ place text unique, place ≠ s → Agrees s (k.addChunk place text unique) k' := by
    intro place text unique hplace
    refine ⟨?_, fun hs => ?_⟩
    · rw [chunks_addChunk_of_ne (Ne.symm hplace), h.chunks]
    · rw [registered_addChunk, h.registered hs]
  cases c with
  | chunk place text unique => exact hchunk place text unique hc
  | line place text => exact hchunk place text false hc
  | property p =>
    refine ⟨?_, fun hs => absurd hs.symm hc⟩
    by_cases htaken : p.name ∈ k.registered.map (·.name)
    · rw [call, addProperty_of_mem htaken, h.chunks]
    · rw [call, addProperty_of_not_mem htaken, chunks_register]
      exact (hchunk .properties p.declaration false hc).chunks

theorem Agrees.run (h : Agrees s k k') (calls : List Call) :
    Agrees s (calls.foldl call k) ((calls.filter (·.place = s)).foldl call k') := by
  induction calls generalizing k k' with
  | nil => exact h
  | cons c calls ih =>
    by_cases hc : c.place = s
    · rw [List.filter_cons_of_pos (by simpa using hc)]
      exact ih (h.step hc)
    · rw [List.filter_cons_of_neg (by simpa using hc)]
      exact ih (h.step_of_ne hc)

end Separation

/-- **A sink loses and doubles nothing.** After any calls each section and the properties have only
grown at their ends. A section holds a text as often as it was added there without being unique, and
once more if it was unique where it was added first; the first occurrences stand in the order of the
first additions; and the calls for other sections make no difference. The properties are the first
of each name on offer, in their order: the first one writes its declaration like a line, and later
ones of its name do nothing. -/
theorem holds_what_was_added (calls : List Call) :
    (∀ more, (filled calls).Grows (filled (calls ++ more))) ∧
    (∀ s text, ((filled calls).chunks s).count text = (additions s calls).count ⟨text, false⟩ +
      if (additions s calls).find? (·.text = text) = some ⟨text, true⟩ then 1 else 0) ∧
    (∀ s, ((filled calls).chunks s).eraseDups = ((additions s calls).map (·.text)).eraseDups) ∧
    (∀ s, (filled calls).chunks s = (filled (calls.filter (·.place = s))).chunks s) ∧
    (filled calls).registered = (offered calls).eraseDupsBy (·.name = ·.name) ∧
    ∀ p, filled (calls ++ [.property p]) =
      if p.name ∈ (offered calls).map (·.name) then filled calls
      else { (filled calls).addLine .properties p.declaration with
        registered := (filled calls).registered ++ [p] } := by
  refine ⟨fun more => ?_, fun s text => ?_, fun s => ?_, fun s => ?_, registered_filled calls,
    fun p => ?_⟩
  · rw [filled_append]
    exact grows_foldl_call more _
  · rw [chunks_filled, count_addAll]
    simp
  · rw [chunks_filled, eraseDups_addAll, List.nil_append]
  · exact (Agrees.run ⟨rfl, fun _ => rfl⟩ calls).chunks
  · have hnames : p.name ∈ (filled calls).registered.map (·.name) ↔
        p.name ∈ (offered calls).map (·.name) := by
      rw [filled, mem_names_foldl_call]
      simp [empty]
    rw [filled_append]
    split_ifs with htaken
    · exact addProperty_of_mem (hnames.2 htaken)
    · exact addProperty_of_not_mem (mt hnames.1 htaken)

/-- A declaration that was written as a unique chunk before is written again. -/
example :
    let p : Property := ⟨"_p", "P", .texture none .white, true⟩
    (filled [.chunk .properties p.declaration true, .property p, .property p,
      .chunk .properties p.declaration true]).properties = [p.declaration, p.declaration] := by
  decide +kernel

end Sink

end ShaderGraph
