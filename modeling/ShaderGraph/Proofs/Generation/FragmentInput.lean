import ShaderGraph.Proofs.Generation.Sections
import ShaderGraph.Proofs.Shader.History

/-!
# The fragment input

The shading language wants at least one member in the fragment input. A member is put in where the
section has no chunks, but chunks are not lines: empty texts give no line and blank texts give blank
ones. So the input has a member if and only if nothing was added to the section or some text in it
is not blank, and this is so in every shader that is generated.

* `assemble_eq` : where the members stand in the shader;
* `all_isBlank_chunkLines`, `chunkLines_eq_nil_iff` : what is left of a text in its lines;
* `fragmentInput_filled_iff` : the calls after which the input has a member;
* `generate_fills_input` : the members in a generated shader.
-/

namespace ShaderGraph

section Layout

/-- The member put in where no chunk gives one. -/
def standInMember (p : Precision) : String := ConcreteType.vector4.name p ++ " color : COLOR;"

/-- The lines of the fragment input, without the tabs before them. -/
def Sink.inputLines (k : Sink) (p : Precision) : List String :=
  if k.vertexToFragment = [] then [standInMember p] else k.vertexToFragment.flatMap chunkLines

/-- The pieces of a shader before the fragment input. -/
def Sink.beforeInput (k : Sink) (settings : Settings) : List String :=
  ["Shader \"", settings.shaderName, "\" \x7b\n",
    "\tProperties \x7b\n",
    indented 2 k.properties,
    "\t\x7d\n",
    "\tSubShader \x7b\n",
    "\t\tTags \x7b \"RenderType\"=\"Opaque\" \x7d\n",
    "\t\tLOD 200\n\n",
    "\t\tCGPROGRAM\n",
    "\t\t#pragma surface surf Standard vertex:vert\n",
    "\t\t#pragma target 3.0\n\n",
    paragraph k.functions,
    paragraph k.propertyUsages]

/-- The pieces of a shader after the fragment input. -/
def Sink.afterInput (k : Sink) : List String :=
  ["\t\tvoid vert (inout appdata_full v, out Input o) \x7b\n",
    "\t\t\tUNITY_INITIALIZE_OUTPUT(Input, o);\n",
    indented 3 k.vertex,
    "\t\t\x7d\n\n",
    "\t\tvoid surf (Input IN, inout SurfaceOutputStandard o) \x7b\n",
    indented 3 k.body,
    "\t\t\x7d\n",
    "\t\tENDCG\n",
    "\t\x7d\n",
    "\tFallBack \"Diffuse\"\n",
    "\x7d\n"]

variable (k : Sink) (settings : Settings)

theorem inputMembers_eq (p : Precision) :
    inputMembers p k.vertexToFragment =
      String.join ((k.inputLines p).map fun line => "\t\t\t" ++ line ++ "\n") := by
  unfold inputMembers Sink.inputLines
  cases k.vertexToFragment with
  | nil => simp [standInMember, String.append_assoc]
  | cons chunk chunks => rfl

/-- The lines of the fragment input stand between the line that opens it and the one that closes
it. -/
theorem assemble_eq :
    k.assemble settings =
      String.join (k.beforeInput settings) ++ "\t\tstruct Input \x7b\n" ++
        String.join ((k.inputLines settings.precision).map fun line => "\t\t\t" ++ line ++ "\n") ++
        "\t\t\x7d;\n\n" ++ String.join k.afterInput := by
  have hpieces : k.assemble settings =
      String.join (k.beforeInput settings ++ ["\t\tstruct Input \x7b\n",
        inputMembers settings.precision k.vertexToFragment, "\t\t\x7d;\n\n"] ++ k.afterInput) := rfl
  rw [hpieces, String.join_append, String.join_append, inputMembers_eq]
  simp [String.append_assoc]

end Layout

section Blanks

/-- White space, line ends included. -/
def isSpace (c : Char) : Bool :=
  ['\t', '\n', '\x0b', '\x0c', '\r', ' ', '\u0085', '\u00a0', '\u1680', '\u2000', '\u2001',
    '\u2002', '\u2003', '\u2004', '\u2005', '\u2006', '\u2007', '\u2008', '\u2009', '\u200a',
    '\u2028', '\u2029', '\u202f', '\u205f', '\u3000'].contains c

/-- A text of which nothing can be seen. -/
def isBlank (text : String) : Bool := text.toList.all isSpace

/-- Splitting a text into lines takes nothing from it but white space. -/
theorem all_isSpace_linesFrom (current w : List Char) :
    (linesFrom current w).all (·.all isSpace) = (current ++ w).all isSpace := by
  induction w generalizing current with
  | nil => cases current <;> simp [linesFrom, Bool.and_comm]
  | cons c w ih =>
    have hfeed : isSpace '\n' = true := by decide
    have hreturn : isSpace '\r' = true := by decide
    rw [linesFrom]
    split_ifs with hc hlast
    · -- the unfinished line ends with a carriage return, which is left out
      obtain ⟨rest, rfl⟩ := List.head?_eq_some_iff.1 hlast
      simp [ih, hc, hfeed, hreturn]
    · simp [ih, hc, hfeed]
    · rw [ih]
      simp [Bool.and_left_comm]

theorem all_isBlank_chunkLines (text : String) :
    (chunkLines text).all isBlank = isBlank text := by
  have h := all_isSpace_linesFrom [] text.toList
  rw [chunkLines, List.all_map]
  simpa [isBlank, Function.comp_def] using h

theorem linesFrom_ne_nil (current w : List Char) (h : current ++ w ≠ []) :
    linesFrom current w ≠ [] := by
  induction w generalizing current with
  | nil =>
    obtain ⟨c, current, rfl⟩ := List.exists_cons_of_ne_nil (by simpa using h)
    simp [linesFrom]
  | cons c w ih =>
    rw [linesFrom]
    split_ifs
    · simp
    · simp
    · exact ih (c :: current) (by simp)

theorem chunkLines_eq_nil_iff {text : String} : chunkLines text = [] ↔ text = "" := by
  constructor
  · intro h
    by_contra hne
    exact linesFrom_ne_nil [] text.toList (by simpa using hne) (List.map_eq_nil_iff.1 h)
  · rintro rfl
    rfl

end Blanks

section Members

open Sink

variable {calls : List Sink.Call} {p : Precision}

/-- Some line of the fragment input is not blank. -/
def Sink.InputFilled (k : Sink) (p : Precision) : Prop :=
  ∃ line ∈ k.inputLines p, isBlank line = false

theorem isBlank_standInMember (p : Precision) : isBlank (standInMember p) = false := by
  cases p <;> decide

theorem isBlank_interpolatorChunk (p : Precision) : isBlank (interpolatorChunk p) = false := by
  cases p <;> decide

theorem chunkLines_interpolatorChunk (p : Precision) :
    chunkLines (interpolatorChunk p) = [interpolatorChunk p] := by
  cases p <;> decide

theorem exists_not_isBlank_iff {chunks : List String} :
    (∃ line ∈ chunks.flatMap chunkLines, isBlank line = false) ↔
      ∃ chunk ∈ chunks, isBlank chunk = false := by
  have hall : (chunks.flatMap chunkLines).all isBlank = chunks.all isBlank := by
    rw [List.all_flatMap]
    exact congrArg chunks.all (funext all_isBlank_chunkLines)
  simpa only [List.all_eq_false, Bool.not_eq_true, eq_iff_iff] using congrArg (· = false) hall

theorem inputLines_filled (calls : List Sink.Call) (p : Precision) :
    (filled calls).inputLines p =
      if additions .vertexToFragment calls = [] then [standInMember p]
      else (addAll [] (additions .vertexToFragment calls)).flatMap chunkLines := by
  have hchunks : (filled calls).vertexToFragment =
      addAll [] (additions .vertexToFragment calls) := chunks_filled .vertexToFragment calls
  simp only [inputLines, hchunks, addAll_eq_nil_iff]

/-- The fragment input is left without a line by empty texts, and only by them. -/
theorem inputLines_eq_nil_iff :
    (filled calls).inputLines p = [] ↔
      additions .vertexToFragment calls ≠ [] ∧
        ∀ a ∈ additions .vertexToFragment calls, a.text = "" := by
  rw [inputLines_filled]
  split_ifs with hnone
  · simp [hnone]
  · simp only [List.flatMap_eq_nil_iff, chunkLines_eq_nil_iff, mem_addAll, ne_eq, hnone,
      not_false_eq_true, true_and]
    exact ⟨fun h a ha => h _ ⟨a, ha, rfl⟩, fun h _ ⟨a, ha, htext⟩ => htext ▸ h a ha⟩

theorem inputFilled_iff :
    (filled calls).InputFilled p ↔ additions .vertexToFragment calls = [] ∨
      ∃ a ∈ additions .vertexToFragment calls, isBlank a.text = false := by
  rw [InputFilled, inputLines_filled]
  split_ifs with hnone
  · simp [hnone, isBlank_standInMember]
  · rw [exists_not_isBlank_iff]
    simp [hnone, mem_addAll]

/-- **When the fragment input has a member.** Its lines stand between the line that opens it and the
one that closes it. They are the lines of the chunks of its section, or the member put in if nothing
was added there. So there is no line if and only if something was added and all of it was empty, and
there is a line that is not blank if and only if nothing was added or not all of it was blank. -/
theorem fragmentInput_filled_iff (calls : List Sink.Call) (settings : Settings) :
    (filled calls).assemble settings =
      String.join ((filled calls).beforeInput settings) ++ "\t\tstruct Input \x7b\n" ++
        String.join (((filled calls).inputLines settings.precision).map
          fun line => "\t\t\t" ++ line ++ "\n") ++
        "\t\t\x7d;\n\n" ++ String.join (filled calls).afterInput ∧
    (filled calls).inputLines settings.precision =
      (if additions .vertexToFragment calls = [] then [standInMember settings.precision]
        else ((filled calls).chunks .vertexToFragment).flatMap chunkLines) ∧
    ((filled calls).inputLines settings.precision = [] ↔
      additions .vertexToFragment calls ≠ [] ∧
        ∀ a ∈ additions .vertexToFragment calls, a.text = "") ∧
    ((filled calls).InputFilled settings.precision ↔
      additions .vertexToFragment calls = [] ∨
        ∃ a ∈ additions .vertexToFragment calls, isBlank a.text = false) := by
  refine ⟨assemble_eq _ settings, ?_, inputLines_eq_nil_iff, inputFilled_iff⟩
  rw [inputLines_filled, chunks_filled]

/-- One text that is not blank is enough. -/
theorem fragmentInput_of_blankCalls :
    let calls : List Sink.Call := [.chunk .vertexToFragment "" true,
      .line .vertexToFragment " \n\t", .line .vertexToFragment "half4 meshUV0;"]
    (filled calls).inputLines .half = [" ", "\t", "half4 meshUV0;"] ∧
    (filled calls).InputFilled .half := by
  intro calls
  obtain ⟨-, -, -, hfilled⟩ := fragmentInput_filled_iff calls .standard
  exact ⟨by decide, hfilled.2 (by decide)⟩

/-- An empty chunk keeps the member from being put in, and gives none itself. -/
theorem empty_chunk_empties_input :
    let k := filled [.chunk .vertexToFragment "" true]
    k.assemble .standard =
      String.join (k.beforeInput .standard) ++ "\t\tstruct Input \x7b\n" ++ "\t\t\x7d;\n\n" ++
        String.join k.afterInput ∧
    ¬ ∀ (calls : List Sink.Call) (settings : Settings),
      (filled calls).InputFilled settings.precision := by
  intro k
  have hnone : k.inputLines Settings.standard.precision = [] := by decide
  refine ⟨?_, fun hfilled => ?_⟩
  · have hassemble := assemble_eq k .standard
    rwa [hnone, List.map_nil, String.join_nil, String.append_empty] at hassemble
  · obtain ⟨line, hline, -⟩ := hfilled [.chunk .vertexToFragment "" true] .standard
    exact List.ne_nil_of_mem hline hnone

variable {g : Graph} {mode : Mode} {settings : Settings} {shader : Shader}

/-- The mesh coordinates are the only member of a generated shader, or else one is put in. -/
theorem generate_fills_input (h : generate g mode settings = .ok shader) :
    ∃ pass, runPass g mode settings = .ok pass ∧ shader.source = pass.sink.assemble settings ∧
      pass.sink.inputLines settings.precision =
        (if pass.fragments.any (·.meshUV) then [interpolatorChunk settings.precision]
          else [standInMember settings.precision]) ∧
      pass.sink.InputFilled settings.precision := by
  obtain ⟨order, pass, -, hrun, hsource, houtcomes, hsink⟩ := runPass_of_generate h
  have hfragments : pass.fragments = fragmentsOf g mode order := by
    rw [Pass.fragments, houtcomes, fragmentsOf]
  have hlines : pass.sink.inputLines settings.precision =
      if pass.fragments.any (·.meshUV) then [interpolatorChunk settings.precision]
      else [standInMember settings.precision] := by
    rw [inputLines, hsink, vertexToFragment_sink, hfragments]
    cases (fragmentsOf g mode order).any (·.meshUV) with
    | false => rfl
    | true => simp [chunkLines_interpolatorChunk]
  refine ⟨pass, hrun, hsource, hlines, ?_⟩
  rw [InputFilled, hlines]
  split_ifs
  · exact ⟨_, List.mem_singleton_self _, isBlank_interpolatorChunk _⟩
  · exact ⟨_, List.mem_singleton_self _, isBlank_standInMember _⟩

end Members

end ShaderGraph
