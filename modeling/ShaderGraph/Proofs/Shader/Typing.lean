import ShaderGraph.Proofs.Shader.Reading

/-!
# Types of read terms

A program is what the lines of a shader say once they are read. The types of its terms come from
its own declarations and nothing else.

* `Term.reads` : the names a term reads, a member of the fragment input under its path;
* `Program`, `Program.type?` : the declarations of a shader, and the type they give a term;
* `Spelled` : an expression that can be read back, so that components of it can be selected;
* `Program.Types` : an expression that can be read back and has a type there;
* `Types.coerce`, `types_vectorLiteral` : what the inputs of a node are built from has its type.
-/

namespace ShaderGraph.Reading

section Programs

/-- The fragment input, the one structure that statements read. -/
def Term.isInput : Term → Bool
  | .name s => s == "IN"
  | _ => false

mutual

/-- The names a term reads. What is called is none of them. -/
def Term.reads : Term → List String
  | .name s => [s]
  | .number _ => []
  | .member t s => if t.isInput then ["IN." ++ s] else t.reads
  | .call _ arguments => readsOf arguments

def readsOf : List Term → List String
  | [] => []
  | t :: rest => t.reads ++ readsOf rest

end

/-- The statements of the fragment stage, and the types and names of the uniforms and of the members
of the fragment input. -/
structure Program where
  body : List Line
  uniforms : List (String × String)
  members : List (String × String)

/-- The type and the name that a statement declares. -/
def Line.declared? : Line → Option (String × String)
  | .declare type name _ => some (type, name)
  | .assign .. => none

/-- Whether a statement declares the variable. -/
def Line.declares (l : Line) (x : String) : Bool := l.declared?.any (·.2 == x)

/-- What stands on the right of a statement. -/
def Line.value : Line → Term
  | .declare _ _ value => value
  | .assign _ value => value

def typeNamed? (p : Precision) (w : String) : Option ConcreteType :=
  ConcreteType.all.find? (·.name p = w)

/-- The type of some components of a vector, if the vector has them all. -/
def swizzle? (t : ConcreteType) (s : String) : Option ConcreteType :=
  let has (c : Char) : Bool :=
    (['x', 'y', 'z', 'w'].take t.components).contains c ||
      (['r', 'g', 'b', 'a'].take t.components).contains c
  if 1 ≤ s.length ∧ s.length ≤ 4 ∧ s.toList.all has then some (.ofComponents s.length) else none

/-- How many components values of these types have together. -/
def totalComponents : List ConcreteType → Nat
  | [] => 0
  | t :: rest => t.components + totalComponents rest

namespace Program

/-- The type of the first declaration of a name in a list. -/
def declaredIn? (p : Precision) (declarations : List (String × String)) (x : String) :
    Option ConcreteType :=
  (declarations.find? (·.2 = x)).bind fun d => typeNamed? p d.1

/-- The type that a variable or a uniform is declared with. -/
def variableType? (q : Program) (p : Precision) (x : String) : Option ConcreteType :=
  declaredIn? p (q.body.filterMap Line.declared? ++ q.uniforms) x

mutual

/-- The type of a term. A call has one if it builds a vector from as many components as the vector
has. -/
def type? (q : Program) (p : Precision) : Term → Option ConcreteType
  | .name s => q.variableType? p s
  | .number _ => some .vector1
  | .member t s =>
    if t.isInput then declaredIn? p q.members s else (q.type? p t).bind (swizzle? · s)
  | .call f arguments => do
    let t ← typeNamed? p f
    let parts ← q.types? p arguments
    if t.isVector && parts.all (·.isVector) && totalComponents parts == t.components then some t
    else none

def types? (q : Program) (p : Precision) : List Term → Option (List ConcreteType)
  | [] => some []
  | t :: rest => do
    let type ← q.type? p t
    let types ← q.types? p rest
    some (type :: types)

end

end Program

end Programs

end ShaderGraph.Reading

namespace ShaderGraph

open Reading

/-- What the sections of a sink say, if each of their lines can be read. -/
def Sink.program? (k : Sink) : Option Program := do
  let body ← k.body.mapM readLine?
  let uniforms ← k.propertyUsages.mapM readDeclaration?
  let members ← k.vertexToFragment.mapM readDeclaration?
  some ⟨body, uniforms, members⟩

section Expressions

/-- The term that the text of a name spells. -/
def Reference.term : Reference → Term
  | output x => .name x
  | property x => .name x
  | meshUV => .member (.name "IN") "meshUV0"

namespace Expression

/-- The term that the text of an expression spells. -/
def term (p : Precision) : Expression → Term
  | read r => r.term
  | scalar x => .number (literalText x)
  | vector type components => .call (type.name p) (components.map fun x => .number (literalText x))
  | select e s => .member (e.term p) s.text
  | splat type e => .call (type.name p) (List.replicate type.components (e.term p))
  | pad type e zeros => .call (type.name p) (e.term p :: List.replicate zeros (.number "0"))

/-- The one name that an expression reads, none if it is a literal. -/
def reference? : Expression → Option Reference
  | read r => some r
  | scalar _ => none
  | vector .. => none
  | select e _ => e.reference?
  | splat _ e => e.reference?
  | pad _ e _ => e.reference?

end Expression

end Expressions

namespace Reading

section Spelling

variable {p : Precision} {e : Expression} {t u : ConcreteType}

theorem isName_typeName (t : ConcreteType) (p : Precision) : isName (t.name p).toList = true := by
  cases t <;> cases p <;> decide

theorem readAll_replicate {s : String} {a : Term} (h : Reads s.toList a) (n : Nat) :
    ReadAll (List.replicate n s) (List.replicate n a) := by
  induction n with
  | zero => exact .nil
  | succ n ih => exact .cons h ih

theorem components_pos (ht : t.isVector = true) : 1 ≤ t.components := by
  cases t
  case texture2D => cases ht
  all_goals decide

theorem reads_zero : Reads "0".toList (.number "0") := reads_digits (w := ['0']) (by decide)

/-- The path of the coordinates of the mesh. -/
theorem reads_meshUV : Reads "IN.meshUV0".toList (.member (.name "IN") "meshUV0") := by
  have hinput : Reads "IN".toList (.name "IN") := reads_name (by decide)
  have hpath := hinput.follow (w := "meshUV0".toList) (by decide) (by decide)
  have htext : "IN.meshUV0".toList = "IN".toList ++ '.' :: "meshUV0".toList := by decide
  have hterm : (Term.name "IN").follow "meshUV0".toList = .member (.name "IN") "meshUV0" := by
    rw [Term.follow, String.ofList_toList]
    simp
  rwa [← htext, hterm] at hpath

/-- The expression is written as its term, which is no number. -/
structure Spelled (p : Precision) (e : Expression) : Prop where
  reads : Reads (e.text p).toList (e.term p)
  not_number : ∀ w, e.term p ≠ .number w

theorem reads_vector {components : List Binary32} (hne : components ≠ [])
    (hfinite : ∀ x ∈ components, x.isFinite = true) :
    Reads (Expression.text p (.vector t components)).toList
      (Expression.term p (.vector t components)) := by
  refine reads_call (isName_typeName t p) ?_ (by simpa using hne)
  clear hne
  induction components with
  | nil => exact .nil
  | cons x components ih =>
    exact .cons (reads_literal (hfinite x (by simp))) (ih fun y hy => hfinite y (by simp [hy]))

theorem Spelled.select {c : Selection} (h : Spelled p e) (hc : isName c.text.toList = true) :
    Spelled p (.select e c) where
  reads := by
    obtain ⟨hne, hall⟩ := isName_isWord hc
    have hfollow : (e.term p).follow c.text.toList = .member (e.term p) c.text := by
      unfold Term.follow
      split
      · exact absurd ‹_› (h.not_number _)
      · rw [String.ofList_toList]
    have htext : (Expression.text p (.select e c)).toList =
        (e.text p).toList ++ '.' :: c.text.toList := by
      simp [Expression.text, String.toList_append]
    rw [htext, Expression.term, ← hfollow]
    exact h.reads.follow hne hall
  not_number := by simp [Expression.term]

theorem reads_splat (h : Reads (e.text p).toList (e.term p)) (hu : u.isVector = true) :
    Reads (Expression.text p (.splat u e)).toList (Expression.term p (.splat u e)) := by
  have hne : List.replicate u.components (e.text p) ≠ [] := by
    have := components_pos hu
    simp
    omega
  exact reads_call (isName_typeName u p) (readAll_replicate h _) hne

theorem reads_pad (h : Reads (e.text p).toList (e.term p)) (zeros : Nat) :
    Reads (Expression.text p (.pad u e zeros)).toList (Expression.term p (.pad u e zeros)) :=
  reads_call (isName_typeName u p) (.cons h (readAll_replicate reads_zero zeros)) (by simp)

theorem isName_leading (hu : u.isVector = true) :
    isName (Selection.leading u.components).text.toList = true := by
  cases u <;> first | decide | exact absurd hu (by decide)

/-- An adapted expression can be read back. -/
theorem Spelled.coerce (h : Spelled p e) (t : ConcreteType) (hu : u.isVector = true) :
    Reads ((e.coerce t u).text p).toList ((e.coerce t u).term p) := by
  unfold Expression.coerce
  split
  · exact h.reads
  · split
    · exact (h.select (isName_leading hu)).reads
    · split
      · exact reads_splat h.reads hu
      · exact reads_pad h.reads _

/-- A literal can be read back. -/
theorem reads_vectorLiteral (values : List Binary32) (t : ConcreteType) :
    Reads ((Expression.vectorLiteral values t).text p).toList
      ((Expression.vectorLiteral values t).term p) := by
  unfold Expression.vectorLiteral
  by_cases hone : t.components ≤ 1
  · simp only [if_pos hone]
    exact reads_literal (isFinite_finite _)
  · simp only [if_neg hone]
    refine reads_vector ?_ fun x hx => ?_
    · intro hnil
      have hzero := congrArg List.length hnil
      rw [List.length_map, List.length_range, List.length_nil] at hzero
      omega
    · obtain ⟨i, -, rfl⟩ := List.mem_map.1 hx
      exact isFinite_finite _

end Spelling

section Types

variable {q : Program} {p : Precision} {e : Expression} {t u : ConcreteType}

/-- The expression can be read back, has the type in the program, and reads one name at most. -/
structure Program.Types (q : Program) (p : Precision) (e : Expression) (t : ConcreteType) :
    Prop where
  spelled : Reads (e.text p).toList (e.term p)
  typed : q.type? p (e.term p) = some t
  isInput : (e.term p).isInput = false
  reads : ∀ x ∈ (e.term p).reads, ∃ r, e.reference? = some r ∧ x = r.text

theorem typeNamed?_name (t : ConcreteType) (p : Precision) : typeNamed? p (t.name p) = some t := by
  cases t <;> cases p <;> decide

theorem types?_replicate {a : Term} (h : q.type? p a = some t) (n : Nat) :
    q.types? p (List.replicate n a) = some (List.replicate n t) := by
  induction n with
  | zero => rfl
  | succ n ih => simp [List.replicate_succ, Program.types?, h, ih]

theorem types?_numbers (texts : List String) :
    q.types? p (texts.map .number) = some (List.replicate texts.length .vector1) := by
  induction texts with
  | nil => rfl
  | cons s texts ih => simp [List.replicate_succ, Program.types?, Program.type?, ih]

theorem mem_readsOf {x : String} {arguments : List Term} :
    x ∈ readsOf arguments ↔ ∃ a ∈ arguments, x ∈ a.reads := by
  induction arguments with
  | nil => simp [readsOf]
  | cons a arguments ih => simp [readsOf, ih]

theorem totalComponents_numbers (n : Nat) :
    totalComponents (List.replicate n .vector1) = n := by
  induction n with
  | zero => rfl
  | succ n ih =>
    have hone : ConcreteType.vector1.components = 1 := rfl
    rw [List.replicate_succ, totalComponents, ih, hone]
    omega

/-- A vector built from parts whose components add up to its own. -/
theorem type?_construct {arguments : List Term} {parts : List ConcreteType}
    (hparts : q.types? p arguments = some parts) (hvector : ∀ c ∈ parts, c.isVector = true)
    (ht : t.isVector = true) (htotal : totalComponents parts = t.components) :
    q.type? p (.call (t.name p) arguments) = some t := by
  simpa [Program.type?, typeNamed?_name, hparts, ht, htotal] using hvector

theorem types_scalar {x : Binary32} (hx : x.isFinite = true) :
    q.Types p (.scalar x) .vector1 where
  spelled := reads_literal hx
  typed := rfl
  isInput := rfl
  reads := by simp [Expression.term, Term.reads]

theorem types_vector {components : List Binary32} (ht : t.isVector = true)
    (hlength : components.length = t.components) (hfinite : ∀ x ∈ components, x.isFinite = true) :
    q.Types p (.vector t components) t where
  spelled := by
    refine reads_vector ?_ hfinite
    rintro rfl
    have hpos := components_pos ht
    rw [← hlength, List.length_nil] at hpos
    omega
  typed := by
    have hparts := types?_numbers (q := q) (p := p) (components.map literalText)
    rw [List.map_map, List.length_map, hlength] at hparts
    refine type?_construct hparts ?_ ht (totalComponents_numbers _)
    intro c hc
    rw [List.eq_of_mem_replicate hc]
    rfl
  isInput := rfl
  reads := by
    intro x hx
    simp only [Expression.term, Term.reads, mem_readsOf, List.mem_map] at hx
    obtain ⟨a, ⟨y, -, rfl⟩, hxa⟩ := hx
    simp [Term.reads] at hxa

/-- Some components of an expression that is no number. -/
theorem Program.Types.select {s : Selection} (h : q.Types p e t)
    (hnumber : ∀ w, e.term p ≠ .number w) (hs : isName s.text.toList = true)
    (hu : swizzle? t s.text = some u) : q.Types p (.select e s) u where
  spelled := (Spelled.select ⟨h.spelled, hnumber⟩ hs).reads
  typed := by simp [Expression.term, Program.type?, h.isInput, h.typed, hu]
  isInput := rfl
  reads := by
    intro x hx
    rw [Expression.term, Term.reads, h.isInput, if_neg (by simp)] at hx
    exact h.reads x hx

theorem Program.Types.splat (h : q.Types p e .vector1) (hu : u.isVector = true) :
    q.Types p (.splat u e) u where
  spelled := reads_splat h.spelled hu
  typed := by
    refine type?_construct (types?_replicate h.typed _) ?_ hu (totalComponents_numbers _)
    intro c hc
    rw [List.eq_of_mem_replicate hc]
    rfl
  isInput := rfl
  reads := by
    intro x hx
    rw [Expression.term, Term.reads, mem_readsOf] at hx
    obtain ⟨a, ha, hxa⟩ := hx
    rw [List.eq_of_mem_replicate ha] at hxa
    exact h.reads x hxa

theorem Program.Types.pad (h : q.Types p e t) (ht : t.isVector = true) (hu : u.isVector = true)
    {zeros : Nat} (hzeros : t.components + zeros = u.components) :
    q.Types p (.pad u e zeros) u where
  spelled := reads_pad h.spelled zeros
  typed := by
    have hzero : q.types? p (List.replicate zeros (.number "0")) =
        some (List.replicate zeros .vector1) := types?_replicate rfl zeros
    have hparts : q.types? p (e.term p :: List.replicate zeros (.number "0")) =
        some (t :: List.replicate zeros .vector1) := by
      simp [Program.types?, h.typed, hzero]
    have htotal : totalComponents (t :: List.replicate zeros .vector1) = u.components := by
      rw [totalComponents, totalComponents_numbers, hzeros]
    refine type?_construct hparts ?_ hu htotal
    intro c hc
    rw [List.mem_cons] at hc
    obtain rfl | hc := hc
    · exact ht
    · rw [List.eq_of_mem_replicate hc]
      rfl
  isInput := rfl
  reads := by
    intro x hx
    rw [Expression.term, Term.reads, mem_readsOf] at hx
    obtain ⟨a, ha, hxa⟩ := hx
    rw [List.mem_cons] at ha
    obtain rfl | ha := ha
    · exact h.reads x hxa
    · rw [List.eq_of_mem_replicate ha] at hxa
      simp [Term.reads] at hxa

/-- The first components of a wider vector. -/
theorem Program.Types.narrow (h : q.Types p e t) (hu : u.isVector = true)
    (hlt : u.components < t.components) : q.Types p (.select e (.leading u.components)) u := by
  have hnumber : ∀ w, e.term p ≠ .number w := by
    intro w hw
    have htype := h.typed
    rw [hw] at htype
    obtain rfl : ConcreteType.vector1 = t := Option.some.inj htype
    have hone : ConcreteType.vector1.components = 1 := rfl
    have := components_pos hu
    omega
  refine h.select hnumber (isName_leading hu) ?_
  cases u <;> cases t <;>
    first | decide | exact absurd hu (by decide) | exact absurd hlt (by decide)

example : swizzle? .vector2 "xyz" = none := by decide

/-- An adapted expression has the type it is adapted to. -/
theorem Program.Types.coerce (h : q.Types p e t) (ht : t.isVector = true)
    (hu : u.isVector = true) : q.Types p (e.coerce t u) u := by
  unfold Expression.coerce
  by_cases heq : t = u
  · subst heq
    rwa [if_pos (.inl rfl)]
  · rw [if_neg (by simp [heq, ht, hu])]
    by_cases hlt : u.components < t.components
    · rw [if_pos hlt]
      exact h.narrow hu hlt
    · rw [if_neg hlt]
      by_cases hone : t.components = 1
      · rw [if_pos hone]
        obtain rfl : t = .vector1 := by
          cases t <;> first | rfl | exact absurd hone (by decide)
        exact h.splat hu
      · rw [if_neg hone]
        exact h.pad ht hu (by omega)

/-- A literal has the type it is written for. -/
theorem types_vectorLiteral (values : List Binary32) (ht : t.isVector = true) :
    q.Types p (.vectorLiteral values t) t := by
  unfold Expression.vectorLiteral
  by_cases hone : t.components ≤ 1
  · simp only [if_pos hone]
    obtain rfl : t = .vector1 := by
      cases t <;> first | rfl | exact absurd ht (by decide) | exact absurd hone (by decide)
    exact types_scalar (isFinite_finite _)
  · simp only [if_neg hone]
    refine types_vector ht (by simp) fun x hx => ?_
    rw [List.mem_map] at hx
    obtain ⟨i, -, rfl⟩ := hx
    exact isFinite_finite _

end Types

section References

variable {e : Expression}

theorem reference?_coerce (e : Expression) (t u : ConcreteType) :
    (e.coerce t u).reference? = e.reference? := by
  unfold Expression.coerce
  split
  · rfl
  · split
    · rfl
    · split <;> rfl

theorem reference?_vectorLiteral (values : List Binary32) (t : ConcreteType) :
    (Expression.vectorLiteral values t).reference? = none := by
  unfold Expression.vectorLiteral
  by_cases hone : t.components ≤ 1
  · simp only [if_pos hone]
    rfl
  · simp only [if_neg hone]
    rfl

end References

end Reading

section Statements

/-- The variable that a statement declares, with its type. -/
def Statement.declared? : Statement → Option (ConcreteType × String)
  | define type name _ => some (type, name)
  | call type name _ _ => some (type, name)
  | sample name _ _ _ => some (.vector4, name)
  | assign .. => none

/-- The names that a statement reads. -/
def Statement.references : Statement → List Reference
  | define _ _ value => value.reference?.toList
  | call _ _ _ arguments => arguments.filterMap (·.reference?)
  | sample _ texture uv _ => .property texture :: uv.reference?.toList
  | assign _ value => value.reference?.toList

/-- The expressions that a statement is written with. -/
def Statement.expressions : Statement → List Expression
  | define _ _ value => [value]
  | call _ _ _ arguments => arguments
  | sample _ _ uv _ => [uv]
  | assign _ value => [value]

/-- The names that a statement is written with are names, and what is called has arguments. -/
def Statement.Named : Statement → Prop
  | define _ name _ => isName name.toList = true
  | call _ name function arguments =>
    isName name.toList = true ∧ isName function.toList = true ∧ arguments ≠ []
  | sample name texture _ _ => isName name.toList = true ∧ isName texture.toList = true
  | assign member _ => isName member.toList = true

/-- The line that the text of a statement spells. -/
def Statement.line (p : Precision) : Statement → Line
  | define type name value => .declare (type.name p) name (value.term p)
  | call type name function arguments =>
    .declare (type.name p) name (.call function (arguments.map (·.term p)))
  | sample name texture uv unpack =>
    let sample := Term.call "tex2D" [.name texture, uv.term p]
    let vector := ConcreteType.vector4.name p
    .declare vector name
      (if unpack then .call vector [.call "UnpackNormal" [sample], .number "0"] else sample)
  | assign member value => .assign member (value.term p)

/-- The names are names, and the expressions have types in the program. -/
def Statement.Legible (q : Program) (p : Precision) : Statement → Prop
  | define _ name value => isName name.toList = true ∧ ∃ t, q.Types p value t
  | call _ name function arguments =>
    isName name.toList = true ∧ isName function.toList = true ∧ arguments ≠ [] ∧
      ∀ e ∈ arguments, ∃ t, q.Types p e t
  | sample name texture uv _ =>
    isName name.toList = true ∧ isName texture.toList = true ∧ ∃ t, q.Types p uv t
  | assign member value => isName member.toList = true ∧ ∃ t, q.Types p value t

variable {q : Program} {p : Precision}

theorem Statement.declared?_line (s : Statement) :
    (s.line p).declared? = s.declared?.map fun d => (d.1.name p, d.2) := by
  cases s <;> rfl

theorem Statement.legible_iff (s : Statement) :
    s.Legible q p ↔ s.Named ∧ ∀ e ∈ s.expressions, ∃ t, q.Types p e t := by
  cases s <;> simp [Legible, Named, expressions, and_assoc]

theorem readAll_text {arguments : List Expression}
    (h : ∀ e ∈ arguments, Reads (e.text p).toList (e.term p)) :
    ReadAll (arguments.map (·.text p)) (arguments.map (·.term p)) := by
  induction arguments with
  | nil => exact .nil
  | cons e arguments ih =>
    rw [List.forall_mem_cons] at h
    exact .cons h.1 (ih h.2)

/-- The text of a sample, unpacked or not. -/
theorem reads_sample {texture uv : String} {t : Term} (unpack : Bool)
    (htexture : isName texture.toList = true) (huv : Reads uv.toList t) :
    Reads
      (if unpack then ConcreteType.vector4.name p ++ "(UnpackNormal(" ++
          ("tex2D(" ++ texture ++ ", " ++ uv ++ ")") ++ "), 0)"
        else "tex2D(" ++ texture ++ ", " ++ uv ++ ")").toList
      (if unpack then
          .call (ConcreteType.vector4.name p)
            [.call "UnpackNormal" [.call "tex2D" [.name texture, t]], .number "0"]
        else .call "tex2D" [.name texture, t]) := by
  have hsample : Reads ("tex2D(" ++ texture ++ ", " ++ uv ++ ")").toList
      (.call "tex2D" [.name texture, t]) := by
    have h := reads_call (f := "tex2D") (by decide)
      (.cons (reads_name htexture) (.cons huv .nil)) (by simp)
    simpa [String.intercalate_cons_cons, String.toList_append] using h
  cases unpack with
  | false => simpa using hsample
  | true =>
    have hunpack := reads_call (f := "UnpackNormal") (by decide) (.cons hsample .nil) (by simp)
    have hvector := reads_call (isName_typeName .vector4 p)
      (.cons hunpack (.cons reads_zero .nil)) (by simp)
    simpa [String.intercalate_cons_cons, String.toList_append] using hvector

/-- A statement is read back from its text if its expressions are. -/
theorem Statement.Named.readLine? {s : Statement} (h : s.Named)
    (hspelled : ∀ e ∈ s.expressions, Reads (e.text p).toList (e.term p)) :
    readLine? (s.text p) = some (s.line p) := by
  cases s with
  | define type name value =>
    exact readLine?_declare (isName_typeName type p) h (hspelled value (by simp [expressions]))
  | call type name function arguments =>
    obtain ⟨hname, hfunction, hne⟩ := h
    have harguments : ∀ e ∈ arguments, Reads (e.text p).toList (e.term p) := hspelled
    have hcall := reads_call hfunction (readAll_text harguments) (by simpa using hne)
    have hline := readLine?_declare (isName_typeName type p) hname hcall
    simpa [Statement.text, Statement.line, String.append_assoc] using hline
  | sample name texture uv unpack =>
    have hvalue := reads_sample (p := p) unpack h.2 (hspelled uv (by simp [expressions]))
    exact readLine?_declare (isName_typeName .vector4 p) h.1 hvalue
  | assign member value =>
    exact readLine?_assign h (hspelled value (by simp [expressions]))

/-- A legible statement is read back from its text. -/
theorem Statement.Legible.readLine? {s : Statement} (h : s.Legible q p) :
    readLine? (s.text p) = some (s.line p) := by
  obtain ⟨hnamed, htypes⟩ := s.legible_iff.1 h
  refine hnamed.readLine? fun e he => ?_
  obtain ⟨t, ht⟩ := htypes e he
  exact ht.spelled

/-- What a line reads are the names that its statement reads. -/
theorem Statement.Legible.reads {s : Statement} (h : s.Legible q p) {x : String}
    (hx : x ∈ (s.line p).value.reads) : ∃ r ∈ s.references, x = r.text := by
  cases s with
  | define type name value =>
    obtain ⟨-, t, ht⟩ := h
    obtain ⟨r, hr, rfl⟩ := ht.reads x hx
    exact ⟨r, by simp [Statement.references, hr], rfl⟩
  | call type name function arguments =>
    obtain ⟨-, -, -, harguments⟩ := h
    simp only [Statement.line, Line.value, Term.reads, mem_readsOf, List.mem_map] at hx
    obtain ⟨a, ⟨e, he, rfl⟩, hxe⟩ := hx
    obtain ⟨t, ht⟩ := harguments e he
    obtain ⟨r, hr, rfl⟩ := ht.reads x hxe
    exact ⟨r, List.mem_filterMap.2 ⟨e, he, hr⟩, rfl⟩
  | sample name texture uv unpack =>
    obtain ⟨-, -, t, ht⟩ := h
    have hreads : x = texture ∨ x ∈ (uv.term p).reads := by
      cases unpack <;> simpa [Statement.line, Line.value, Term.reads, readsOf] using hx
    obtain rfl | hx := hreads
    · exact ⟨.property x, by simp [Statement.references], rfl⟩
    · obtain ⟨r, hr, rfl⟩ := ht.reads x hx
      exact ⟨r, by simp [Statement.references, hr], rfl⟩
  | assign member value =>
    obtain ⟨-, t, ht⟩ := h
    obtain ⟨r, hr, rfl⟩ := ht.reads x hx
    exact ⟨r, by simp [Statement.references, hr], rfl⟩

end Statements

end ShaderGraph
