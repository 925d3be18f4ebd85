import ShaderGraph.Proofs.Document.Lexeme
import ShaderGraph.Proofs.Generation.Properties

/-!
# Constants keep their numbers

A constant is written as a literal or held as a property, and each way has its own code for the
numbers. Both show the same: each component, or what it saturates to if it is not finite. A literal
is read back from the text of the shader, where every number is the shortest decimal that rounds to
it.

* `Saturates` : what a number that need not be finite is shown as;
* `declaredName?_text` : the variable that a statement declares, read off its text;
* `filter_body` : the statements of a shader that declare the variable of a node are its own;
* `numbers?_vectorLiteral` : a literal is read back as the numbers it was written with;
* `generate_constants` : every constant of a shader, on the way that it takes.
-/

namespace ShaderGraph

open Reading ShaderGraph.Graph

section Saturating

/-- What a number is shown as: itself if it is finite, zero if it is none, and the largest finite
number of its sign if it is infinite. -/
structure Saturates (x y : Binary32) : Prop where
  finite : y.isFinite = true
  same : x.isFinite = true → y = x
  zero : x.isNaN = true → y.word = 0
  above : x.word = 0x7f800000 → y.word = 0x7f7fffff
  below : x.word = 0xff800000 → y.word = 0xff7fffff

theorem saturates_finite (x : Binary32) : Saturates x x.finite where
  finite := isFinite_finite x
  same hfinite := by
    have hnan : ¬ x.isNaN = true := by
      simp only [Binary32.isFinite, Binary32.isNaN, decide_eq_true_eq] at hfinite ⊢
      omega
    rw [Binary32.finite, if_neg hnan, if_pos hfinite]
  zero hnan := by
    rw [Binary32.finite, if_pos hnan]
    rfl
  above hword := by
    obtain ⟨word⟩ := x
    subst hword
    rfl
  below hword := by
    obtain ⟨word⟩ := x
    subst hword
    rfl

/-- The numbers that a constant is shown as, whether it is a literal or a property. -/
def ConstantValue.shown (v : ConstantValue) : List Binary32 := v.components.map (·.finite)

theorem ConstantValue.saturates_shown (v : ConstantValue) :
    List.Forall₂ Saturates v.components v.shown := by
  rw [shown, List.forall₂_map_right_iff, List.forall₂_same]
  exact fun x _ => saturates_finite x

/-- The numbers of a property that holds these: one alone, or four with zeros at the end. -/
def padded (xs : List Binary32) : List Binary32 :=
  if xs.length = 1 then xs else xs ++ List.replicate (4 - xs.length) .zero

/-- The numbers that a property holds by default. -/
def PropertyKind.numbers : PropertyKind → List Binary32
  | .texture .. => []
  | .float x => [x]
  | .vector x y z w => [x, y, z, w]

theorem numbers_constantProperty (v : ConstantValue) :
    (Scope.constantProperty v).numbers = padded v.shown := by
  cases v <;> rfl

end Saturating

section Literals

/-- The number that a term is. -/
def Reading.Term.number? : Term → Option Binary32
  | .number s => Document.decimal? s.toList
  | _ => none

/-- The numbers that a literal is made of: one alone, or those a vector type is called with. -/
def Reading.Term.numbers? (t : Term) (vector : String) : Option (List Binary32) :=
  match t with
  | .number s => (Document.decimal? s.toList).map ([·])
  | .call f arguments => if f = vector then arguments.mapM Term.number? else none
  | _ => none

theorem decimal?_literalText {x : Binary32} (hx : x.isFinite = true) :
    Document.decimal? (literalText x).toList = some x := by
  rw [literalText, String.toList_ofList, Document.decimal?_text hx]

theorem mapM_number? {xs : List Binary32} (h : ∀ x ∈ xs, x.isFinite = true) :
    (xs.map fun x => Term.number (literalText x)).mapM Term.number? = some xs := by
  induction xs with
  | nil => rfl
  | cons x xs ih =>
    obtain ⟨hx, hxs⟩ := List.forall_mem_cons.1 h
    rw [List.map_cons, List.mapM_cons, Term.number?, decimal?_literalText hx, ih hxs]
    rfl

/-- A literal is read back as the numbers that the constant is shown as. -/
theorem numbers?_vectorLiteral (v : ConstantValue) (p : Precision) :
    ((Expression.vectorLiteral v.components v.type).term p).numbers? (v.type.name p) =
      some v.shown := by
  have hfinite : ∀ x ∈ v.shown, x.isFinite = true := by
    intro x hx
    obtain ⟨y, -, rfl⟩ := List.mem_map.1 hx
    exact isFinite_finite y
  cases v with
  | vector1 x =>
    show (Document.decimal? (literalText x.finite).toList).map ([·]) = some [x.finite]
    rw [decimal?_literalText (isFinite_finite x), Option.map_some]
  -- a vector is a call of its type, and its components are the arguments
  | vector2 x y => exact (if_pos rfl).trans (mapM_number? hfinite)
  | vector3 x y z => exact (if_pos rfl).trans (mapM_number? hfinite)
  | vector4 x y z w => exact (if_pos rfl).trans (mapM_number? hfinite)

end Literals

section Declared

/-- The variable that a statement declares, whatever it declares it with. -/
def declaredName? (text : String) : Option String :=
  match lexemes text.toList with
  | .word _ :: .word name :: .mark '=' :: _ => some (String.ofList name)
  | _ => none

variable {type name : String}

theorem declaredName?_declare (htype : isName type.toList = true)
    (hname : isName name.toList = true) (rest : String) :
    declaredName? (type ++ " " ++ name ++ " = " ++ rest) = some name := by
  have htext : (type ++ " " ++ name ++ " = " ++ rest).toList =
      type.toList ++ ' ' :: (name.toList ++ ' ' :: '=' :: ' ' :: rest.toList) := by
    simp [String.toList_append]
  rw [declaredName?, htext, lexemes_name htype (by decide), lexemes_blank,
    lexemes_name hname (by decide), lexemes_blank, lexemes_mark (by decide) (by decide)]
  simp

/-- What begins with a dot is no word. -/
theorem exists_prepend_dot (l : List Token) :
    ∃ token rest, prepend '.' l = token :: rest ∧ token ≠ .mark ' ' ∧ ∀ w, token ≠ .word w := by
  cases l with
  | nil => exact ⟨.mark '.', [], rfl, by decide, by simp⟩
  | cons token l =>
    cases token with
    | word w => exact ⟨.member w, l, rfl, by simp, by simp⟩
    | member w => exact ⟨.mark '.', .member w :: l, rfl, by decide, by simp⟩
    | mark c => exact ⟨.mark '.', .mark c :: l, rfl, by decide, by simp⟩

theorem declaredName?_assign (rest : String) : declaredName? ("o." ++ rest) = none := by
  have htext : ("o." ++ rest).toList = ['o'] ++ '.' :: rest.toList := by
    simp [String.toList_append]
  have hdot : Breaks ('.' :: rest.toList) := breaks_cons (by decide) (by decide) _
  obtain ⟨token, others, htokens, hblank, hword⟩ := exists_prepend_dot (tokens rest.toList)
  have hlexemes : lexemes ('.' :: rest.toList) = token :: others.filter (· ≠ .mark ' ') := by
    show (prepend '.' (tokens rest.toList)).filter (· ≠ .mark ' ') = _
    rw [htokens, List.filter_cons_of_pos (by simpa using hblank)]
  rw [declaredName?, htext, lexemes_append hdot, lexemes_word (by decide) (by decide), hlexemes]
  cases token with
  | word w => exact absurd rfl (hword w)
  | member w => rfl
  | mark c => rfl

/-- The text of a statement says which variable it declares. -/
theorem declaredName?_text {st : Statement} (hname : ∀ d ∈ st.declared?, isName d.2.toList = true)
    (p : Precision) : declaredName? (st.text p) = st.declared?.map (·.2) := by
  cases st with
  | define type name value =>
    have hdeclare := declaredName?_declare (isName_typeName type p) (hname _ rfl)
      (value.text p ++ ";")
    rwa [← String.append_assoc] at hdeclare
  | call type name function arguments =>
    have hdeclare := declaredName?_declare (isName_typeName type p) (hname _ rfl)
      (function ++ "(" ++ String.intercalate ", " (arguments.map (·.text p)) ++ ");")
    simp only [String.append_assoc] at hdeclare
    simp only [Statement.text, String.append_assoc]
    exact hdeclare
  | sample name texture uv unpack =>
    have hdeclare := declaredName?_declare (isName_typeName .vector4 p) (hname _ rfl)
    exact (congrArg declaredName? (String.append_assoc ..)).trans (hdeclare _)
  | assign member value =>
    have hassign := declaredName?_assign (member ++ " = " ++ value.text p ++ ";")
    simp only [String.append_assoc] at hassign
    simp only [Statement.text, String.append_assoc]
    exact hassign

end Declared

section Bodies

variable {g : Graph} {mode : Mode} {settings : Settings} {order : List NodeId} {n : Node}

/-- Elements without a piece do not matter. -/
theorem flatMap_filter_eq {α β : Type} {p : α → Bool} {f : α → List β} {l : List α}
    (h : ∀ a ∈ l, p a = false → f a = []) : (l.filter p).flatMap f = l.flatMap f := by
  induction l with
  | nil => rfl
  | cons a l ih =>
    obtain ⟨ha, hl⟩ := List.forall_mem_cons.1 h
    cases hp : p a with
    | true => rw [List.filter_cons_of_pos hp, List.flatMap_cons, List.flatMap_cons, ih hl]
    | false =>
      rw [List.filter_cons_of_neg (by simp [hp]), List.flatMap_cons, ha hp, ih hl]
      rfl

/-- The texts of the statements of an outcome. -/
def Outcome.texts (p : Precision) (o : Outcome) : List String :=
  (o.fragment?.toList.flatMap (·.statements)).map (·.text p)

theorem body_eq_flatMap (p : Precision) (os : List Outcome) :
    ((os.filterMap (·.fragment?)).foldl (Sink.addFragment p) .empty).body =
      os.flatMap (·.texts p) := by
  rw [body_foldl, Sink.empty, List.nil_append, List.filterMap_eq_flatMap_toList, List.flatMap_assoc,
    List.map_flatMap]
  rfl

/-- A node declares no variable but its own. -/
theorem Emits.declaredName?_eq {s : Scope} {f : Fragment} (h : Emits s f) {st : Statement}
    (hst : st ∈ f.statements) {p : Precision} {x : String}
    (hx : declaredName? (st.text p) = some x) : x = s.node.outputVariable := by
  have hown : ∀ d ∈ st.declared?, d.2 = s.node.outputVariable := by
    intro d hd
    have hmem : d.2 ∈ (f.statements.filterMap Statement.declared?).map (·.2) :=
      List.mem_map_of_mem (List.mem_filterMap.2 ⟨st, hst, hd⟩)
    exact List.mem_singleton.1 (h.declared.subset hmem)
  have hname : ∀ d ∈ st.declared?, isName d.2.toList = true := by
    intro d hd
    rw [hown d hd]
    exact (isOutputName_outputVariable s.node).isName
  rw [declaredName?_text hname] at hx
  obtain ⟨d, hd, rfl⟩ := Option.map_eq_some_iff.1 hx
  exact hown d hd

/-- The statements of a shader that declare the variable of a node are its own. -/
theorem filter_body (mode : Mode) (p : Precision) (hkeyed : g.Keyed)
    (hserials : (g.nodes.values.map (·.serial)).Nodup) (horder : g.topologicalOrder = .ok order)
    (hn : n ∈ g.nodes.values) :
    ((fragmentsOf g mode order).foldl (Sink.addFragment p) .empty).body.filter
        (declaredName? · = some n.outputVariable) =
      (Outcome.texts p ⟨n, (scopeAfter g mode (g.resolveTypes order) order n).emit⟩).filter
        (declaredName? · = some n.outputVariable) := by
  have hother : ∀ o ∈ outcomes g mode (g.resolveTypes order) .empty order,
      decide (o.node.id = n.id) = false →
        (o.texts p).filter (declaredName? · = some n.outputVariable) = [] := by
    intro o ho hid
    rw [List.filter_eq_nil_iff]
    intro text htext hdeclares
    obtain ⟨st, hst, rfl⟩ := List.mem_map.1 htext
    obtain ⟨f, hf, hst⟩ := List.mem_flatMap.1 hst
    obtain ⟨s, hs, hemits⟩ := allEmitted_outcomes g mode _ order o ho f (by simpa using hf)
    have hvariable := hemits.declaredName?_eq hst (of_decide_eq_true hdeclares)
    have hserial : n.serial = s.node.serial := serial_of_outputVariable hvariable
    have hnode : o.node ∈ g.nodes.values :=
      ((mem_outcomes_iff mode _ hkeyed horder).1 ho).1
    have hsame : n = o.node := List.inj_on_of_nodup_map hserials hn hnode (hs ▸ hserial)
    exact of_decide_eq_false hid (hsame ▸ rfl)
  rw [fragmentsOf, body_eq_flatMap, List.filter_flatMap, ← flatMap_filter_eq hother,
    filter_outcomes mode _ hkeyed horder hn, List.flatMap_singleton]

end Bodies

section Shown

variable {g : Graph} {mode : Mode} {order : List NodeId} {n : Node} {c : Constant}

/-- A node that the errors do not name does not fail. -/
theorem failure?_eq_none (mode : Mode) (hkeyed : g.Keyed) (horder : g.topologicalOrder = .ok order)
    (hn : n ∈ g.nodes.values)
    (hok : ∀ e ∈ (outcomes g mode (g.resolveTypes order) .empty order).filterMap (·.error?),
      e.node ≠ n.id) : n.failure? = none := by
  have hmem := (mem_ordered_iff hkeyed (keys_subset_of_topologicalOrder horder)).2 hn
  rw [errors_outcomes mode _ hkeyed horder] at hok
  cases hfailure : n.failure? with
  | none => rfl
  | some e =>
    have herror := hok e (List.mem_filterMap.2 ⟨n, hmem, hfailure⟩)
    obtain ⟨d, -, rfl⟩ := Option.map_eq_some_iff.1 hfailure
    exact absurd rfl herror

theorem exists_emits_of_failure? {s : Scope} (h : s.node.failure? = none) :
    ∃ f, s.emit = .ok f ∧ Emits s f := by
  have herror := error?_emit s
  cases hemit : s.emit with
  | error e =>
    rw [hemit, h] at herror
    cases herror
  | ok f => exact ⟨f, rfl, emits_of_emit hemit⟩

/-- A constant that is no property is written as a literal. -/
theorem Emits.statements_of_literal {s : Scope} {f : Fragment} (h : Emits s f)
    (hkind : s.node.kind = .constant c) (hliteral : ¬ (c.exposed = true ∨ s.mode = .preview)) :
    f.statements = [.define c.value.type s.node.outputVariable
      (.vectorLiteral c.value.components c.value.type)] := by
  cases h with
  | literal hkind' hproperty houtput =>
    obtain rfl := NodeKind.constant.inj (hkind'.symm.trans hkind)
    rfl
  | property hkind' hproperty houtput =>
    obtain rfl := NodeKind.constant.inj (hkind'.symm.trans hkind)
    exact absurd (isProperty_iff.1 hproperty) hliteral
  | function hkind' => cases hkind'.symm.trans hkind
  | texture hkind' => cases hkind'.symm.trans hkind
  | uv hkind' => cases hkind'.symm.trans hkind
  | preview hkind' => cases hkind'.symm.trans hkind
  | surface hkind' => cases hkind'.symm.trans hkind

/-- The one statement that declares the variable of a literal is read back as its numbers. -/
theorem filter_body_literal (p : Precision) (hkeyed : g.Keyed)
    (hserials : (g.nodes.values.map (·.serial)).Nodup) (horder : g.topologicalOrder = .ok order)
    (hn : n ∈ g.nodes.values) (hfailure : n.failure? = none) (hkind : n.kind = .constant c)
    (hliteral : ¬ (c.exposed = true ∨ mode = .preview)) :
    ∃ text value,
      ((fragmentsOf g mode order).foldl (Sink.addFragment p) .empty).body.filter
        (declaredName? · = some n.outputVariable) = [text] ∧
      readLine? text = some (.declare (c.value.type.name p) n.outputVariable value) ∧
      value.numbers? (c.value.type.name p) = some c.value.shown := by
  obtain ⟨f, hemit, hemits⟩ :=
    exists_emits_of_failure? (s := scopeAfter g mode (g.resolveTypes order) order n) hfailure
  have hstatements := hemits.statements_of_literal hkind hliteral
  have hname : isName n.outputVariable.toList = true := (isOutputName_outputVariable n).isName
  have hread := readLine?_declare (isName_typeName c.value.type p) hname
    (reads_vectorLiteral (p := p) c.value.components c.value.type)
  refine ⟨_, _, ?_, hread, numbers?_vectorLiteral c.value p⟩
  have htexts : Outcome.texts p ⟨n, .ok f⟩ = f.statements.map (·.text p) := by
    simp [Outcome.texts, Outcome.fragment?]
  have hdeclares : declaredName? (Statement.text p (.define c.value.type n.outputVariable
      (.vectorLiteral c.value.components c.value.type))) = some n.outputVariable :=
    declaredName?_text (by simpa [Statement.declared?] using hname) p
  rw [filter_body mode p hkeyed hserials horder hn, hemit, htexts, hstatements, List.map_singleton]
  exact List.filter_cons_of_pos (decide_eq_true hdeclares)

/-- A node holds one property of a shader. -/
theorem filter_registered {held : Property × ConcreteType} (mode : Mode) (p : Precision)
    (hkeyed : g.Keyed) (hserials : (g.nodes.values.map (·.serial)).Nodup)
    (horder : g.topologicalOrder = .ok order) (hn : n ∈ g.nodes.values)
    (hfailure : n.failure? = none) (hheld : n.held? mode = some held) :
    ((fragmentsOf g mode order).foldl (Sink.addFragment p) .empty).registered.filter
      (·.name = n.propertyName) = [held.1] := by
  have hmem := (mem_ordered_iff hkeyed (keys_subset_of_topologicalOrder horder)).2 hn
  have hheldFrom : held ∈ heldFrom g mode order :=
    List.mem_filterMap.2 ⟨n, List.mem_filter.2 ⟨hmem, by simp [hfailure]⟩, hheld⟩
  have hnames := nodup_heldFrom mode hkeyed hserials horder
  rw [registered_sink mode p hkeyed hserials horder, ← name_of_held? hheld]
  have hnodup : (((heldFrom g mode order).map Prod.fst).map Property.name).Nodup := by
    rwa [List.map_map]
  exact filter_key_eq hnodup (List.mem_map_of_mem hheldFrom)

/-- The numbers of a property are those of a constant that holds it. -/
theorem constant_of_numbers {held : Property × ConcreteType} (h : n.held? mode = some held)
    (hnumbers : held.1.kind.numbers ≠ []) :
    ∃ c, n.kind = .constant c ∧ (c.exposed = true ∨ mode = .preview) ∧
      held.1.kind.numbers = padded c.value.shown := by
  rcases held?_eq_some h with ⟨t, -, rfl⟩ | ⟨c, hkind, hproperty, rfl⟩
  · exact absurd rfl hnumbers
  · exact ⟨c, hkind, hproperty, numbers_constantProperty c.value⟩

/-- **Constants keep their numbers.** If identities and serials tell the nodes of a graph apart,
each constant that the errors do not name is shown as the same numbers on either way. As a property
it is the only one of its name and holds these numbers, with zeros after those of a vector; as a
literal it is the only declaration of its variable, and the text is read back as these numbers. No
property holds any other number. -/
theorem generate_constants (g : Graph) (mode : Mode) (settings : Settings) (shader : Shader)
    (hkeyed : g.Keyed) (hserials : (g.nodes.values.map (·.serial)).Nodup)
    (h : generate g mode settings = .ok shader) :
    (∀ v : ConstantValue, List.Forall₂ Saturates v.components v.shown) ∧
    ∃ pass, runPass g mode settings = .ok pass ∧ shader.source = pass.sink.assemble settings ∧
      (∀ n ∈ g.nodes.values, ∀ c, n.kind = .constant c → (∀ e ∈ shader.errors, e.node ≠ n.id) →
        if c.exposed = true ∨ mode = .preview then
          ∃ p, shader.properties.filter (·.name = n.propertyName) = [p] ∧
            p.kind.numbers = padded c.value.shown
        else
          ∃ text value, pass.sink.body.filter (declaredName? · = some n.outputVariable) = [text] ∧
            readLine? text =
              some (.declare (c.value.type.name settings.precision) n.outputVariable value) ∧
            value.numbers? (c.value.type.name settings.precision) = some c.value.shown) ∧
      ∀ p ∈ shader.properties, p.kind.numbers ≠ [] →
        ∃ n ∈ g.nodes.values, ∃ c, n.kind = .constant c ∧ (∀ e ∈ shader.errors, e.node ≠ n.id) ∧
          (c.exposed = true ∨ mode = .preview) ∧ p.name = n.propertyName ∧
          p.kind.numbers = padded c.value.shown := by
  obtain ⟨pass, hrun, rfl⟩ := generate_eq_ok_iff.1 h
  obtain ⟨-, order, horder, rfl⟩ := runPass_eq_ok_iff.1 hrun
  refine ⟨fun v => v.saturates_shown, _, hrun, rfl, ?_, ?_⟩
  · intro n hn c hkind hok
    have hfailure := failure?_eq_none mode hkeyed horder hn hok
    by_cases hproperty : c.exposed = true ∨ mode = .preview
    · have hheld : n.held? mode = some (⟨n.propertyName, n.name, Scope.constantProperty c.value,
          c.exposed⟩, c.value.type) := by
        simp only [Node.held?, hkind, if_pos hproperty]
      rw [if_pos hproperty]
      exact ⟨_, filter_registered mode settings.precision hkeyed hserials horder hn hfailure hheld,
        numbers_constantProperty c.value⟩
    · rw [if_neg hproperty]
      exact filter_body_literal settings.precision hkeyed hserials horder hn hfailure hkind
        hproperty
  · intro p hp hnumbers
    change p ∈ ((fragmentsOf g mode order).foldl (Sink.addFragment settings.precision)
      .empty).registered at hp
    rw [registered_sink mode settings.precision hkeyed hserials horder,
      heldFrom_eq mode hkeyed horder] at hp
    obtain ⟨held, hmem, rfl⟩ := List.mem_map.1 hp
    obtain ⟨n, hn, hheld⟩ := List.mem_filterMap.1 hmem
    obtain ⟨hordered, hok⟩ := List.mem_filter.1 hn
    obtain ⟨c, hkind, hproperty, hshown⟩ := constant_of_numbers hheld hnumbers
    have hkeys := keys_subset_of_topologicalOrder horder
    rw [Bool.not_eq_true', List.any_eq_false] at hok
    exact ⟨n, (mem_ordered_iff hkeyed hkeys).1 hordered, c, hkind,
      fun e he hid => hok e he (decide_eq_true hid), hproperty, name_of_held? hheld, hshown⟩

/-- A vector of what is no number, both infinities and a negative zero, and the smallest number,
which is exposed. -/
def extremeGraph : Graph :=
  let kinds : List NodeKind :=
    [.constant ⟨.vector4 .nan ⟨0x7f800000⟩ ⟨0xff800000⟩ ⟨0x80000000⟩, false⟩,
      .constant ⟨.vector1 ⟨1⟩, true⟩]
  kinds.zipIdx.foldl (fun g k => Graph.addNode g (.ofKind ⟨.ofNat k.2⟩ k.1)) (.empty "Extreme")

/-- The vector is a literal, and the smallest number is held as it is. -/
theorem generate_extremeGraph :
    extremeGraph.Keyed ∧ (extremeGraph.nodes.values.map (·.serial)).Nodup ∧
    ∃ shader pass, generate extremeGraph .surface .standard = .ok shader ∧
      runPass extremeGraph .surface .standard = .ok pass ∧
      (∃ text value, pass.sink.body.filter (declaredName? · = some "vector40_out") = [text] ∧
        readLine? text = some (.declare "half4" "vector40_out" value) ∧
        value.numbers? "half4" =
          some [⟨0⟩, ⟨0x7f7fffff⟩, ⟨0xff7fffff⟩, ⟨0x80000000⟩]) ∧
      ∃ p, shader.properties.filter (·.name = "_vector11") = [p] ∧ p.kind.numbers = [⟨1⟩] := by
  have hkeyed : extremeGraph.Keyed := by
    unfold Keyed
    decide
  have hserials : (extremeGraph.nodes.values.map (·.serial)).Nodup := by decide
  obtain ⟨-, pass, hrun, -, hnodes, -⟩ :=
    generate_constants extremeGraph .surface .standard _ hkeyed hserials rfl
  have hfirst : extremeGraph.nodes.values[0] ∈ extremeGraph.nodes.values := List.getElem_mem _
  have hsecond : extremeGraph.nodes.values[1] ∈ extremeGraph.nodes.values := List.getElem_mem _
  have hliteral := hnodes _ hfirst _ rfl (by decide)
  have hproperty := hnodes _ hsecond _ rfl (by decide)
  rw [if_neg (by decide)] at hliteral
  rw [if_pos (by decide)] at hproperty
  exact ⟨hkeyed, hserials, _, pass, rfl, hrun, hliteral, hproperty⟩

end Shown

end ShaderGraph
