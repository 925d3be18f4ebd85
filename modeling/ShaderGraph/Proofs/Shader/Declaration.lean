import ShaderGraph.Shader.Sink
import ShaderGraph.Proofs.Shader.Reading

/-!
# Declarations of properties

A declaration is its parts with quotes between them, and the label is one of the parts. The label
is written as it is, so it may break the declaration in two ways: a quote in it or a backslash at
its end moves the closing quote, and a line feed ends the line.

* `quotedParts`, `isContained` : a text between its quotes, and the texts that stay inside quotes;
* `quotedParts_quote_iff` : a text is a part of its own if and only if it is contained;
* `length_linesFrom` : a text has one line more than line feeds, unless it ends with one;
* `Property.chunkLines_declaration_iff`, `Property.quotedParts_declaration_iff` : the declarations
  that are one line, and those whose quotes are where they belong.
-/

namespace ShaderGraph

open Reading

section Quotes

/-- The parts of a text between its quotes. A backslash takes the character after it into its part,
so a quote after a backslash is none. -/
def quotedParts : List Char → List (List Char)
  | [] => [[]]
  | '\\' :: c :: w => (quotedParts w).modifyHead ('\\' :: c :: ·)
  | '"' :: w => [] :: quotedParts w
  | c :: w => (quotedParts w).modifyHead (c :: ·)

/-- A text that stays inside the quotes around it: no quote in it is bare, and it does not end
within an escape. -/
def isContained : List Char → Bool
  | [] => true
  | ['\\'] => false
  | '\\' :: _ :: w => isContained w
  | '"' :: _ => false
  | _ :: w => isContained w

variable {w rest : List Char} {parts : List (List Char)}

theorem modifyHead_append_eq_iff {v : List Char} (l : List (List Char)) :
    l.modifyHead (v ++ ·) = (v ++ w) :: parts ↔ l = w :: parts := by
  cases l with
  | nil => simp
  | cons u l => simp

/-- Up to a quote a text is one part if and only if it is contained. -/
theorem quotedParts_quote_iff (w : List Char) :
    quotedParts (w ++ '"' :: rest) = w :: parts ↔
      isContained w = true ∧ quotedParts rest = parts := by
  fun_induction isContained w with
  | case1 => simp [quotedParts]
  | case2 =>
    -- the backslash takes the quote after it
    simp only [List.cons_append, List.nil_append, quotedParts]
    cases quotedParts rest <;> simp
  | case3 c w ih =>
    rw [List.cons_append, List.cons_append, quotedParts, ← ih]
    exact modifyHead_append_eq_iff (v := ['\\', c]) _
  | case4 w => simp [quotedParts]
  | case5 c w hlast hescape hquote ih =>
    have hbackslash : c ≠ '\\' := by
      rintro rfl
      cases w with
      | nil => exact hlast rfl rfl
      | cons d w => exact hescape d w rfl rfl
    have hstep : quotedParts (c :: (w ++ '"' :: rest)) =
        (quotedParts (w ++ '"' :: rest)).modifyHead (c :: ·) := by
      rw [quotedParts]
      · exact fun d v h => absurd h hbackslash
      · exact hquote
    rw [List.cons_append, hstep, ← ih]
    exact modifyHead_append_eq_iff (v := [c]) _

/-- Neither a quote nor an escape nor the end of a line. -/
def isPlain (c : Char) : Bool := c != '"' && c != '\\' && c != '\n'

theorem isPlain_of_isWordChar {c : Char} (h : isWordChar c = true) : isPlain c = true := by
  have hne : ∀ d : Char, isWordChar d = false → c ≠ d := by
    rintro d hd rfl
    rw [hd] at h
    cases h
  simp [isPlain, hne '"' rfl, hne '\\' rfl, hne '\n' rfl]

/-- Texts that are written with plain characters, as a test. -/
theorem forall_isPlain {texts : List String} (h : texts.all (·.toList.all isPlain) = true) :
    ∀ text ∈ texts, ∀ c ∈ text.toList, isPlain c = true := fun text htext =>
  List.all_eq_true.1 (List.all_eq_true.1 h text htext)

theorem quotedParts_plain (h : ∀ c ∈ w, isPlain c = true) : quotedParts w = [w] := by
  induction w with
  | nil => rfl
  | cons c w ih =>
    obtain ⟨hc, hw⟩ := List.forall_mem_cons.1 h
    simp only [isPlain, Bool.and_eq_true, bne_iff_ne, ne_eq] at hc
    rw [quotedParts, ih hw]
    · rfl
    · exact fun d v h => absurd h hc.1.2
    · exact hc.1.1

theorem isContained_plain (h : ∀ c ∈ w, isPlain c = true) : isContained w = true := by
  fun_induction isContained w with
  | case1 => rfl
  | case2 => exact absurd (h '\\' (by simp)) (by decide)
  | case3 c w ih => exact absurd (h '\\' (by simp)) (by decide)
  | case4 w => exact absurd (h '"' (by simp)) (by decide)
  | case5 c w hlast hescape hquote ih => exact ih (List.forall_mem_cons.1 h).2

/-- Plain parts with quotes between them. -/
theorem quotedParts_intercalate {first : String} {parts : List String}
    (h : ∀ part ∈ first :: parts, ∀ c ∈ part.toList, isPlain c = true) :
    quotedParts (String.intercalate "\"" (first :: parts)).toList =
      (first :: parts).map String.toList := by
  induction parts generalizing first with
  | nil =>
    rw [String.intercalate_singleton]
    exact quotedParts_plain (h first List.mem_cons_self)
  | cons second parts ih =>
    obtain ⟨hfirst, hparts⟩ := List.forall_mem_cons.1 h
    have htext : (String.intercalate "\"" (first :: second :: parts)).toList =
        first.toList ++ '"' :: (String.intercalate "\"" (second :: parts)).toList := by
      rw [String.intercalate_cons_cons]
      simp
    rw [htext, List.map_cons, quotedParts_quote_iff]
    exact ⟨isContained_plain hfirst, ih hparts⟩

theorem not_mem_intercalate {first : String} {parts : List String}
    (h : ∀ part ∈ first :: parts, ∀ c ∈ part.toList, isPlain c = true) :
    '\n' ∉ (String.intercalate "\"" (first :: parts)).toList := by
  induction parts generalizing first with
  | nil =>
    rw [String.intercalate_singleton]
    exact fun hmem => absurd (h first List.mem_cons_self _ hmem) (by decide)
  | cons second parts ih =>
    obtain ⟨hfirst, hparts⟩ := List.forall_mem_cons.1 h
    rw [String.intercalate_cons_cons]
    simp only [String.toList_append, List.mem_append, not_or]
    exact ⟨⟨fun hmem => absurd (hfirst _ hmem) (by decide), by decide⟩, ih hparts⟩

end Quotes

section Lines

variable {w : List Char}

/-- Every line feed begins a new line, and the last one is not empty. -/
theorem length_linesFrom (current : List Char) (hlast : w.getLast?.any (· ≠ '\n') = true) :
    (linesFrom current w).length = w.count '\n' + 1 := by
  induction w generalizing current with
  | nil => simp at hlast
  | cons c w ih =>
    cases w with
    | nil =>
      have hc : c ≠ '\n' := by simpa using hlast
      simp [linesFrom, hc]
    | cons d w =>
      have hlast : (d :: w).getLast?.any (· ≠ '\n') = true := by simpa using hlast
      by_cases hc : c = '\n'
      · rw [linesFrom, if_pos hc, List.length_cons, ih [] hlast, hc, List.count_cons_self]
      · rw [linesFrom, if_neg hc, ih (c :: current) hlast, List.count_cons_of_ne hc]

/-- Without a line feed a text is one line. -/
theorem linesFrom_of_not_mem (current : List Char) (hw : '\n' ∉ w) (hne : current ++ w ≠ []) :
    linesFrom current w = [current.reverse ++ w] := by
  induction w generalizing current with
  | nil =>
    obtain ⟨c, current, rfl⟩ := List.exists_cons_of_ne_nil (by simpa using hne)
    simp [linesFrom]
  | cons c w ih =>
    rw [List.mem_cons, not_or] at hw
    rw [linesFrom, if_neg (Ne.symm hw.1), ih (c :: current) hw.2 (by simp)]
    simp

variable {text : String}

theorem length_chunkLines (hlast : text.toList.getLast?.any (· ≠ '\n') = true) :
    (chunkLines text).length = text.toList.count '\n' + 1 := by
  rw [chunkLines, List.length_map, length_linesFrom [] hlast]

theorem chunkLines_eq_self_iff (hlast : text.toList.getLast?.any (· ≠ '\n') = true) :
    chunkLines text = [text] ↔ '\n' ∉ text.toList := by
  constructor
  · intro h
    have hlength := length_chunkLines hlast
    rw [h, List.length_singleton] at hlength
    exact List.count_eq_zero.1 (by omega)
  · intro h
    have hne : text.toList ≠ [] := by
      intro hnil
      simp [hnil] at hlast
    rw [chunkLines, linesFrom_of_not_mem [] h (by simpa using hne)]
    simp

end Lines

section Literals

variable {c : Char}

theorem isPlain_of_mem_toDigits {n : ℕ} (hc : c ∈ Nat.toDigits 10 n) : isPlain c = true := by
  have hdigit : c.isDigit = true := Nat.isDigit_of_mem_toDigits (by decide) (by decide) hc
  exact isPlain_of_isWordChar (isDigit_isWordChar hdigit)

theorem isPlain_of_mem_positional {d : Decimal} (hc : c ∈ d.positional) : isPlain c = true := by
  obtain ⟨digits, exponent⟩ := d
  cases exponent with
  | ofNat e => exact isPlain_of_mem_toDigits hc
  | negSucc e =>
    simp only [Decimal.positional, List.mem_append, List.mem_cons, List.leftpad] at hc
    rcases hc with hc | rfl | hc | hc
    · exact isPlain_of_mem_toDigits hc
    · decide
    · rw [List.eq_of_mem_replicate hc]
      decide
    · exact isPlain_of_mem_toDigits hc

/-- A number is written with digits, letters, a point and a sign. -/
theorem isPlain_of_mem_text {x : Binary32} (hc : c ∈ x.text) : isPlain c = true := by
  have hwords : ∀ c ∈ ['N', 'a', 'N'] ++ ['i', 'n', 'f'], isPlain c = true :=
    List.all_eq_true.1 (by decide)
  have hdigits : ∀ c ∈ if x.isFinite = true then (Binary32.shortest x.magnitude).positional
      else ['i', 'n', 'f'], isPlain c = true := by
    split_ifs
    · exact fun c hc => isPlain_of_mem_positional hc
    · exact fun c hc => hwords c (List.mem_append_right _ hc)
  by_cases hnan : x.isNaN = true
  · rw [Binary32.text, if_pos hnan] at hc
    exact hwords c (List.mem_append_left _ hc)
  · rw [Binary32.text, if_neg hnan] at hc
    cases hsign : x.negative with
    | false =>
      rw [hsign] at hc
      exact hdigits c hc
    | true =>
      rw [hsign] at hc
      rcases List.mem_cons.1 hc with rfl | hc
      · decide
      · exact hdigits c hc

end Literals

namespace Property

section Declarations

/-- What stands before the label. -/
def head (p : Property) : String :=
  (if p.exposed then "" else "[HideInInspector] ") ++
    (match p.kind with
      | .texture _ .bump => "[Normal] "
      | _ => "") ++ p.name ++ "("

/-- What stands after the label, in its parts: the default of a texture is in quotes. -/
def tail (p : Property) : List String :=
  match p.kind with
  | .texture _ type => [", 2D) = ", type.defaultTexture, " \x7b\x7d"]
  | .float x => [", Float) = " ++ literalText x]
  | .vector x y z w =>
    [", Vector) = (" ++ String.intercalate ", " ([x, y, z, w].map literalText) ++ ")"]

/-- The parts of the declaration that belong between quotes. -/
def parts (p : Property) : List String := p.head :: p.displayName :: p.tail

theorem declaration_eq (p : Property) : p.declaration = String.intercalate "\"" p.parts := by
  obtain ⟨name, displayName, kind, exposed⟩ := p
  apply String.toList_inj.1
  cases kind with
  | texture bound type =>
    cases type <;> simp [declaration, parts, head, tail, String.intercalate_cons_cons]
  | float x => simp [declaration, parts, head, tail, String.intercalate_cons_cons]
  | vector x y z w =>
    simp [declaration, parts, head, tail, String.intercalate_cons_cons]

/-- The text after the label, without the quote that closes the label. -/
def remainder (p : Property) : List Char := (String.intercalate "\"" p.tail).toList

theorem exists_tail_eq_cons (p : Property) : ∃ first others, p.tail = first :: others := by
  obtain ⟨name, displayName, kind, exposed⟩ := p
  cases kind <;> exact ⟨_, _, rfl⟩

theorem toList_declaration (p : Property) :
    p.declaration.toList =
      p.head.toList ++ '"' :: (p.displayName.toList ++ '"' :: p.remainder) := by
  obtain ⟨first, others, htail⟩ := p.exists_tail_eq_cons
  rw [declaration_eq, parts, remainder, String.intercalate_cons_cons, htail,
    String.intercalate_cons_cons]
  simp

/-- Only the label can hold a quote, an escape or a line feed. -/
theorem isPlain_tail (p : Property) : ∀ part ∈ p.tail, ∀ c ∈ part.toList, isPlain c = true := by
  have hnumber : ∀ x : Binary32, ∀ c ∈ (literalText x).toList, isPlain c = true := by
    intro x c hc
    rw [literalText, String.toList_ofList] at hc
    exact isPlain_of_mem_text hc
  have hfixed : ∀ text ∈ [", Float) = ", ", Vector) = (", ", ", ")"],
      ∀ c ∈ text.toList, isPlain c = true := forall_isPlain (by decide)
  simp only [List.forall_mem_cons] at hfixed
  obtain ⟨hfloat, hvector, hcomma, hclose, -⟩ := hfixed
  obtain ⟨name, displayName, kind, exposed⟩ := p
  cases kind with
  | texture bound type => cases type <;> exact forall_isPlain rfl
  | float x =>
    simp only [tail, List.forall_mem_singleton, String.toList_append, List.forall_mem_append]
    exact ⟨hfloat, hnumber x⟩
  | vector x y z w =>
    simp only [tail, List.forall_mem_singleton, String.toList_append, List.forall_mem_append,
      List.map_cons, List.map_nil, String.intercalate_cons_cons, String.intercalate_singleton]
    exact ⟨⟨hvector, ⟨hnumber x, hcomma⟩, ⟨hnumber y, hcomma⟩, ⟨hnumber z, hcomma⟩, hnumber w⟩,
      hclose⟩

theorem isPlain_head {p : Property} (hname : isName p.name.toList = true) :
    ∀ c ∈ p.head.toList, isPlain c = true := by
  have hword : ∀ c ∈ p.name.toList, isPlain c = true := fun c hc =>
    isPlain_of_isWordChar (List.all_eq_true.1 (isName_isWord hname).2 c hc)
  have hfixed : ∀ text ∈ ["", "[HideInInspector] ", "[Normal] ", "("],
      ∀ c ∈ text.toList, isPlain c = true := forall_isPlain (by decide)
  simp only [List.forall_mem_cons] at hfixed
  obtain ⟨hnone, hhidden, hnormal, hopen, -⟩ := hfixed
  simp only [head, String.toList_append, List.forall_mem_append]
  refine ⟨⟨⟨?_, ?_⟩, hword⟩, hopen⟩
  · split_ifs
    · exact hnone
    · exact hhidden
  · split
    · exact hnormal
    · exact hnone

theorem quotedParts_remainder (p : Property) :
    quotedParts p.remainder = p.tail.map String.toList := by
  have hplain := p.isPlain_tail
  obtain ⟨first, others, htail⟩ := p.exists_tail_eq_cons
  rw [htail] at hplain
  rw [remainder, htail, quotedParts_intercalate hplain]

theorem not_mem_remainder (p : Property) : '\n' ∉ p.remainder := by
  have hplain := p.isPlain_tail
  obtain ⟨first, others, htail⟩ := p.exists_tail_eq_cons
  rw [htail] at hplain
  rw [remainder, htail]
  exact not_mem_intercalate hplain

variable {p : Property}

/-- The quotes of a declaration are where they belong if and only if the label is contained. -/
theorem quotedParts_declaration_iff (hname : isName p.name.toList = true) :
    quotedParts p.declaration.toList = p.parts.map String.toList ↔
      isContained p.displayName.toList = true := by
  have hhead := isContained_plain (isPlain_head hname)
  rw [toList_declaration, parts, List.map_cons, List.map_cons, quotedParts_quote_iff,
    quotedParts_quote_iff]
  exact ⟨fun h => h.2.1, fun h => ⟨hhead, h, p.quotedParts_remainder⟩⟩

/-- A declaration does not end with its line. -/
theorem getLast?_declaration (p : Property) :
    p.declaration.toList.getLast?.any (· ≠ '\n') = true := by
  obtain ⟨c, hc⟩ : ∃ c, ('"' :: p.remainder).getLast? = some c :=
    ⟨_, List.getLast?_eq_some_getLast (List.cons_ne_nil _ _)⟩
  have hlast : p.declaration.toList.getLast? = some c := by
    rw [toList_declaration, ← List.cons_append, ← List.append_assoc, List.getLast?_append, hc]
    rfl
  have hne : c ≠ '\n' := by
    rintro rfl
    rcases List.mem_cons.1 (List.mem_of_getLast? hc) with h | h
    · cases h
    · exact p.not_mem_remainder h
  rw [hlast]
  simpa using hne

theorem count_declaration (hname : isName p.name.toList = true) :
    p.declaration.toList.count '\n' = p.displayName.toList.count '\n' := by
  have hhead : '\n' ∉ p.head.toList := fun h => absurd (isPlain_head hname _ h) (by decide)
  simp [toList_declaration, List.count_append, List.count_eq_zero.2 hhead,
    List.count_eq_zero.2 p.not_mem_remainder]

/-- A declaration has one line more than its label has line feeds. -/
theorem length_chunkLines_declaration (hname : isName p.name.toList = true) :
    (chunkLines p.declaration).length = p.displayName.toList.count '\n' + 1 := by
  rw [length_chunkLines p.getLast?_declaration, count_declaration hname]

theorem chunkLines_declaration_iff (hname : isName p.name.toList = true) :
    chunkLines p.declaration = [p.declaration] ↔ '\n' ∉ p.displayName.toList := by
  rw [chunkLines_eq_self_iff p.getLast?_declaration, ← List.count_eq_zero, count_declaration hname,
    List.count_eq_zero]

end Declarations

end Property

end ShaderGraph
