import Mathlib.Data.List.Basic
import ShaderGraph.Shader.Sink

/-!
# Reading emitted text

What a pass puts out is text. This file reads lines of such text again, with nothing but the line at
hand, so that a statement about a shader can be one about its text.

* `lexemes` : the words, members and marks of a text, without its blanks;
* `Term`, `readTerm?` : an expression of the shading language and the reader of its text;
* `Line`, `readLine?` : a statement of the fragment stage and its reader;
* `readDeclaration?` : the declaration of a uniform or of a member;
* `Reads` : a text stands for a term wherever a term can stand, with one lemma per form.
-/

namespace ShaderGraph.Reading

section Lexemes

/-- A piece of shader text. -/
inductive Token
  /-- A name or the digits of a number, with the sign if there is one. -/
  | word (letters : List Char)
  /-- What follows a dot. -/
  | member (letters : List Char)
  | mark (c : Char)
deriving DecidableEq

def isWordChar (c : Char) : Bool := c.isAlphanum || c == '_'

/-- Put a character before the tokens of what follows it. -/
def prepend (c : Char) (tokens : List Token) : List Token :=
  match tokens with
  | .word w :: rest =>
    if isWordChar c then
      if w.head? = some '-' then .word [c] :: tokens else .word (c :: w) :: rest
    else if c = '-' then .word (c :: w) :: rest
    else if c = '.' then .member w :: rest
    else .mark c :: tokens
  | _ => if isWordChar c then .word [c] :: tokens else .mark c :: tokens

def tokens (text : List Char) : List Token := text.foldr prepend []

/-- The tokens of a text without its blanks. -/
def lexemes (text : List Char) : List Token := (tokens text).filter (· ≠ .mark ' ')

/-- What comes before such a text is no part of its first token. -/
def Breaks (text : List Char) : Prop := ∀ w rest, tokens text ≠ .word w :: rest

theorem breaks_cons {c : Char} (hc : isWordChar c = false) (hs : c ≠ '-') (text : List Char) :
    Breaks (c :: text) := by
  intro w rest h
  change prepend c (tokens text) = _ at h
  unfold prepend at h
  split at h
  · rw [if_neg (by simp [hc]), if_neg hs] at h
    by_cases hdot : c = '.' <;> simp [hdot] at h
  · rw [if_neg (by simp [hc])] at h
    cases h

theorem prepend_append {c : Char} {l r : List Token} (hr : ∀ w rest, r ≠ .word w :: rest) :
    prepend c (l ++ r) = prepend c l ++ r := by
  unfold prepend
  cases l with
  | nil =>
    cases r with
    | nil => simp
    | cons t r =>
      cases t with
      | word w => exact absurd rfl (hr w r)
      | member w => simp; split <;> rfl
      | mark c => simp; split <;> rfl
  | cons t l =>
    cases t with
    | word w => simp; split_ifs <;> rfl
    | member w => simp; split <;> rfl
    | mark c => simp; split <;> rfl

theorem tokens_append {a b : List Char} (hb : Breaks b) :
    tokens (a ++ b) = tokens a ++ tokens b := by
  induction a with
  | nil => rfl
  | cons c a ih =>
    change prepend c (tokens (a ++ b)) = prepend c (tokens a) ++ tokens b
    rw [ih, prepend_append hb]

theorem lexemes_append {a b : List Char} (hb : Breaks b) :
    lexemes (a ++ b) = lexemes a ++ lexemes b := by
  rw [lexemes, tokens_append hb, List.filter_append]
  rfl

/-- A character that is no part of a word, a number or a member. -/
def isMark (c : Char) : Bool := !isWordChar c && c != '-' && c != '.'

theorem breaks_mark {c : Char} (hc : isMark c = true) (text : List Char) : Breaks (c :: text) := by
  simp only [isMark, Bool.and_eq_true, Bool.not_eq_true', bne_iff_ne, ne_eq] at hc
  exact breaks_cons hc.1.1 hc.1.2 text

theorem tokens_mark {c : Char} (hc : isMark c = true) (text : List Char) :
    tokens (c :: text) = .mark c :: tokens text := by
  simp only [isMark, Bool.and_eq_true, Bool.not_eq_true', bne_iff_ne, ne_eq] at hc
  change prepend c (tokens text) = _
  unfold prepend
  split
  · simp [hc.1.1, hc.1.2, hc.2]
  · simp [hc.1.1]

theorem lexemes_mark {c : Char} (hc : isMark c = true) (hblank : c ≠ ' ') (text : List Char) :
    lexemes (c :: text) = .mark c :: lexemes text := by
  simp [lexemes, tokens_mark hc, hblank]

theorem lexemes_blank (text : List Char) : lexemes (' ' :: text) = lexemes text := by
  simp [lexemes, tokens_mark (show isMark ' ' = true by decide)]

theorem tokens_word {w : List Char} (hne : w ≠ []) (hw : w.all isWordChar = true) :
    tokens w = [.word w] := by
  induction w with
  | nil => exact absurd rfl hne
  | cons c w ih =>
    rw [List.all_cons, Bool.and_eq_true] at hw
    change prepend c (tokens w) = _
    by_cases hnil : w = []
    · subst hnil
      simp [tokens, prepend, hw.1]
    · rw [ih hnil hw.2]
      have hsign : w.head? ≠ some '-' := by
        intro h
        have hmem : '-' ∈ w := List.mem_of_mem_head? h
        have := List.all_eq_true.1 hw.2 _ hmem
        revert this
        decide
      simp [prepend, hw.1, hsign]

theorem lexemes_word {w : List Char} (hne : w ≠ []) (hw : w.all isWordChar = true) :
    lexemes w = [.word w] := by
  simp [lexemes, tokens_word hne hw]

theorem lexemes_signed {w : List Char} (hne : w ≠ []) (hw : w.all isWordChar = true) :
    lexemes ('-' :: w) = [.word ('-' :: w)] := by
  have htokens : tokens ('-' :: w) = prepend '-' (tokens w) := rfl
  rw [tokens_word hne hw] at htokens
  simp [lexemes, htokens, prepend, show isWordChar '-' = false by decide]

theorem lexemes_member {w : List Char} (hne : w ≠ []) (hw : w.all isWordChar = true) :
    lexemes ('.' :: w) = [.member w] := by
  have htokens : tokens ('.' :: w) = prepend '.' (tokens w) := rfl
  rw [tokens_word hne hw] at htokens
  simp [lexemes, htokens, prepend, show isWordChar '.' = false by decide]

end Lexemes

section Terms

/-- An expression of the shading language. -/
inductive Term
  | name (s : String)
  | number (s : String)
  /-- A field of a structure or components of a vector. -/
  | member (t : Term) (s : String)
  /-- A function or a vector type applied to its arguments. -/
  | call (f : String) (arguments : List Term)

def isDigits (w : List Char) : Bool := !w.isEmpty && w.all Char.isDigit

/-- Digits, with a sign before them or not. -/
def isNumeral (w : List Char) : Bool := isDigits (if w.head? = some '-' then w.tail else w)

/-- A word that does not begin with a digit. -/
def isName (w : List Char) : Bool :=
  !w.isEmpty && w.all isWordChar && !(w.head?.any Char.isDigit)

def Term.ofWord? (w : List Char) : Option Term :=
  if isNumeral w then some (.number (String.ofList w))
  else if isName w then some (.name (String.ofList w))
  else none

/-- The digits after the point of a number, else a member. -/
def Term.follow (t : Term) (w : List Char) : Term :=
  match t with
  | .number s =>
    if isDigits w then .number (s ++ "." ++ String.ofList w) else .member t (String.ofList w)
  | _ => .member t (String.ofList w)

/-- What is held while a term is read: the open calls, innermost first, each with the arguments
before the one being read, and the term that was read last. -/
structure Reader where
  opened : List (String × List Term)
  current : Option Term

def Reader.step (r : Reader) (token : Token) : Option Reader :=
  match token, r.opened, r.current with
  | .word w, opened, none => (Term.ofWord? w).map fun t => ⟨opened, some t⟩
  | .member w, opened, some t => some ⟨opened, some (t.follow w)⟩
  | .mark '(', opened, some (.name f) => some ⟨(f, []) :: opened, none⟩
  | .mark ',', (f, arguments) :: opened, some t => some ⟨(f, arguments ++ [t]) :: opened, none⟩
  | .mark ')', (f, arguments) :: opened, some t => some ⟨opened, some (.call f (arguments ++ [t]))⟩
  | _, _, _ => none

/-- The term that tokens spell. -/
def readTerm? (tokens : List Token) : Option Term :=
  match tokens.foldlM Reader.step ⟨[], none⟩ with
  | some ⟨[], some t⟩ => some t
  | _ => none

/-- The text spells the term wherever a term can stand. -/
def Reads (text : List Char) (t : Term) : Prop :=
  ∀ opened, (lexemes text).foldlM Reader.step ⟨opened, none⟩ = some ⟨opened, some t⟩

variable {text : List Char} {t : Term}

theorem Reads.readTerm? (h : Reads text t) : readTerm? (lexemes text) = some t := by
  rw [Reading.readTerm?, h []]

theorem isDigit_isWordChar {c : Char} (h : c.isDigit = true) : isWordChar c = true := by
  simp [isWordChar, Char.isAlphanum, h]

theorem all_isWordChar_of_isDigits {w : List Char} (h : isDigits w = true) :
    w ≠ [] ∧ w.all isWordChar = true := by
  rw [isDigits, Bool.and_eq_true, List.all_eq_true] at h
  refine ⟨by rintro rfl; simp at h, List.all_eq_true.2 fun c hc => ?_⟩
  exact isDigit_isWordChar (h.2 c hc)

theorem head?_ne_sign_of_isDigits {w : List Char} (h : isDigits w = true) :
    w.head? ≠ some '-' := by
  intro hhead
  rw [isDigits, Bool.and_eq_true, List.all_eq_true] at h
  have hdigit := h.2 '-' (List.mem_of_mem_head? hhead)
  revert hdigit
  decide

theorem isNumeral_of_isDigits {w : List Char} (h : isDigits w = true) : isNumeral w = true := by
  rw [isNumeral, if_neg (head?_ne_sign_of_isDigits h), h]

theorem isNumeral_signed {w : List Char} (h : isDigits w = true) : isNumeral ('-' :: w) = true := by
  simpa [isNumeral] using h

theorem not_isNumeral_of_isName {w : List Char} (h : isName w = true) : isNumeral w = false := by
  simp only [isName, Bool.and_eq_true, Bool.not_eq_true'] at h
  obtain ⟨⟨hne, hall⟩, hhead⟩ := h
  cases w with
  | nil => simp at hne
  | cons c w =>
    have hdigit : c.isDigit = false := by simpa using hhead
    have hsign : c ≠ '-' := by
      rintro rfl
      rw [List.all_cons, Bool.and_eq_true] at hall
      have := hall.1
      revert this
      decide
    simp [isNumeral, isDigits, hsign, hdigit]

theorem reads_name {s : String} (h : isName s.toList = true) : Reads s.toList (.name s) := by
  intro opened
  have hword := h
  simp only [isName, Bool.and_eq_true, Bool.not_eq_true', List.isEmpty_eq_false_iff] at hword
  rw [lexemes_word hword.1.1 hword.1.2]
  simp [Reader.step, Term.ofWord?, not_isNumeral_of_isName h, h]

theorem reads_digits {w : List Char} (h : isDigits w = true) :
    Reads w (.number (String.ofList w)) := by
  intro opened
  obtain ⟨hne, hall⟩ := all_isWordChar_of_isDigits h
  rw [lexemes_word hne hall]
  simp [Reader.step, Term.ofWord?, isNumeral_of_isDigits h]

theorem reads_signed {w : List Char} (h : isDigits w = true) :
    Reads ('-' :: w) (.number (String.ofList ('-' :: w))) := by
  intro opened
  obtain ⟨hne, hall⟩ := all_isWordChar_of_isDigits h
  rw [lexemes_signed hne hall]
  simp [Reader.step, Term.ofWord?, isNumeral_signed h]

/-- A dot and a word after a term. -/
theorem Reads.follow (h : Reads text t) {w : List Char} (hne : w ≠ [])
    (hw : w.all isWordChar = true) :
    Reads (text ++ '.' :: w) (t.follow w) := by
  intro opened
  rw [lexemes_append (breaks_cons (by decide) (by decide) w), lexemes_member hne hw,
    List.foldlM_append, h opened]
  simp [Reader.step]

end Terms

section Numbers

theorem isDigits_toDigits (n : Nat) : isDigits (Nat.toDigits 10 n) = true := by
  rw [isDigits, Bool.and_eq_true, List.all_eq_true]
  refine ⟨by simp [Nat.toDigits_ne_nil], fun c hc => ?_⟩
  exact Nat.isDigit_of_mem_toDigits (b := 10) (by decide) (by decide) hc

theorem isDigits_leftpad {w : List Char} (h : isDigits w = true) (n : Nat) :
    isDigits (w.leftpad n '0') = true := by
  rw [isDigits, Bool.and_eq_true, List.all_eq_true] at h ⊢
  have hne : w ≠ [] := by
    rintro rfl
    simp at h
  refine ⟨by simp [List.leftpad, hne], fun c hc => ?_⟩
  rw [List.leftpad, List.mem_append] at hc
  obtain hc | hc := hc
  · rw [List.eq_of_mem_replicate hc]
    decide
  · exact h.2 c hc

/-- Digits after the point of a number. -/
theorem Reads.point {w digits : List Char} (h : Reads w (.number (String.ofList w)))
    (hdigits : isDigits digits = true) :
    Reads (w ++ '.' :: digits) (.number (String.ofList (w ++ '.' :: digits))) := by
  obtain ⟨hne, hall⟩ := all_isWordChar_of_isDigits hdigits
  have hterm : (Term.number (String.ofList w)).follow digits =
      .number (String.ofList (w ++ '.' :: digits)) := by
    have htext : String.ofList w ++ "." ++ String.ofList digits =
        String.ofList (w ++ '.' :: digits) := by
      apply String.toList_inj.1
      simp [String.toList_append]
    simp [Term.follow, hdigits, htext]
  rw [← hterm]
  exact h.follow hne hall

theorem isFinite_finite (x : Binary32) : x.finite.isFinite = true := by
  unfold Binary32.finite
  by_cases hnan : x.isNaN = true
  · rw [if_pos hnan]
    decide
  · rw [if_neg hnan]
    by_cases hfinite : x.isFinite = true
    · rwa [if_pos hfinite]
    · rw [if_neg hfinite]
      cases x.negative <;> decide

/-- A finite number is read as a number. -/
theorem reads_literal {x : Binary32} (h : x.isFinite = true) :
    Reads (literalText x).toList (.number (literalText x)) := by
  have hnan : x.isNaN = false := by
    simp only [Binary32.isFinite, Binary32.isNaN, decide_eq_true_eq, decide_eq_false_iff_not] at h ⊢
    omega
  have htext : x.text = if x.negative then '-' :: (Binary32.shortest x.magnitude).positional
      else (Binary32.shortest x.magnitude).positional := by
    simp [Binary32.text, hnan, h]
  rw [literalText, String.toList_ofList, htext]
  obtain ⟨digits, exponent⟩ := Binary32.shortest x.magnitude
  cases exponent with
  | ofNat e =>
    have hdigits := isDigits_toDigits (digits * Nat.pow 10 e)
    cases x.negative with
    | true => exact reads_signed hdigits
    | false => exact reads_digits hdigits
  | negSucc e =>
    have hwhole := isDigits_toDigits (digits / Nat.pow 10 (e + 1))
    have hpart := isDigits_leftpad (isDigits_toDigits (digits % Nat.pow 10 (e + 1))) (e + 1)
    cases x.negative with
    | true => exact (reads_signed hwhole).point hpart
    | false => exact (reads_digits hwhole).point hpart

end Numbers

section Calls

variable {f : String} {arguments : List Term}

/-- Several texts and the terms they spell, in the same order. -/
def ReadAll (texts : List String) (terms : List Term) : Prop :=
  List.Forall₂ (fun s t => Reads s.toList t) texts terms

/-- The arguments of an open call, each but the last one already followed by its comma. -/
theorem foldlM_arguments {texts : List String} {terms : List Term} (h : ReadAll texts terms)
    (hne : texts ≠ []) (before : List Term) (opened : List (String × List Term)) :
    ∃ init last, terms = init ++ [last] ∧
      (lexemes (String.intercalate ", " texts).toList).foldlM Reader.step
          ⟨(f, before) :: opened, none⟩ =
        some ⟨(f, before ++ init) :: opened, some last⟩ := by
  -- each comma moves one argument over to those before the next, so these are general
  induction h generalizing before with
  | nil => exact absurd rfl hne
  | @cons s t texts terms hs hrest ih =>
    cases texts with
    | nil =>
      cases hrest
      exact ⟨[], t, rfl, by simpa using hs _⟩
    | cons s' texts =>
      obtain ⟨init, last, rfl, hread⟩ := ih (by simp) (before ++ [t])
      refine ⟨t :: init, last, rfl, ?_⟩
      have htext : (String.intercalate ", " (s :: s' :: texts)).toList =
          s.toList ++ ',' :: ' ' :: (String.intercalate ", " (s' :: texts)).toList := by
        simp [String.intercalate_cons_cons, String.toList_append]
      rw [htext, lexemes_append (breaks_mark (by decide) _), List.foldlM_append, hs,
        lexemes_mark (by decide) (by decide), lexemes_blank]
      simpa [Reader.step] using hread

/-- A name and its arguments in parentheses. -/
theorem reads_call {texts : List String} (hf : isName f.toList = true)
    (h : ReadAll texts arguments) (hne : texts ≠ []) :
    Reads (f ++ "(" ++ String.intercalate ", " texts ++ ")").toList (.call f arguments) := by
  intro opened
  obtain ⟨init, last, rfl, hread⟩ := foldlM_arguments (f := f) h hne [] opened
  have htext : (f ++ "(" ++ String.intercalate ", " texts ++ ")").toList =
      f.toList ++ '(' :: ((String.intercalate ", " texts).toList ++ [')']) := by
    simp [String.toList_append]
  rw [htext, lexemes_append (breaks_mark (by decide) _), List.foldlM_append, reads_name hf,
    lexemes_mark (by decide) (by decide), lexemes_append (breaks_mark (by decide) _)]
  change ((lexemes _ ++ _).foldlM Reader.step ⟨(f, []) :: opened, none⟩) = _
  rw [List.foldlM_append, hread, lexemes_mark (by decide) (by decide)]
  rfl

end Calls

section Lines

/-- A statement of the fragment stage. -/
inductive Line
  | declare (type name : String) (value : Term)
  /-- Assigns a member of the surface. -/
  | assign (member : String) (value : Term)

/-- The term before the semicolon that ends a statement. -/
def readValue? (tokens : List Token) : Option Term :=
  if tokens.getLast? = some (.mark ';') then readTerm? tokens.dropLast else none

def readLine? (text : String) : Option Line :=
  match lexemes text.toList with
  | .word type :: .word name :: .mark '=' :: rest =>
    (readValue? rest).map (.declare (String.ofList type) (String.ofList name))
  | .word ['o'] :: .member slot :: .mark '=' :: rest =>
    (readValue? rest).map (.assign (String.ofList slot))
  | _ => none

/-- The type and the name that a uniform or a member of a structure is declared with. -/
def readDeclaration? (text : String) : Option (String × String) :=
  match lexemes text.toList with
  | [.word type, .word name, .mark ';'] => some (String.ofList type, String.ofList name)
  | _ => none

theorem isName_isWord {w : List Char} (h : isName w = true) : w ≠ [] ∧ w.all isWordChar = true := by
  simp only [isName, Bool.and_eq_true, Bool.not_eq_true', List.isEmpty_eq_false_iff] at h
  exact h.1

/-- A name before a mark. -/
theorem lexemes_name {w : List Char} (h : isName w = true) {c : Char} (hc : isMark c = true)
    (rest : List Char) : lexemes (w ++ c :: rest) = .word w :: lexemes (c :: rest) := by
  obtain ⟨hne, hall⟩ := isName_isWord h
  rw [lexemes_append (breaks_mark hc rest), lexemes_word hne hall]
  rfl

theorem readValue?_semicolon {text : List Char} {t : Term} (h : Reads text t) :
    readValue? (lexemes (text ++ [';'])) = some t := by
  rw [lexemes_append (breaks_mark (by decide) _), lexemes_mark (by decide) (by decide)]
  simpa [readValue?, show lexemes [] = [] from rfl] using h.readTerm?

variable {type name value : String} {t : Term}

theorem readLine?_declare (htype : isName type.toList = true) (hname : isName name.toList = true)
    (hvalue : Reads value.toList t) :
    readLine? (type ++ " " ++ name ++ " = " ++ value ++ ";") = some (.declare type name t) := by
  have htext : (type ++ " " ++ name ++ " = " ++ value ++ ";").toList =
      type.toList ++ ' ' :: (name.toList ++ ' ' :: '=' :: ' ' :: (value.toList ++ [';'])) := by
    simp [String.toList_append]
  rw [readLine?, htext, lexemes_name htype (by decide), lexemes_blank,
    lexemes_name hname (by decide), lexemes_blank, lexemes_mark (by decide) (by decide),
    lexemes_blank]
  simp [readValue?_semicolon hvalue]

example : readLine? "half2 abs3_out = abs(uv1_out.xy);" =
    some (.declare "half2" "abs3_out" (.call "abs" [.member (.name "uv1_out") "xy"])) := rfl

theorem readLine?_assign (hname : isName name.toList = true) (hvalue : Reads value.toList t) :
    readLine? ("o." ++ name ++ " = " ++ value ++ ";") = some (.assign name t) := by
  have htext : ("o." ++ name ++ " = " ++ value ++ ";").toList =
      ['o'] ++ ('.' :: name.toList ++ ' ' :: '=' :: ' ' :: (value.toList ++ [';'])) := by
    simp [String.toList_append]
  obtain ⟨hname₁, hname₂⟩ := isName_isWord hname
  have hdot : Breaks ('.' :: name.toList ++ ' ' :: '=' :: ' ' :: (value.toList ++ [';'])) :=
    breaks_cons (by decide) (by decide) _
  rw [readLine?, htext, lexemes_append hdot, lexemes_word (by decide) (by decide),
    lexemes_append (breaks_mark (by decide) _), lexemes_member hname₁ hname₂,
    lexemes_blank, lexemes_mark (by decide) (by decide), lexemes_blank]
  simp [readValue?_semicolon hvalue]

theorem readDeclaration?_text (htype : isName type.toList = true)
    (hname : isName name.toList = true) :
    readDeclaration? (type ++ " " ++ name ++ ";") = some (type, name) := by
  have htext : (type ++ " " ++ name ++ ";").toList =
      type.toList ++ ' ' :: (name.toList ++ [';']) := by
    simp [String.toList_append]
  rw [readDeclaration?, htext, lexemes_name htype (by decide), lexemes_blank,
    lexemes_name hname (by decide), lexemes_mark (by decide) (by decide)]
  simp [show lexemes [] = [] from rfl]

end Lines

end ShaderGraph.Reading
