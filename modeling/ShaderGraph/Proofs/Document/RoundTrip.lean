import Mathlib.Data.List.Nodup
import ShaderGraph.Document.Choice
import ShaderGraph.Proofs.Document.Elements
import ShaderGraph.Proofs.OrderedMap

/-!
# Printed values are read back

`shape.Restores v w` says that what is printed for `v` is read as `w` where a value of the shape is
expected, at any indentation and before anything a value can stand before. There is a lemma for each
form of a shape: a number is read as its canonical one, every other value without parts as itself,
and a value with parts as the one whose parts are read back.

* `restores_record`, `restores_map`, `restores_list`, `restores_tuple` : values with many parts;
* `read_record_laid` : a record of which only some fields are written, in any order and layout;
* `restores_choice` : variants;
* `readDocument_document` : a whole document.
-/

namespace ShaderGraph.Document

variable {close c : Char} {elements indent : ℕ} {rest : List Char}

section Values

attribute [local simp] Shape.read Value.print

/-- What is printed for `v` is read as `w`, at any indentation and depth. -/
def Shape.Restores (shape : Shape) (v w : Value) : Prop :=
  ∀ elements depth indent, (v.print indent).length ≤ elements →
    ReadsAs (shape.read elements depth) (v.print indent) w

variable {shape content : Shape} {v w : Value} {name : String}

theorem isOpening_of_isAlpha (h : c.isAlpha = true) : isOpening c = true := by
  have hne : [' ', '\t', '\n', '\r', '\x0b', '\x0c', '\u0085', '\u200e', '\u200f', '\u2028',
      '\u2029', '/', ')', ']', '\x7d', ','].any (·.isAlpha) = false := by decide
  have hc : c ∉ [' ', '\t', '\n', '\r', '\x0b', '\x0c', '\u0085', '\u200e', '\u200f', '\u2028',
      '\u2029', '/', ')', ']', '\x7d', ','] := fun hmem => List.any_eq_false.1 hne c hmem h
  simpa [isOpening, isSolid, isBlank, and_assoc] using hc

theorem opens_of_isPlainName (h : isPlainName name = true) (s : List Char) :
    Opens (name.toList ++ s) := by
  obtain ⟨c, w, hname, hletter, -⟩ := exists_of_isPlainName h
  exact ⟨c, w ++ s, by rw [hname]; rfl, isOpening_of_isAlpha hletter⟩

theorem opens_digits {w : List Char} (hne : w ≠ []) (hw : ∀ c ∈ w, c.isDigit = true) : Opens w := by
  obtain ⟨c, w, rfl⟩ := List.exists_cons_of_ne_nil hne
  exact ⟨c, w, rfl, forall_isDigit (p := (isOpening · = true)) (by decide) (hw c (by simp))⟩

theorem opens_numberText (x : Binary32) : Opens (numberText x) := by
  by_cases hfinite : x.isFinite = true
  · have hdigits := isDigit_of_mem_pointed (Binary32.shortest x.magnitude)
    rw [numberText_finite hfinite]
    cases x.negative with
    | false => exact (opens_digits (pointed_whole_ne_nil _) hdigits.1).append _
    | true => exact ⟨'-', _, rfl, by decide⟩
  · rw [numberText, if_neg (by simp [hfinite]), Binary32.text]
    split_ifs
    · exact ⟨'N', _, rfl, by decide⟩
    · exact ⟨'-', _, rfl, by decide⟩
    · exact ⟨'i', _, rfl, by decide⟩

theorem restores_text {passes : String → Bool} {s : String} (h : passes s = true) :
    (Shape.text passes).Restores (.text s) (.text s) := by
  intro elements depth indent _
  refine ⟨⟨'"', _, rfl, by decide⟩, fun rest _ => ?_⟩
  simp [readText_quoted, h]

theorem restores_natural {limit n : ℕ} (h : n ≤ limit) :
    (Shape.natural limit).Restores (.natural n) (.natural n) := by
  intro elements depth indent _
  rw [Value.print]
  refine ⟨opens_digits Nat.toDigits_ne_nil isDigit_of_mem_toDigits, fun rest hrest => ?_⟩
  simp [lexeme, readNatural_toDigits h hrest, Except.map]

theorem restores_anyText (s : String) : anyText.Restores (.text s) (.text s) := restores_text rfl

theorem restores_word32 {n : ℕ} (h : n ≤ 0xffffffff) : word32.Restores (.natural n) (.natural n) :=
  restores_natural h

theorem restores_number (x : Binary32) :
    Shape.number.Restores (.number x) (.number x.canonical) := by
  intro elements depth indent _
  rw [Value.print]
  refine ⟨opens_numberText x, fun rest hrest => ?_⟩
  simp [lexeme, readNumber_numberText x hrest, Except.map]

theorem restores_flag (b : Bool) : Shape.flag.Restores (.flag b) (.flag b) := by
  intro elements depth indent _
  refine ⟨by cases b <;> exact ⟨_, _, rfl, by decide⟩, fun rest hrest => ?_⟩
  have hread : readOneOf [("true", true), ("false", false)]
      ((if b = true then "true" else "false").toList ++ rest) = some (b, rest) := by
    cases b with
    | false => exact (readOneOf_skip (by simp)).trans (readOneOf_here hrest)
    | true => exact readOneOf_here hrest
  rw [Shape.read, Value.print, lexeme, hread]
  rfl

theorem readTypeName_append (h : isPlainName name = true) (hrest : Stops rest) :
    readTypeName name (name.toList ++ rest) = .ok (true, rest) := by
  obtain ⟨c, w, hname, -, -, -, hall⟩ := exists_of_isPlainName h
  have hhead : (name.toList ++ rest).head?.any isNameChar = true := by
    simp [hname, hall c]
  rw [readTypeName, if_pos hhead, readName_append h hrest]
  simp

theorem restores_unit (h : isPlainName name = true) :
    (Shape.unit name).Restores (.symbol name) (.symbol name) := by
  intro elements depth indent _
  rw [Value.print]
  refine ⟨by simpa using opens_of_isPlainName h [], fun rest hrest => ?_⟩
  simp [readTypeName_append h hrest]

/-- A value that is read is read between parentheses too. -/
theorem readEnclosed_print {read : Reader Value} {text : List Char} (h : ReadsAs read text w) :
    readEnclosed read ('(' :: (text ++ ')' :: rest)) = .ok (w, rest) := by
  have hmark : readMark '(' ('(' :: (text ++ ')' :: rest)) = some (text ++ ')' :: rest) :=
    readMark_opens (by decide) (h.opens.append (')' :: rest))
  have hread := h.reads (')' :: rest) (stops_cons (by decide) rest)
  have hcomma := readComma_cons (c := ')') (by decide) (by decide) rest
  simp [readEnclosed, lexeme, hmark, hread, hcomma, bind, Except.bind]

theorem length_print_enclosed (name : String) (v : Value) (indent : ℕ) :
    (v.print indent).length ≤ ((Value.enclosed name v).print indent).length := by
  simp only [Value.print, List.length_append, List.length_cons]
  omega

theorem restores_enclosed (hname : isPlainName name = true) (h : content.Restores v w) :
    (Shape.enclosed name content).Restores (.enclosed name v) (.enclosed name w) := by
  intro elements depth indent hlen
  have hcontent := h elements (depth - 1) indent ((length_print_enclosed name v indent).trans hlen)
  rw [Value.print]
  refine ⟨opens_of_isPlainName hname _, fun rest hrest => ?_⟩
  have hname := readTypeName_append hname
    (stops_cons (c := '(') (by decide) (v.print indent ++ ')' :: rest))
  rw [Shape.read]
  simp [hname, readEnclosed_print hcontent, bind, Except.bind]

theorem restores_none : (Shape.option content).Restores (.symbol "None") (.symbol "None") := by
  intro elements depth indent _
  refine ⟨⟨'N', _, rfl, by decide⟩, fun rest hrest => ?_⟩
  rw [Shape.read, Value.print, readOneOf_here hrest]

theorem restores_some (h : content.Restores v w) :
    (Shape.option content).Restores (.enclosed "Some" v) (.enclosed "Some" w) := by
  intro elements depth indent hlen
  have hcontent := h elements (depth - 1) indent ((length_print_enclosed _ v indent).trans hlen)
  refine ⟨⟨'S', _, rfl, by decide⟩, fun rest hrest => ?_⟩
  have hword : readOneOf [("None", false), ("Some", true)]
      ("Some".toList ++ '(' :: (v.print indent ++ ')' :: rest)) =
        some (true, '(' :: (v.print indent ++ ')' :: rest)) :=
    (readOneOf_skip (by simp)).trans (readOneOf_here (stops_cons (by decide) _))
  rw [Shape.read, Value.print]
  simp only [List.append_assoc, List.cons_append, List.nil_append, hword,
    readEnclosed_print hcontent, bind, Except.bind]

end Values

section Choices

variable {content : Shape} {v w : Value} {name : String} {variants : Variants}

/-- The value of a variant, after the name of the variant. -/
inductive Variants.Restores : Variants → String → Value → Value → Prop
  | symbol (name : String) (others : Variants) :
    Variants.Restores (.symbol name others) name (.symbol name) (.symbol name)
  | enclosed {name : String} {content : Shape} {others : Variants} {v w : Value}
    (h : content.Restores v w) :
    Variants.Restores (.enclosed name content others) name (.enclosed name v) (.enclosed name w)
  | afterSymbol {known name : String} {others : Variants} {v w : Value} (hne : known ≠ name)
    (h : Variants.Restores others name v w) : Variants.Restores (.symbol known others) name v w
  | afterEnclosed {known name : String} {content : Shape} {others : Variants} {v w : Value}
    (hne : known ≠ name) (h : Variants.Restores others name v w) :
    Variants.Restores (.enclosed known content others) name v w

/-- A variant begins with its name, and is read after it. -/
theorem Variants.Restores.exists_tail (h : variants.Restores name v w) (depth : ℕ)
    (hlen : (v.print indent).length ≤ elements) :
    ∃ tail, v.print indent = name.toList ++ tail ∧ ∀ rest, Stops rest → Stops (tail ++ rest) ∧
      variants.read elements depth name (tail ++ rest) = .ok (w, rest) := by
  induction h with
  | symbol name others =>
    refine ⟨[], by simp [Value.print], fun rest hrest => ⟨hrest, ?_⟩⟩
    rw [Variants.read, if_pos rfl]
    rfl
  | @enclosed name content others v w h =>
    have hcontent := h elements (depth - 2) indent
      ((length_print_enclosed name v indent).trans hlen)
    refine ⟨'(' :: (v.print indent ++ [')']), by rw [Value.print], fun rest hrest =>
      ⟨stops_cons (by decide) _, ?_⟩⟩
    simp [Variants.read, readEnclosed_print hcontent, bind, Except.bind]
  | afterSymbol hne h ih =>
    obtain ⟨tail, htext, hread⟩ := ih hlen
    exact ⟨tail, htext, fun rest hrest => by rw [Variants.read, if_neg hne]; exact hread rest hrest⟩
  | afterEnclosed hne h ih =>
    obtain ⟨tail, htext, hread⟩ := ih hlen
    exact ⟨tail, htext, fun rest hrest => by rw [Variants.read, if_neg hne]; exact hread rest hrest⟩

theorem restores_choice (hname : isPlainName name = true) (h : variants.Restores name v w) :
    (Shape.choice variants).Restores v w := by
  intro elements depth indent hlen
  obtain ⟨tail, htext, hread⟩ := h.exists_tail depth hlen
  rw [htext]
  refine ⟨opens_of_isPlainName hname tail, fun rest hrest => ?_⟩
  obtain ⟨hstops, htail⟩ := hread rest hrest
  rw [Shape.read, List.append_assoc, readName_append hname hstops]
  exact htail

theorem restores_ofNames {names : List String} (hmem : name ∈ names) :
    (Variants.ofNames names).Restores name (.symbol name) (.symbol name) := by
  induction names with
  | nil => simp at hmem
  | cons first names ih =>
    by_cases hfirst : first = name
    · subst hfirst
      exact .symbol first _
    · refine .afterSymbol hfirst (ih ?_)
      simpa [Ne.symm hfirst] using hmem

theorem restores_symbol {α : Type} {all : List α} {label : α → String} {a : α} (hmem : a ∈ all)
    (hlabel : isPlainName (label a) = true) :
    (symbolShape all label).Restores (.symbol (label a)) (.symbol (label a)) :=
  restores_choice hlabel (restores_ofNames (List.mem_map_of_mem hmem))

end Choices

section Brackets

variable {item : Shape} {v w : Value} {vs ws : List Value}

/-- Reads an element and puts it before those that were found. -/
def collect {β : Type} (read : Reader β) (found : List β) : Reader (List β) := fun s =>
  (read s).map fun (a, s) => (a :: found, s)

theorem ReadsAs.collect {β : Type} {read : Reader β} {text : List Char} {b : β}
    (h : ReadsAs read text b) (found : List β) :
    ReadsAs (collect read found) text (b :: found) where
  opens := h.opens
  reads rest hrest := by
    rw [Document.collect, h.reads rest hrest]
    rfl

theorem readElements_of_foldElements {β : Type} {read : Reader β} {bs : List β} {s : List Char}
    (h : foldElements close (collect read) elements [] s = .ok (bs.reverse, rest)) :
    readElements close read elements s = .ok (bs, rest) := by
  change (foldElements close (collect read) elements [] s).map _ = _
  rw [h]
  simp [Except.map]

/-- Items that are read one after the other are collected, the last one first. -/
theorem steps_collect {α β : Type} {read : Reader β} {print : α → List Char} {as : List α}
    {bs : List β} (h : List.Forall₂ (fun a b => ReadsAs read (print a) b) as bs)
    (found : List β) : Steps (collect read) found (as.map print) (bs.reverse ++ found) := by
  induction h generalizing found with
  | nil => exact .nil _
  | @cons a b as bs hab hrest ih =>
    rw [List.map_cons, List.reverse_cons, List.append_assoc]
    exact .cons (hab.collect found) (ih (b :: found))

/-- The reader of an item reads each of the items. -/
theorem forall₂_readsAs (h : List.Forall₂ item.Restores vs ws) (elements depth indent : ℕ)
    (hlen : ∀ v ∈ vs, (v.print indent).length ≤ elements) :
    List.Forall₂ (fun v w => ReadsAs (item.read elements depth) (v.print indent) w) vs ws := by
  induction h with
  | nil => exact .nil
  | cons hvw hrest ih =>
    rw [List.forall_mem_cons] at hlen
    exact .cons (hvw _ _ _ hlen.1) (ih hlen.2)

/-- Items that are read in order are read between brackets, however they are laid out. -/
theorem readElements_laid {α β : Type} {read : Reader β} {print : α → List Char} {as : List α}
    {bs : List β} {s : List Char} (hclose : isClosing close = true)
    (h : List.Forall₂ (fun a b => ReadsAs read (print a) b) as bs)
    (hlaid : Laid close (as.map print) s) (hlen : s.length ≤ elements) (rest : List Char) :
    readElements close read elements (s ++ rest) = .ok (bs, rest) := by
  have hsteps : Steps (collect read) [] (as.map print) bs.reverse := by
    simpa using steps_collect h []
  exact readElements_of_foldElements
    (foldElements_laid hclose hsteps hlaid (hlaid.length_le.trans hlen) rfl)

theorem printTuple_cons_cons (indent : ℕ) (v v' : Value) (vs : List Value) :
    printTuple indent (v :: v' :: vs) =
      v.print indent ++ ',' :: ' ' :: printTuple indent (v' :: vs) := by
  rw [printTuple]
  simp

/-- A tuple is laid out on one line, without a comma after its last item. -/
theorem laid_printTuple (indent : ℕ) (vs : List Value) :
    Laid ')' (vs.map (Value.print indent)) (printTuple indent vs ++ [')']) := by
  induction vs with
  | nil => exact .nil blank_nil
  | cons v vs ih =>
    cases vs with
    | nil => exact .last blank_nil (v.print indent) (stops_cons (by decide) [])
    | cons v' vs =>
      have hrest : Laid ')' ((v' :: vs).map (Value.print indent))
          (' ' :: (printTuple indent (v' :: vs) ++ [')'])) :=
        ih.blank (by decide)
      rw [printTuple_cons_cons, List.append_assoc]
      exact .cons blank_nil (v.print indent) hrest

theorem restores_tuple {size : ℕ} (h : List.Forall₂ item.Restores vs ws)
    (hsize : ws.length = size) : (Shape.tuple size item).Restores (.tuple vs) (.tuple ws) := by
  intro elements depth indent hlen
  have hlaid := laid_printTuple indent vs
  rw [Value.print, List.length_cons] at hlen
  have hitems := forall₂_readsAs h elements (depth - 2) indent fun v hv => by
    have := hlaid.length_le_of_mem (List.mem_map_of_mem hv)
    omega
  rw [Value.print]
  refine ⟨⟨'(', _, rfl, by decide⟩, fun rest hrest => ?_⟩
  have hread := readElements_laid (by decide) hitems hlaid (Nat.le_of_succ_le hlen) rest
  rw [List.cons_append, Shape.read, hread]
  simp [hsize]

/-- What follows the opening bracket of a list or a map. -/
def linesOf (indent : ℕ) (close : Char) : List (List Char) → List Char
  | [] => [close]
  | text :: texts => '\n' :: printedElements indent close (text :: texts)

theorem laid_linesOf (indent : ℕ) (close : Char) (texts : List (List Char)) :
    Laid close texts (linesOf indent close texts) := by
  cases texts with
  | nil => exact .nil blank_nil
  | cons text texts =>
    exact (laid_printedElements indent close (text :: texts)).blank (by decide)

theorem printItems_eq (indent : ℕ) (vs : List Value) :
    printItems indent vs = vs.flatMap fun v => margin indent ++ v.print indent ++ elementEnd := by
  induction vs with
  | nil => rfl
  | cons v vs ih => simp [printItems, ih]

theorem print_list (indent : ℕ) (vs : List Value) :
    (Value.list vs).print indent =
      '[' :: linesOf indent ']' (vs.map (Value.print (indent + 1))) := by
  cases vs <;> simp [Value.print, linesOf, printedElements, printItems_eq, List.flatMap_map]

theorem restores_list (h : List.Forall₂ item.Restores vs ws) :
    (Shape.list item).Restores (.list vs) (.list ws) := by
  intro elements depth indent hlen
  have hlaid := laid_linesOf indent ']' (vs.map (Value.print (indent + 1)))
  rw [print_list, List.length_cons] at hlen
  rw [print_list]
  have hitems := forall₂_readsAs h elements (depth - 2) (indent + 1) fun v hv =>
    (hlaid.length_le_of_mem (List.mem_map_of_mem hv)).trans (Nat.le_of_succ_le hlen)
  refine ⟨⟨'[', _, rfl, by decide⟩, fun rest hrest => ?_⟩
  have hread := readElements_laid (by decide) hitems hlaid (Nat.le_of_succ_le hlen) rest
  rw [List.cons_append, Shape.read, hread]
  rfl

end Brackets

section Entries

variable {key value : Shape} {k k' v v' w : Value}

/-- What is printed after a key. -/
theorem readAfterColon_print {read : Reader Value} {text : List Char} (h : ReadsAs read text w)
    (hrest : Stops rest) : readAfterColon read (':' :: ' ' :: (text ++ rest)) = .ok (w, rest) := by
  have hmark : readMark ':' (':' :: ' ' :: (text ++ rest)) = some (text ++ rest) := by
    rw [readMark_cons (by decide), skipGap_blank (by decide), (h.opens.append rest).skipGap]
  rw [readAfterColon, lexeme, hmark]
  exact h.reads rest hrest

/-- The line of an entry, without margin and comma. -/
def entryText (indent : ℕ) (e : Value × Value) : List Char :=
  e.1.print indent ++ ':' :: ' ' :: e.2.print indent

/-- The reader of an entry of a map. -/
def readEntry (readKey readValue : Reader Value) : Reader (Value × Value) := fun s => do
  let (k, s) ← readKey s
  let (v, s) ← readAfterColon readValue s
  .ok ((k, v), s)

theorem read_map (elements depth : ℕ) (key value : Shape) (s : List Char) :
    (Shape.map key value).read elements depth ('\x7b' :: s) =
      (readElements '\x7d' (readEntry (key.read elements (depth - 2))
        (value.read elements (depth - 2))) elements s).map fun (es, s) => (.map es, s) := by
  rw [Shape.read]
  rfl

theorem readsAs_entry {readKey readValue : Reader Value}
    (hkey : ReadsAs readKey (k.print indent) k') (hvalue : ReadsAs readValue (v.print indent) v') :
    ReadsAs (readEntry readKey readValue) (entryText indent (k, v)) (k', v') where
  opens := hkey.opens.append _
  reads rest hrest := by
    have hk := hkey.reads (':' :: ' ' :: (v.print indent ++ rest)) (stops_cons (by decide) _)
    have hv := readAfterColon_print hvalue hrest
    rw [entryText, List.append_assoc, List.cons_append, List.cons_append, readEntry]
    simp [hk, hv, bind, Except.bind]

theorem printEntries_eq (indent : ℕ) (es : List (Value × Value)) :
    printEntries indent es =
      es.flatMap fun e => margin indent ++ entryText indent e ++ elementEnd := by
  induction es with
  | nil => rfl
  | cons e es ih => simp [printEntries, ih, entryText]

theorem print_map (indent : ℕ) (es : List (Value × Value)) :
    (Value.map es).print indent =
      '\x7b' :: linesOf indent '\x7d' (es.map (entryText (indent + 1))) := by
  cases es <;> simp [Value.print, linesOf, printedElements, printEntries_eq, entryText,
    List.flatMap_map]

theorem forall₂_readsAs_entry {es es' : List (Value × Value)}
    (h : List.Forall₂ (fun e e' => key.Restores e.1 e'.1 ∧ value.Restores e.2 e'.2) es es')
    (elements depth indent : ℕ) (hlen : ∀ e ∈ es, (entryText indent e).length ≤ elements) :
    List.Forall₂ (fun e e' => ReadsAs (readEntry (key.read elements depth)
      (value.read elements depth)) (entryText indent e) e') es es' := by
  induction h with
  | nil => exact .nil
  | @cons e e' es es' he hrest ih =>
    rw [List.forall_mem_cons] at hlen
    have hentry := hlen.1
    rw [entryText, List.length_append, List.length_cons, List.length_cons] at hentry
    exact .cons (readsAs_entry (he.1 _ _ _ (by omega)) (he.2 _ _ _ (by omega))) (ih hlen.2)

theorem restores_map {es es' : List (Value × Value)}
    (h : List.Forall₂ (fun e e' => key.Restores e.1 e'.1 ∧ value.Restores e.2 e'.2) es es') :
    (Shape.map key value).Restores (.map es) (.map es') := by
  intro elements depth indent hlen
  have hlaid := laid_linesOf indent '\x7d' (es.map (entryText (indent + 1)))
  rw [print_map, List.length_cons] at hlen
  rw [print_map]
  have hitems := forall₂_readsAs_entry h elements (depth - 2) (indent + 1) fun e he =>
    (hlaid.length_le_of_mem (List.mem_map_of_mem he)).trans (Nat.le_of_succ_le hlen)
  refine ⟨⟨'\x7b', _, rfl, by decide⟩, fun rest hrest => ?_⟩
  have hread := readElements_laid (by decide) hitems hlaid (Nat.le_of_succ_le hlen) rest
  rw [List.cons_append, read_map, hread]
  rfl

end Entries

section Records

variable {fields : Fields} {vs ws : List (String × Value)}

/-- Fields that are all written, in the order of the shape. -/
inductive Fields.Restores : Fields → List (String × Value) → List (String × Value) → Prop
  | nil : Fields.Restores .nil [] []
  | required {name : String} {shape : Shape} {others : Fields} {v w : Value}
    {vs ws : List (String × Value)} (h : shape.Restores v w)
    (hothers : Fields.Restores others vs ws) :
    Fields.Restores (.required name shape others) ((name, v) :: vs) ((name, w) :: ws)
  | optional {name : String} {shape : Shape} {absent : Value} {others : Fields} {v w : Value}
    {vs ws : List (String × Value)} (h : shape.Restores v w)
    (hothers : Fields.Restores others vs ws) :
    Fields.Restores (.optional name shape absent others) ((name, v) :: vs) ((name, w) :: ws)

/-- The names of the fields. -/
def Fields.names : Fields → List String
  | .nil => []
  | .required name _ others => name :: others.names
  | .optional name _ _ others => name :: others.names

theorem Fields.Restores.names (h : fields.Restores vs ws) :
    vs.map Prod.fst = fields.names ∧ ws.map Prod.fst = fields.names := by
  induction h with
  | nil => exact ⟨rfl, rfl⟩
  | required _ _ ih => simp [Fields.names, ih]
  | optional _ _ ih => simp [Fields.names, ih]

/-- The field `f` is read as `f'` by the reader of its name. -/
def Fields.ReadsField (fields : Fields) (elements depth : ℕ) (f f' : String × Value) : Prop :=
  f.1 = f'.1 ∧ ∃ shape : Shape, shape.Restores f.2 f'.2 ∧
    fields.reader? elements depth f.1 = some (shape.read elements depth)

/-- Every field is read by the reader of its name, also among more fields than these. -/
theorem Fields.Restores.readsField (h : fields.Restores vs ws) (hnames : (vs.map Prod.fst).Nodup)
    {elements depth : ℕ} {outer : Fields} (houter : ∀ f ∈ vs,
      outer.reader? elements depth f.1 = fields.reader? elements depth f.1) :
    List.Forall₂ (outer.ReadsField elements depth) vs ws := by
  induction h with
  | nil => exact .nil
  | @required name shape others v w vs ws h hothers ih =>
    rw [List.map_cons, List.nodup_cons] at hnames
    rw [List.forall_mem_cons] at houter
    refine .cons ⟨rfl, shape, h, houter.1.trans (by simp [Fields.reader?])⟩
      (ih hnames.2 fun f hf => ?_)
    have hne : name ≠ f.1 := by
      rintro rfl
      exact hnames.1 (List.mem_map.2 ⟨f, hf, rfl⟩)
    rw [houter.2 f hf, Fields.reader?, if_neg hne]
  | @optional name shape absent others v w vs ws h hothers ih =>
    rw [List.map_cons, List.nodup_cons] at hnames
    rw [List.forall_mem_cons] at houter
    refine .cons ⟨rfl, shape, h, houter.1.trans (by simp [Fields.reader?])⟩
      (ih hnames.2 fun f hf => ?_)
    have hne : name ≠ f.1 := by
      rintro rfl
      exact hnames.1 (List.mem_map.2 ⟨f, hf, rfl⟩)
    rw [houter.2 f hf, Fields.reader?, if_neg hne]

/-- The values of the fields are found under their names. -/
theorem Fields.Restores.collect (h : fields.Restores vs ws) {found : List (String × Value)}
    (hfound : ∀ f ∈ ws, found.lookup f.1 = some f.2) : fields.collect found = .ok ws := by
  induction h with
  | nil => rfl
  | required h hothers ih =>
    rw [List.forall_mem_cons] at hfound
    rw [Fields.collect, hfound.1]
    simp [ih hfound.2, Except.map]
  | optional h hothers ih =>
    rw [List.forall_mem_cons] at hfound
    rw [Fields.collect, hfound.1, ih hfound.2]
    rfl

/-- The line of a field, without margin and comma. -/
def fieldText (indent : ℕ) (f : String × Value) : List Char :=
  f.1.toList ++ ':' :: ' ' :: f.2.print indent

theorem printFields_eq (indent : ℕ) (vs : List (String × Value)) :
    printFields indent vs =
      vs.flatMap fun f => margin indent ++ fieldText indent f ++ elementEnd := by
  induction vs with
  | nil => rfl
  | cons f vs ih => simp [printFields, ih, fieldText]

theorem print_record (indent : ℕ) (name : String) (vs : List (String × Value)) :
    (Value.record name vs).print indent = name.toList ++ '(' :: '\n' ::
      printedElements indent ')' (vs.map (fieldText (indent + 1))) := by
  simp [Value.print, printedElements, printFields_eq, List.flatMap_map]

/-- The reader of a field of a record: one that is known is read and added to those found, any other
is passed over. -/
def readField (fields : Fields) (elements depth : ℕ) (found : List (String × Value)) :
    Reader (List (String × Value)) := fun s => do
  let (key, s) ← lexeme readName s
  match fields.reader? elements depth key with
  | none =>
    let (_, s) ← readAfterColon (skipValue elements depth) s
    .ok (found, s)
  | some read =>
    if (found.lookup key).isSome then .error (.duplicateField key)
    else do
      let (v, s) ← readAfterColon read s
      .ok ((key, v) :: found, s)

theorem read_record (elements depth : ℕ) (name : String) (fields : Fields) (s : List Char) :
    (Shape.record name fields).read elements depth s = (do
      let (_, s) ← readTypeName name s
      let s ← lexeme (readMark '(') s
      let (found, s) ← foldElements ')' (readField fields elements (depth - 2)) elements [] s
      let values ← fields.collect found
      .ok (.record name values, s)) := by
  rw [Shape.read]
  rfl

theorem readsAs_field {elements depth : ℕ} {f f' : String × Value} {found : List (String × Value)}
    (h : fields.ReadsField elements depth f f') (hname : isPlainName f.1 = true)
    (hfound : found.lookup f.1 = none) (hlen : (fieldText indent f).length ≤ elements) :
    ReadsAs (readField fields elements depth found) (fieldText indent f) (f' :: found) where
  opens := opens_of_isPlainName hname _
  reads rest hrest := by
    obtain ⟨hsame, shape, hshape, hreader⟩ := h
    have hvalue := hshape elements depth indent (by
      simp only [fieldText, List.length_append, List.length_cons] at hlen
      omega)
    have hkey := readName_append hname
      (stops_cons (c := ':') (by decide) (' ' :: (f.2.print indent ++ rest)))
    rw [fieldText, List.append_assoc, List.cons_append, List.cons_append, readField]
    simp only [lexeme, hkey, hreader, hfound, readAfterColon_print hvalue hrest, bind, Except.bind,
      Option.isSome_none, Bool.false_eq_true, if_false]
    rw [hsame]

/-- Fields of different names are read one after the other. -/
theorem steps_fields {elements depth : ℕ}
    (h : List.Forall₂ (fields.ReadsField elements depth) vs ws)
    (hplain : ∀ f ∈ vs, isPlainName f.1 = true) (hnames : (vs.map Prod.fst).Nodup)
    (hlen : ∀ f ∈ vs, (fieldText indent f).length ≤ elements) {found : List (String × Value)}
    (hfound : ∀ f ∈ vs, found.lookup f.1 = none) :
    Steps (readField fields elements depth) found (vs.map (fieldText indent))
      (ws.reverse ++ found) := by
  induction h generalizing found with
  | nil => exact .nil _
  | @cons f f' vs ws hf hrest ih =>
    rw [List.map_cons, List.nodup_cons] at hnames
    rw [List.forall_mem_cons] at hplain hlen hfound
    rw [List.map_cons, List.reverse_cons, List.append_assoc]
    refine .cons (readsAs_field hf hplain.1 hfound.1 hlen.1)
      (ih hplain.2 hnames.2 hlen.2 fun g hg => ?_)
    have hne : g.1 ≠ f'.1 := fun e => hnames.1 (by rw [hf.1, ← e]; exact List.mem_map_of_mem hg)
    rw [List.lookup_cons, hfound.2 g hg, beq_false_of_ne hne]

/-- Where the name of a type is written or left out, the bracket after it is reached. -/
theorem exists_readTypeName {name written : String} (hname : isPlainName name = true)
    (hwritten : written ∈ [name, ""]) (s : List Char) :
    ∃ b, readTypeName name (written.toList ++ '(' :: s) = .ok (b, '(' :: s) := by
  rcases List.mem_cons.1 hwritten with rfl | hwritten
  · exact ⟨true, readTypeName_append hname (stops_cons (by decide) s)⟩
  · obtain rfl := List.mem_singleton.1 hwritten
    have hbracket : isNameChar '(' = false := by decide
    exact ⟨false, by simp [readTypeName, hbracket]⟩

/-- A record is read from any of its fields, in any order and however they are laid out, when the
fields that are found determine all of them. -/
theorem read_record_laid {us : List (String × Value)} (depth : ℕ) {s : List Char}
    {name written : String} (hname : isPlainName name = true) (hwritten : written ∈ [name, ""])
    (hplain : ∀ f ∈ vs, isPlainName f.1 = true) (hnames : (vs.map Prod.fst).Nodup)
    (hreads : List.Forall₂ (fields.ReadsField elements (depth - 2)) vs ws)
    (hcollect : fields.collect ws.reverse = .ok us)
    (hlaid : Laid ')' (vs.map (fieldText indent)) s) (hlen : s.length ≤ elements)
    (rest : List Char) :
    (Shape.record name fields).read elements depth (written.toList ++ '(' :: (s ++ rest)) =
      .ok (.record name us, rest) := by
  have hclose : isClosing ')' = true := by decide
  have hline : ∀ f ∈ vs, (fieldText indent f).length ≤ elements := fun f hf =>
    (hlaid.length_le_of_mem (List.mem_map_of_mem hf)).trans hlen
  have hsteps : Steps (readField fields elements (depth - 2)) [] (vs.map (fieldText indent))
      ws.reverse := by
    rw [← List.append_nil ws.reverse]
    exact steps_fields hreads hplain hnames hline (by simp)
  obtain ⟨t, ht, hidem⟩ := hsteps.exists_skipGap hlaid hclose rest
  have hfold := foldElements_laid hclose hsteps hlaid (hlaid.length_le.trans hlen)
    (hidem.trans ht.symm)
  obtain ⟨b, htype⟩ := exists_readTypeName hname hwritten (s ++ rest)
  have hmark : readMark '(' ('(' :: (s ++ rest)) = some t := by
    rw [readMark_cons (by decide), ht]
  rw [read_record]
  simp [htype, lexeme, hmark, hfold, hcollect, bind, Except.bind]

theorem restores_record {name : String} (hname : isPlainName name = true)
    (hplain : ∀ name ∈ fields.names, isPlainName name = true) (hdistinct : fields.names.Nodup)
    (h : fields.Restores vs ws) :
    (Shape.record name fields).Restores (.record name vs) (.record name ws) := by
  have hnames := h.names.1.symm ▸ hdistinct
  have hplain : ∀ f ∈ vs, isPlainName f.1 = true := fun f hf =>
    hplain f.1 (h.names.1 ▸ List.mem_map_of_mem hf)
  have hkeys : (ws.reverse.map Prod.fst).Nodup := by
    rwa [List.map_reverse, List.nodup_reverse, h.names.2]
  have hcollect : fields.collect ws.reverse = .ok ws := h.collect fun f hf =>
    (OrderedMap.lookup_eq_some_iff hkeys).2 (List.mem_reverse.2 hf)
  intro elements depth indent hlen
  have hlaid : Laid ')' (vs.map (fieldText (indent + 1)))
      ('\n' :: printedElements indent ')' (vs.map (fieldText (indent + 1)))) :=
    (laid_printedElements indent ')' _).blank (by decide)
  rw [print_record, List.length_append, List.length_cons] at hlen
  rw [print_record]
  refine ⟨opens_of_isPlainName hname _, fun rest hrest => ?_⟩
  have hreads : List.Forall₂ (fields.ReadsField elements (depth - 2)) vs ws :=
    h.readsField hnames fun _ _ => rfl
  rw [List.append_assoc, List.cons_append]
  exact read_record_laid depth hname (by simp) hplain hnames hreads hcollect hlaid (by omega) rest

end Records

section Documents

variable {shape : Shape} {v w : Value}

/-- A text that begins with a value and is read to its end is a document. -/
theorem readDocument_ofList {text : List Char} (hopens : Opens text)
    (h : shape.read text.length maxDepth text = .ok (w, [])) :
    readDocument shape (String.ofList text) = .ok w := by
  have hend : skipGap [] = some [] := rfl
  simp [readDocument, lexeme, hopens.skipGap, h, hend, bind, Except.bind]

theorem readDocument_document (h : shape.Restores v w) : readDocument shape v.document = .ok w := by
  have hread := h (v.print 0).length maxDepth 0 le_rfl
  have hvalue := hread.reads [] stops_nil
  rw [List.append_nil] at hvalue
  exact readDocument_ofList hread.opens hvalue

end Documents

end ShaderGraph.Document
