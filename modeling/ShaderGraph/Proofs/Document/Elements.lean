import ShaderGraph.Document.Elements
import ShaderGraph.Proofs.Document.Lexeme

/-!
# Elements are read, however they are laid out

Between brackets the elements are kept apart by commas, with blanks before each of them. `Laid` says
that a text lays its elements out like this, on one line or on many; `Steps` that the elements are
read one after the other, the state passing through. `foldElements_laid` puts them together: all of
the elements are read, and the bracket after them. Elements printed on lines of their own are one
such layout.
-/

namespace ShaderGraph.Document

variable {σ : Type} {close c : Char} {indent : ℕ} {rest : List Char}

section Opening

/-- A character that a value or a name can begin with. -/
def isOpening (c : Char) : Bool := isSolid c && !([')', ']', '\x7d', ','].contains c)

/-- The text begins with a value or a name. -/
def Opens (text : List Char) : Prop := ∃ c w, text = c :: w ∧ isOpening c = true

theorem Opens.append {text : List Char} (h : Opens text) (s : List Char) : Opens (text ++ s) := by
  obtain ⟨c, w, rfl, hc⟩ := h
  exact ⟨c, w ++ s, rfl, hc⟩

theorem Opens.skipGap {text : List Char} (h : Opens text) : skipGap text = some text := by
  obtain ⟨c, w, rfl, hc⟩ := h
  rw [isOpening, Bool.and_eq_true] at hc
  exact skipGap_cons hc.1 w

theorem readMark_opens {mark : Char} (hmark : isSolid mark = true) {text : List Char}
    (h : Opens text) : readMark mark (mark :: text) = some text := by
  rw [readMark_cons hmark, h.skipGap]

/-- A bracket that closes a list, a map, a tuple or a record. -/
def isClosing (c : Char) : Bool := [')', ']', '\x7d'].contains c

theorem isSolid_of_isClosing (h : isClosing close = true) : isSolid close = true := by
  simp only [isClosing, List.contains_eq_mem, List.mem_cons, List.not_mem_nil, or_false,
    decide_eq_true_eq] at h
  obtain rfl | rfl | rfl := h <;> decide

theorem ne_of_isOpening (hopen : isOpening c = true) (hclose : isClosing close = true) :
    c ≠ close := by
  rintro rfl
  rw [isOpening, Bool.and_eq_true] at hopen
  simp only [isClosing, List.contains_eq_mem, List.mem_cons, List.not_mem_nil, or_false,
    decide_eq_true_eq] at hclose
  obtain rfl | rfl | rfl := hclose <;> exact absurd hopen.2 (by decide)

end Opening

section Layouts

/-- White space, without comments. -/
def Blank (gap : List Char) : Prop := ∀ c ∈ gap, isBlank c = true

theorem Blank.skipGap {gap : List Char} (h : Blank gap) (s : List Char) :
    skipGap (gap ++ s) = skipGap s := by
  induction gap with
  | nil => rfl
  | cons c gap ih =>
    have hcons := List.forall_mem_cons.1 h
    rw [List.cons_append, skipGap_blank hcons.1, ih hcons.2]

theorem blank_nil : Blank [] := fun _ hc => absurd hc List.not_mem_nil

theorem Blank.cons {gap : List Char} (hc : isBlank c = true) (h : Blank gap) : Blank (c :: gap) :=
  List.forall_mem_cons.2 ⟨hc, h⟩

theorem blank_margin (depth : ℕ) : Blank (margin depth) := by
  intro c hc
  rw [List.eq_of_mem_replicate hc]
  decide

/-- The texts with blanks before each of them, a comma after each of them and the bracket at the
end. Before a bracket that may follow a lexeme the last comma can be left out. -/
inductive Laid (close : Char) : List (List Char) → List Char → Prop
  | nil {gap : List Char} (hgap : Blank gap) : Laid close [] (gap ++ [close])
  | last {gap : List Char} (hgap : Blank gap) (text : List Char) (hstops : Stops [close]) :
    Laid close [text] (gap ++ (text ++ [close]))
  | cons {gap s : List Char} {texts : List (List Char)} (hgap : Blank gap) (text : List Char)
    (hrest : Laid close texts s) : Laid close (text :: texts) (gap ++ (text ++ ',' :: s))

variable {texts : List (List Char)} {s : List Char}

/-- With one more blank at the start the same texts are laid out. -/
theorem Laid.blank (hc : isBlank c = true) (h : Laid close texts s) :
    Laid close texts (c :: s) := by
  cases h with
  | nil hgap => exact .nil (hgap.cons hc)
  | last hgap text hstops => exact .last (hgap.cons hc) text hstops
  | cons hgap text hrest => exact .cons (hgap.cons hc) text hrest

theorem Laid.length_le (h : Laid close texts s) : texts.length ≤ s.length := by
  induction h with
  | nil => exact Nat.zero_le _
  | last => simp only [List.length_append, List.length_cons, List.length_nil]; omega
  | cons _ _ _ ih => simp only [List.length_append, List.length_cons]; omega

theorem Laid.length_le_of_mem (h : Laid close texts s) {text : List Char} (hmem : text ∈ texts) :
    text.length ≤ s.length := by
  induction h with
  | nil => cases hmem
  | last _ text' =>
    obtain rfl := List.mem_singleton.1 hmem
    simp only [List.length_append]
    omega
  | cons _ text' _ ih =>
    simp only [List.length_append, List.length_cons]
    rcases List.mem_cons.1 hmem with rfl | hmem
    · omega
    · have := ih hmem
      omega

/-- Elements on lines of their own, and the bracket after them. -/
def printedElements (indent : ℕ) (close : Char) (texts : List (List Char)) : List Char :=
  texts.flatMap (fun text => margin (indent + 1) ++ text ++ elementEnd) ++ margin indent ++ [close]

theorem laid_printedElements (indent : ℕ) (close : Char) (texts : List (List Char)) :
    Laid close texts (printedElements indent close texts) := by
  induction texts with
  | nil => exact .nil (blank_margin indent)
  | cons text texts ih =>
    have hline : Laid close texts ('\n' :: printedElements indent close texts) :=
      ih.blank (by decide)
    have hlaid := Laid.cons (blank_margin (indent + 1)) text hline
    simpa [printedElements, elementEnd] using hlaid

end Layouts

section Reading

/-- The reader reads the text, whatever comes after it. -/
structure ReadsAs {α : Type} (read : Reader α) (text : List Char) (a : α) : Prop where
  opens : Opens text
  reads : ∀ rest, Stops rest → read (text ++ rest) = .ok (a, rest)

/-- The texts are elements that are read one after the other, with the state passing through. -/
inductive Steps (element : σ → Reader σ) : σ → List (List Char) → σ → Prop
  | nil (a : σ) : Steps element a [] a
  | cons {a b d : σ} {text : List Char} {texts : List (List Char)}
    (hread : ReadsAs (element a) text b) (hrest : Steps element b texts d) :
    Steps element a (text :: texts) d

variable {element : σ → Reader σ} {a b : σ} {texts : List (List Char)} {s : List Char}

theorem foldElements_close {s : List Char} (hs : skipGap s = some (close :: rest)) (fuel : ℕ) :
    foldElements close element fuel a s = .ok (a, rest) := by
  cases fuel <;> simp [foldElements, hs]

/-- An element that is read, with what the comma after it leaves. -/
theorem foldElements_cons (hclose : isClosing close = true) {s t u text : List Char}
    (hopens : Opens text) (hs : skipGap s = some (text ++ t))
    (hread : element a (text ++ t) = .ok (b, t))
    (hcomma : readComma t = some (true, u)) (fuel : ℕ) :
    foldElements close element (fuel + 1) a s = foldElements close element fuel b u := by
  obtain ⟨c, w, rfl, hc⟩ := hopens
  rw [List.cons_append] at hs hread
  conv_lhs => unfold foldElements
  simp only [hs, if_neg (ne_of_isOpening hc hclose), hread, hcomma]

/-- An element that is read, with the bracket right after it. -/
theorem foldElements_last (hclose : isClosing close = true) {s t u text : List Char}
    (hopens : Opens text) (hs : skipGap s = some (text ++ t))
    (hread : element a (text ++ t) = .ok (b, t))
    (hcomma : readComma t = some (false, close :: u)) (fuel : ℕ) :
    foldElements close element (fuel + 1) a s = .ok (b, u) := by
  obtain ⟨c, w, rfl, hc⟩ := hopens
  rw [List.cons_append] at hs hread
  unfold foldElements
  simp only [hs, if_neg (ne_of_isOpening hc hclose), hread, hcomma, if_true]

theorem ne_comma_of_isClosing (hclose : isClosing close = true) : close ≠ ',' := by
  rintro rfl
  exact absurd hclose (by decide)

theorem skipGap_laid_nil {gap : List Char} (hgap : Blank gap) (hclose : isClosing close = true)
    (rest : List Char) : skipGap (gap ++ [close] ++ rest) = some (close :: rest) := by
  rw [List.append_assoc, hgap.skipGap]
  exact skipGap_cons (isSolid_of_isClosing hclose) rest

theorem skipGap_laid_cons {gap text : List Char} (hgap : Blank gap) (hopens : Opens text)
    (t rest : List Char) :
    skipGap (gap ++ (text ++ t) ++ rest) = some (text ++ (t ++ rest)) := by
  rw [List.append_assoc, hgap.skipGap, List.append_assoc]
  exact (hopens.append _).skipGap

/-- After the gap before the elements there is no other. -/
theorem Steps.exists_skipGap (h : Steps element a texts b) (hlaid : Laid close texts s)
    (hclose : isClosing close = true) (rest : List Char) :
    ∃ t, skipGap (s ++ rest) = some t ∧ skipGap t = some t := by
  cases hlaid with
  | nil hgap =>
    exact ⟨_, skipGap_laid_nil hgap hclose rest, skipGap_cons (isSolid_of_isClosing hclose) rest⟩
  | last hgap text _ =>
    cases h with
    | cons hread _ =>
      exact ⟨_, skipGap_laid_cons hgap hread.opens _ rest, (hread.opens.append _).skipGap⟩
  | cons hgap text _ =>
    cases h with
    | cons hread _ =>
      exact ⟨_, skipGap_laid_cons hgap hread.opens _ rest, (hread.opens.append _).skipGap⟩

/-- Elements are read however they are laid out; only what follows the gap at the start counts. -/
theorem foldElements_laid (hclose : isClosing close = true) (h : Steps element a texts b)
    (hlaid : Laid close texts s) {fuel : ℕ} (hfuel : texts.length ≤ fuel) {t : List Char}
    (ht : skipGap t = skipGap (s ++ rest)) :
    foldElements close element fuel a t = .ok (b, rest) := by
  induction hlaid generalizing a fuel t with
  | nil hgap =>
    cases h
    exact foldElements_close (ht.trans (skipGap_laid_nil hgap hclose rest)) fuel
  | last hgap text hstops =>
    cases h with
    | cons hread hrest =>
      cases hrest
      obtain ⟨n, rfl⟩ := Nat.exists_eq_succ_of_ne_zero (Nat.pos_iff_ne_zero.1 hfuel)
      have hgap := ht.trans (skipGap_laid_cons hgap hread.opens [close] rest)
      have hstops : Stops (close :: rest) := stops_cons (hstops close (by simp)) rest
      have hcomma : readComma (close :: rest) = some (false, close :: rest) :=
        readComma_cons (isSolid_of_isClosing hclose) (ne_comma_of_isClosing hclose) rest
      exact foldElements_last hclose hread.opens hgap (hread.reads _ hstops) hcomma n
  | @cons gap s texts hgap text hlaid ih =>
    cases h with
    | @cons _ b' _ _ _ hread hrest =>
      obtain ⟨n, rfl⟩ : ∃ n, fuel = n + 1 := ⟨fuel - 1, by simp at hfuel; omega⟩
      obtain ⟨u, hu, hidem⟩ := hrest.exists_skipGap hlaid hclose rest
      have hgap := ht.trans (skipGap_laid_cons hgap hread.opens (',' :: s) rest)
      have htext := hread.reads (',' :: (s ++ rest)) (stops_cons (by decide) _)
      have hcomma : readComma (',' :: (s ++ rest)) = some (true, u) := by
        rw [readComma_comma, hu, Option.map_some]
      rw [foldElements_cons hclose hread.opens hgap htext hcomma]
      exact ih hrest (by simpa using hfuel) (hidem.trans hu.symm)

end Reading

end ShaderGraph.Document
