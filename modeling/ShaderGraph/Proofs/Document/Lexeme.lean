import Mathlib.Data.List.TakeDrop
import ShaderGraph.Document.Lexeme
import ShaderGraph.Document.Value
import ShaderGraph.Proofs.Binary32.Shortest
import ShaderGraph.Proofs.Hexadecimal

/-!
# Written lexemes are read back

Each lexeme that a document is written with is read back, whatever comes after it. A name or a
number would go on with the characters after it, so these have to begin with a mark (`Stops`).

* `skipGap_cons`, `skipGap_blank` : gaps between lexemes;
* `readName_append` : names;
* `readText_quoted` : texts, whatever characters they hold;
* `readNatural_toDigits` : natural numbers;
* `readNumber_numberText` : numbers, all that are none as the same one (`Binary32.canonical`);
* `decimal?_text` : finite numbers as shaders hold them, without a fraction if they are whole.
-/

namespace ShaderGraph.Document

variable {c : Char} {w rest : List Char}

section Gaps

/-- A character that no gap begins with. -/
def isSolid (c : Char) : Bool := !isBlank c && c != '/'

theorem skipGap_cons (hc : isSolid c = true) (s : List Char) :
    skipGap (c :: s) = some (c :: s) := by
  simp only [isSolid, Bool.and_eq_true, Bool.not_eq_true', bne_iff_ne, ne_eq] at hc
  simp [skipGap, skipGapFrom, hc.1, hc.2]

theorem skipGap_blank (hc : isBlank c = true) (s : List Char) : skipGap (c :: s) = skipGap s := by
  have hslash : c ≠ '/' := by
    rintro rfl
    revert hc
    decide
  simp [skipGap, skipGapFrom, hc, hslash]

/-- A mark and the gap after it. -/
theorem readMark_cons (hc : isSolid c = true) (s : List Char) :
    readMark c (c :: s) = skipGap s := by
  rw [readMark, skipGap_cons hc]
  simp

theorem readComma_comma (s : List Char) :
    readComma (',' :: s) = (skipGap s).map fun s => (true, s) := by
  rw [readComma, skipGap_cons (by decide)]
  simp

theorem readComma_cons (hc : isSolid c = true) (hcomma : c ≠ ',') (s : List Char) :
    readComma (c :: s) = some (false, c :: s) := by
  rw [readComma, skipGap_cons hc]
  simp [hcomma]

end Gaps

section Stops

/-- What comes after a lexeme begins with a mark, if anything comes. -/
def Stops (rest : List Char) : Prop := ∀ c ∈ rest.head?, c ∈ [',', ')', ':', '(']

theorem stops_nil : Stops [] := by simp [Stops]

theorem stops_cons (hc : c ∈ [',', ')', ':', '(']) (s : List Char) : Stops (c :: s) := by
  intro d hd
  obtain rfl : c = d := by simpa using hd
  exact hc

/-- A class of characters without marks ends where the lexeme ends. -/
theorem Stops.head?_any (h : Stops rest) {p : Char → Bool}
    (hp : [',', ')', ':', '('].any p = false) : rest.head?.any p = false := by
  cases hhead : rest.head? with
  | none => rfl
  | some c => exact Bool.eq_false_iff.2 (List.any_eq_false.1 hp c (h c (by simp [hhead])))

theorem span_append {p : Char → Bool} (hw : ∀ c ∈ w, p c = true)
    (hrest : rest.head?.any p = false) :
    (w ++ rest).span p = (w, rest) := by
  rw [List.span_eq_takeWhile_dropWhile, List.takeWhile_append_of_pos hw,
    List.dropWhile_append_of_pos hw]
  cases rest with
  | nil => simp
  | cons c rest =>
    have hc : p c = false := by simpa using hrest
    simp [hc]

end Stops

section Names

/-- A name that begins with a letter of ASCII, is written without a mark and cannot be taken for the
start of a text. -/
def isPlainName (name : String) : Bool :=
  name.toList.head?.any (fun c => c.isAlpha && c != 'r' && c != 'b') &&
    name.toList.all isNameChar

variable {name word : String}

theorem exists_of_isPlainName (h : isPlainName name = true) :
    ∃ c w, name.toList = c :: w ∧ c.isAlpha = true ∧ c ≠ 'r' ∧ c ≠ 'b' ∧
      ∀ d ∈ c :: w, isNameChar d = true := by
  rw [isPlainName, Bool.and_eq_true, List.all_eq_true] at h
  obtain ⟨hhead, hall⟩ := h
  cases hname : name.toList with
  | nil => simp [hname] at hhead
  | cons c w =>
    rw [hname] at hhead hall
    simp only [List.head?_cons, Option.any_some, Bool.and_eq_true, bne_iff_ne, ne_eq] at hhead
    exact ⟨c, w, rfl, hhead.1.1, hhead.1.2, hhead.2, hall⟩

theorem isNameStart_of_isAlpha (h : c.isAlpha = true) : isNameStart c = true := by
  have hlt : c.toNat < 0x80 := by
    delta Char.isAlpha Char.isUpper Char.isLower at h
    simp only [ge_iff_le, Bool.or_eq_true, Bool.and_eq_true, decide_eq_true_eq,
      UInt32.le_iff_toNat_le] at h
    have hnat : c.val.toNat = c.toNat := rfl
    have hzed : ('Z'.val.toNat = 90) ∧ ('z'.val.toNat = 122) := ⟨rfl, rfl⟩
    omega
  simp [isNameStart, hlt, h]

theorem readName_append (h : isPlainName name = true) (hrest : Stops rest) :
    readName (name.toList ++ rest) = some (name, rest) := by
  obtain ⟨c, w, hname, hletter, hr, hb, hall⟩ := exists_of_isPlainName h
  have hstart := isNameStart_of_isAlpha hletter
  have hspan := span_append (p := isNameChar) hall (hrest.head?_any (by decide))
  have hend : rest.head?.any isRawNameChar = false := hrest.head?_any (by decide)
  have htext : startsText (c :: (w ++ rest)) = false := by simp [startsText, hr, hb]
  have hback : String.ofList (c :: w) = name := by rw [← hname, String.ofList_toList]
  rw [List.cons_append] at hspan
  rw [hname, List.cons_append, readName]
  · simp only [htext, List.head?_cons, Option.any_some, hstart, Bool.not_true, Bool.or_false,
      Bool.false_eq_true, if_false, hspan, hend, hback]
  · intro s hs
    exact hr (List.cons.inj hs).1

theorem readWord_append (hrest : Stops rest) : readWord word (word.toList ++ rest) = some rest := by
  have hend : rest.head?.any isNameChar = false := hrest.head?_any (by decide)
  simp [readWord, hend]

/-- A word that does not stand here is not read. -/
theorem readWord_eq_none (h : ¬ word.toList <+: w) : readWord word w = none := by
  rw [readWord]
  simp only [ite_eq_right_iff, reduceCtorEq, imp_false, not_and]
  intro htake
  exact absurd (htake ▸ List.take_prefix _ _) h

variable {α : Type} {a : α} {words : List (String × α)}

theorem readOneOf_here (hrest : Stops rest) :
    readOneOf ((word, a) :: words) (word.toList ++ rest) = some (a, rest) := by
  rw [readOneOf, List.findSome?_cons]
  simp only [readWord_append hrest, Option.map_some]

theorem readOneOf_skip (h : ¬ word.toList <+: w) :
    readOneOf ((word, a) :: words) w = readOneOf words w := by
  rw [readOneOf, List.findSome?_cons]
  simp only [readWord_eq_none h, Option.map_none]
  rfl

end Names

section Texts

theorem splitQuoted_plain (hw : ∀ c ∈ w, c ≠ '"' ∧ c ≠ '\\') (s : List Char) :
    splitQuoted (w ++ s) = (splitQuoted s).map fun (cs, rest) => (w ++ cs, rest) := by
  induction w with
  | nil => simp
  | cons c w ih =>
    obtain ⟨⟨hquote, hbackslash⟩, hw⟩ := List.forall_mem_cons.1 hw
    rw [List.cons_append, splitQuoted, ih hw, Option.map_map]
    · rfl
    · simp [hquote]
    · simp [hbackslash]

theorem hexDigits_plain (n : ℕ) : ∀ c ∈ Nat.toDigits 16 n, c ≠ '"' ∧ c ≠ '\\' ∧ c ≠ '\x7d' := by
  have hdigit : ∀ d < 16, d.digitChar ≠ '"' ∧ d.digitChar ≠ '\\' ∧ d.digitChar ≠ '\x7d' := by decide
  induction n using Nat.strongRecOn with
  | ind n ih =>
    rw [Nat.toDigits_eq_if (by decide)]
    split_ifs with hn
    · simp [hdigit n hn]
    · intro c hc
      rw [List.mem_append, List.mem_singleton] at hc
      obtain hc | rfl := hc
      · exact ih _ (Nat.div_lt_self (by omega) (by decide)) c hc
      · exact hdigit _ (Nat.mod_lt n (by decide))

/-- The ways a character is written inside quotes: after a backslash, by its code, or as it is. -/
theorem escaped_cases (c : Char) :
    (∃ e, escaped c = ['\\', e] ∧ ∀ s, readEscape .text (e :: s) = some (c, s)) ∨
      (c.toNat < 0xa0 ∧
        escaped c = '\\' :: 'u' :: '\x7b' :: (Nat.toDigits 16 c.toNat ++ ['\x7d'])) ∨
      (escaped c = [c] ∧ c ≠ '"' ∧ c ≠ '\\') := by
  unfold escaped
  by_cases hzero : c = '\x00'
  · exact .inl ⟨'0', by rw [if_pos hzero], fun s => by rw [hzero]; rfl⟩
  rw [if_neg hzero]
  by_cases htab : c = '\t'
  · exact .inl ⟨'t', by rw [if_pos htab], fun s => by rw [htab]; rfl⟩
  rw [if_neg htab]
  by_cases hline : c = '\n'
  · exact .inl ⟨'n', by rw [if_pos hline], fun s => by rw [hline]; rfl⟩
  rw [if_neg hline]
  by_cases hreturn : c = '\r'
  · exact .inl ⟨'r', by rw [if_pos hreturn], fun s => by rw [hreturn]; rfl⟩
  rw [if_neg hreturn]
  by_cases hquote : c = '\'' ∨ c = '"' ∨ c = '\\'
  · refine .inl ⟨c, by rw [if_pos hquote], fun s => ?_⟩
    obtain rfl | rfl | rfl := hquote <;> rfl
  rw [if_neg hquote]
  simp only [not_or] at hquote
  split_ifs with hcontrol
  · exact .inr (.inl ⟨by omega, rfl⟩)
  · exact .inr (.inr ⟨rfl, hquote.2⟩)

theorem splitQuoted_escaped (c : Char) (s : List Char) :
    splitQuoted (escaped c ++ s) =
      (splitQuoted s).map fun (cs, rest) => (escaped c ++ cs, rest) := by
  obtain ⟨e, he, -⟩ | ⟨-, he⟩ | ⟨he, hquote, hbackslash⟩ := escaped_cases c
  · rw [he]
    rfl
  · have hplain : ∀ d ∈ '\x7b' :: (Nat.toDigits 16 c.toNat ++ ['\x7d']), d ≠ '"' ∧ d ≠ '\\' := by
      intro d hd
      rw [List.mem_cons, List.mem_append, List.mem_singleton] at hd
      obtain rfl | hd | rfl := hd
      · decide
      · exact ⟨(hexDigits_plain _ d hd).1, (hexDigits_plain _ d hd).2.1⟩
      · decide
    have hsplit := splitQuoted_plain hplain s
    rw [he]
    rw [List.cons_append, List.cons_append, splitQuoted, hsplit, Option.map_map]
    rfl
  · rw [he]
    exact splitQuoted_plain (by simp [hquote, hbackslash]) s

theorem splitQuoted_flatMap_escaped (cs rest : List Char) :
    splitQuoted (cs.flatMap escaped ++ '"' :: rest) = some (cs.flatMap escaped, rest) := by
  induction cs with
  | nil => rfl
  | cons c cs ih =>
    rw [List.flatMap_cons, List.append_assoc, splitQuoted_escaped, ih]
    rfl

/-- An escape by code stands for the character of this code. -/
theorem readCode_toDigits (hc : c.toNat < 0xa0) (s : List Char) :
    readCode (Nat.toDigits 16 c.toNat ++ '\x7d' :: s) = some (c, s) := by
  have hdigits : ∀ d ∈ Nat.toDigits 16 c.toNat, (decide (d ≠ '\x7d')) = true := fun d hd =>
    decide_eq_true (hexDigits_plain _ d hd).2.2
  have hlen : (Nat.toDigits 16 c.toNat).length ≤ 6 := by
    rw [Nat.length_toDigits_le_iff (by decide) (by decide)]
    omega
  have hvalid : charOfCode? 0 c.toNat = some c := by
    have hc : c.toNat.isValidChar := c.valid
    simp [charOfCode?, hc]
  have hne : Nat.toDigits 16 c.toNat ≠ [] := Nat.toDigits_ne_nil
  unfold readCode
  rw [List.takeWhile_append_of_pos hdigits, List.dropWhile_append_of_pos hdigits]
  simp [hexNumber?_toDigits, hvalid, hne, hlen]

theorem unescape_escaped (c : Char) (s : List Char) :
    unescape .text (escaped c ++ s) = (unescape .text s).map (c :: ·) := by
  obtain ⟨e, he, hread⟩ | ⟨hcode, he⟩ | ⟨he, -, hbackslash⟩ := escaped_cases c
  · rw [he, List.cons_append, List.cons_append, List.nil_append, unescape, if_pos rfl]
    split
    · simp_all
    · simp_all
  · have hread : readEscape .text ('u' :: '\x7b' :: (Nat.toDigits 16 c.toNat ++ '\x7d' :: s)) =
        some (c, s) := readCode_toDigits hcode s
    rw [he, List.cons_append, List.cons_append, List.cons_append, List.append_assoc,
      List.singleton_append, unescape, if_pos rfl]
    split
    · simp_all
    · simp_all
  · rw [he, List.cons_append, List.nil_append, unescape, if_neg hbackslash]

theorem unescape_flatMap_escaped (cs : List Char) :
    unescape .text (cs.flatMap escaped) = some cs := by
  induction cs with
  | nil => rw [List.flatMap_nil, unescape]
  | cons c cs ih => rw [List.flatMap_cons, unescape_escaped, ih, Option.map_some]

theorem readText_quoted (s : String) (rest : List Char) :
    readText (quoted s ++ rest) = some (s, rest) := by
  have hsplit := splitQuoted_flatMap_escaped s.toList rest
  have hquoted : quoted s ++ rest = '"' :: (s.toList.flatMap escaped ++ '"' :: rest) := by
    simp [quoted]
  have hread : readQuoted .text (s.toList.flatMap escaped ++ '"' :: rest) =
      some (s.toList, rest) := by
    rw [readQuoted, hsplit, Option.bind_some]
    dsimp only
    rw [unescape_flatMap_escaped, Option.map_some]
  rw [hquoted, readText, hread]
  simp

end Texts

section Digits

/-- What holds of the ten digits holds of every character that is one of them. -/
theorem forall_isDigit {p : Char → Prop} (hp : ∀ d < 10, p d.digitChar) (hc : c.isDigit = true) :
    p c := by
  rw [Char.isDigit_iff_toNat] at hc
  have hzero : '0'.toNat = 48 := rfl
  have hnine : '9'.toNat = 57 := rfl
  have hd : c.toNat - 48 < 10 := by omega
  have heq : (c.toNat - 48).digitChar = c := by
    rw [← Char.toNat_inj, Nat.toNat_digitChar_of_lt_ten hd]
    omega
  exact heq ▸ hp _ hd

theorem isDigit_of_mem_toDigits {n : ℕ} : ∀ c ∈ Nat.toDigits 10 n, c.isDigit = true := fun _ =>
  Nat.isDigit_of_mem_toDigits (by decide) (by decide)

/-- Digits begin with no sign. -/
theorem readSign_digits (hne : w ≠ []) (hw : ∀ c ∈ w, c.isDigit = true) (s : List Char) :
    readSign (w ++ s) = (false, w ++ s) := by
  obtain ⟨c, w, rfl⟩ := List.exists_cons_of_ne_nil hne
  have hsign : c ≠ '-' ∧ c ≠ '+' :=
    forall_isDigit (p := fun c => c ≠ '-' ∧ c ≠ '+') (by decide) (hw c (by simp))
  simp [readSign, hsign.1, hsign.2]

end Digits

section Naturals

theorem isWholeChar_of_isDigit (hc : c.isDigit = true) : isWholeChar c = true :=
  forall_isDigit (p := (isWholeChar · = true)) (by decide) hc

theorem digitsValue?_toDigits (n : ℕ) : digitsValue? 10 (Nat.toDigits 10 n) = some n := by
  have hfilter : (Nat.toDigits 10 n).filter (· ≠ '_') = Nat.toDigits 10 n := by
    rw [List.filter_eq_self]
    intro c hc
    exact forall_isDigit (p := fun c => decide (c ≠ '_') = true) (by decide)
      (isDigit_of_mem_toDigits c hc)
  rw [digitsValue?, hfilter]
  refine foldlM_toDigits (by decide) (fun n d hd => ?_) n
  rw [hexDigit?_digitChar d (by omega)]
  simp [hd]

/-- The mark of a base stands in the second place, where there is a digit or the end. -/
theorem readBase_digits (hne : w ≠ []) (hw : ∀ c ∈ w, c.isDigit = true) (hrest : Stops rest) :
    readBase (w ++ rest) = (10, w ++ rest) := by
  have hbase : ∀ c d : Char, ∀ s, d ≠ 'b' ∧ d ≠ 'o' ∧ d ≠ 'x' →
      readBase (c :: d :: s) = (10, c :: d :: s) := by
    rintro c d s ⟨hb, ho, hx⟩
    simp [readBase, hb, ho, hx]
  match w, rest with
  | [], _ => exact absurd rfl hne
  | [_], [] => simp [readBase]
  | [c], d :: s =>
    have hd : d = ',' ∨ d = ')' ∨ d = ':' ∨ d = '(' := by simpa using hrest d (by simp)
    obtain rfl | rfl | rfl | rfl := hd <;> exact hbase c _ s (by decide)
  | c :: d :: w, s =>
    exact hbase c d (w ++ s) (forall_isDigit (p := fun d => d ≠ 'b' ∧ d ≠ 'o' ∧ d ≠ 'x')
      (by decide) (hw d (by simp)))

theorem readNatural_toDigits {limit n : ℕ} (hn : n ≤ limit) (hrest : Stops rest) :
    readNatural limit (Nat.toDigits 10 n ++ rest) = some (n, rest) := by
  have hne : Nat.toDigits 10 n ≠ [] := Nat.toDigits_ne_nil
  have hdigits := isDigit_of_mem_toDigits (n := n)
  have hspan := span_append (p := isWholeChar) (fun c hc => isWholeChar_of_isDigit (hdigits c hc))
    (hrest.head?_any (by decide))
  have hhead : (Nat.toDigits 10 n).head? ≠ some '_' := fun h =>
    Nat.underscore_not_in_toDigits (List.mem_of_head? h)
  have hlimit : ¬ limit < n := by omega
  have hwhole : readWhole (Nat.toDigits 10 n ++ rest) = some ((false, n), rest) := by
    rw [readWhole, readSign_digits hne hdigits]
    simp [-List.span_eq_takeWhile_dropWhile, readBase_digits hne hdigits hrest, hspan, hne, hhead,
      digitsValue?_toDigits]
  simp [readNatural, hwhole, hlimit]

end Naturals

section Numbers

/-- The sign that is written. -/
def signText (negative : Bool) : List Char := if negative then ['-'] else []

variable {whole fraction : List Char}

theorem dropUnderscores_eq (hw : '_' ∉ w) (allowed : Bool) :
    dropUnderscores allowed w = some w := by
  induction w generalizing allowed with
  | nil => rfl
  | cons c w ih =>
    rw [List.mem_cons, not_or] at hw
    rw [dropUnderscores, if_neg (Ne.symm hw.1)]
    simp [ih hw.2]

theorem readSign_signText (negative : Bool) (hne : w ≠ []) (hw : ∀ c ∈ w, c.isDigit = true)
    (s : List Char) : readSign (signText negative ++ (w ++ s)) = (negative, w ++ s) := by
  cases negative with
  | false => exact readSign_digits hne hw s
  | true => rfl

/-- A decimal counts the digits after its point, if there is one, as its exponent. -/
theorem decimal?_digits (negative : Bool) (hne : whole ≠ [])
    (hwhole : ∀ c ∈ whole, c.isDigit = true) (hfraction : ∀ c ∈ fraction, c.isDigit = true)
    {tail : List Char} (htail : tail = '.' :: fraction ∨ tail = [] ∧ fraction = []) :
    decimal? (signText negative ++ (whole ++ tail)) =
      some (.ofDecimal negative (Nat.ofDigitChars 10 (whole ++ fraction) 0)
        (-fraction.length)) := by
  have hdigit : ∀ c : Char, c.isDigit = true → c ≠ '_' := fun _ =>
    forall_isDigit (p := (· ≠ '_')) (by decide)
  have hpoint : ∀ c ∈ tail, c = '.' ∨ c ∈ fraction := by
    rcases htail with rfl | ⟨rfl, rfl⟩
    · exact fun c hc => List.mem_cons.1 hc
    · exact fun c hc => absurd hc List.not_mem_nil
  have hclean : '_' ∉ signText negative ++ (whole ++ tail) := by
    intro h
    rw [List.mem_append, List.mem_append] at h
    rcases h with h | h | h
    · cases negative <;> simp [signText] at h
    · exact hdigit _ (hwhole _ h) rfl
    · rcases hpoint _ h with h | h
      · cases h
      · exact hdigit _ (hfraction _ h) rfl
  have hspan₁ : (whole ++ tail).span Char.isDigit = (whole, tail) := by
    refine span_append hwhole ?_
    rcases htail with rfl | ⟨rfl, -⟩ <;> rfl
  have hspan₂ : fraction.span Char.isDigit = (fraction, []) := by
    simpa using span_append hfraction (rfl : [].head?.any Char.isDigit = false)
  simp only [decimal?, dropUnderscores_eq hclean, Option.bind_eq_bind, Option.bind_some,
    readSign_signText negative hne hwhole, hspan₁]
  rcases htail with rfl | ⟨rfl, rfl⟩
  · simp only [hspan₂, List.isEmpty_iff, List.append_eq_nil_iff, hne, false_and, if_false,
      exponent?, Option.bind_some, Option.some.injEq]
    -- the exponent is zero, so it is not cut
    congr 1
    omega
  · simp only [List.isEmpty_iff, List.append_eq_nil_iff, hne, false_and, if_false, exponent?,
      Option.bind_some]
    rfl

/-- The digits before and after the point, with a zero after it if there would be nothing else. -/
def pointed (d : Decimal) : List Char × List Char :=
  match d.exponent with
  | .ofNat e => (Nat.toDigits 10 (d.digits * Nat.pow 10 e), ['0'])
  | .negSucc e =>
    (Nat.toDigits 10 (d.digits / Nat.pow 10 (e + 1)),
      (Nat.toDigits 10 (d.digits % Nat.pow 10 (e + 1))).leftpad (e + 1) '0')

variable (d : Decimal)

theorem pointed_whole_ne_nil : (pointed d).1 ≠ [] := by
  unfold pointed
  split <;> exact Nat.toDigits_ne_nil

theorem isDigit_of_mem_leftpad {n e : ℕ} (hc : c ∈ (Nat.toDigits 10 n).leftpad e '0') :
    c.isDigit = true := by
  rw [List.leftpad, List.mem_append] at hc
  obtain hc | hc := hc
  · rw [List.eq_of_mem_replicate hc]
    decide
  · exact isDigit_of_mem_toDigits c hc

theorem isDigit_of_mem_pointed :
    (∀ c ∈ (pointed d).1, c.isDigit = true) ∧ ∀ c ∈ (pointed d).2, c.isDigit = true := by
  unfold pointed
  split
  · exact ⟨isDigit_of_mem_toDigits, by simp⟩
  · exact ⟨isDigit_of_mem_toDigits, fun _ => isDigit_of_mem_leftpad⟩

theorem ofDigitChars_leftpad (n e : ℕ) :
    Nat.ofDigitChars 10 ((Nat.toDigits 10 n).leftpad e '0') 0 = n := by
  rw [List.leftpad, Nat.ofDigitChars_append, Nat.ofDigitChars_replicate_zero, Nat.mul_zero,
    Nat.ofDigitChars_ten_toDigits]

theorem length_leftpad_toDigits {n e : ℕ} (hn : n < Nat.pow 10 (e + 1)) :
    ((Nat.toDigits 10 n).leftpad (e + 1) '0').length = e + 1 := by
  have hlen : (Nat.toDigits 10 n).length ≤ e + 1 :=
    (Nat.length_toDigits_le_iff (by decide) (by omega)).2 hn
  rw [List.length_leftpad]
  omega

/-- Taken together and with the count of digits after the point as exponent, the digits stand for
the decimal. -/
theorem nearestDecimal_pointed :
    Binary32.nearestDecimal (Nat.ofDigitChars 10 ((pointed d).1 ++ (pointed d).2) 0)
        (-(pointed d).2.length) = Binary32.nearestDecimal d.digits d.exponent := by
  unfold pointed
  split
  · next e he =>
    have hvalue : Nat.ofDigitChars 10 (Nat.toDigits 10 (d.digits * Nat.pow 10 e) ++ ['0']) 0 =
        10 * (d.digits * Nat.pow 10 e) := by
      simp [Nat.ofDigitChars_append, Nat.ofDigitChars_cons]
    rw [he, hvalue]
    exact Binary32.nearest_mul (by decide) (d.digits * Nat.pow 10 e) 1
  · next e he =>
    have hpow : 0 < Nat.pow 10 (e + 1) := Nat.pow_pos (by decide)
    have hlen := length_leftpad_toDigits (Nat.mod_lt d.digits hpow)
    have hvalue : Nat.ofDigitChars 10 (Nat.toDigits 10 (d.digits / Nat.pow 10 (e + 1)) ++
        (Nat.toDigits 10 (d.digits % Nat.pow 10 (e + 1))).leftpad (e + 1) '0') 0 = d.digits := by
      rw [Nat.ofDigitChars_append, Nat.ofDigitChars_ten_toDigits,
        Nat.ofDigitChars_eq_ofDigitChars_zero, ofDigitChars_leftpad, hlen]
      exact Nat.div_add_mod d.digits (Nat.pow 10 (e + 1))
    rw [he, hvalue]
    dsimp only
    rw [hlen]
    rfl

theorem text_finite {x : Binary32} (hx : x.isFinite = true) :
    x.text = signText x.negative ++ (Binary32.shortest x.magnitude).positional := by
  have hnan : x.isNaN = false := by
    simp only [Binary32.isFinite, Binary32.isNaN, decide_eq_true_eq, decide_eq_false_iff_not] at *
    omega
  simp only [Binary32.text, hnan, hx, Bool.false_eq_true, if_false, if_true]
  cases x.negative <;> rfl

/-- A finite number is read back from its shortest decimal. -/
theorem decimal?_text {x : Binary32} (hx : x.isFinite = true) : decimal? x.text = some x := by
  have hm : x.magnitude < Binary32.infinite := by simpa [Binary32.isFinite] using hx
  have hback : Binary32.ofMagnitude x.negative (Binary32.nearestDecimal
      (Binary32.shortest x.magnitude).digits (Binary32.shortest x.magnitude).exponent) = x := by
    rw [Binary32.nearestDecimal_shortest hm, Binary32.ofMagnitude_magnitude]
  rw [text_finite hx]
  generalize Binary32.shortest x.magnitude = d at hback
  have hpointed := isDigit_of_mem_pointed d
  have hvalue := nearestDecimal_pointed d
  obtain ⟨n, e⟩ := d
  cases e with
  | ofNat e =>
    -- without a point the zero after it is not written
    have hnone : ∀ c ∈ ([] : List Char), c.isDigit = true := by simp
    have hread := decimal?_digits x.negative (Nat.toDigits_ne_nil (b := 10) (n := n * Nat.pow 10 e))
      isDigit_of_mem_toDigits hnone (.inr ⟨rfl, rfl⟩)
    rw [List.append_nil, Nat.ofDigitChars_ten_toDigits] at hread
    refine hread.trans ?_
    refine congrArg some (Eq.trans ?_ hback)
    simp [Binary32.ofDecimal, Binary32.nearestDecimal]
  | negSucc e =>
    have hread := decimal?_digits x.negative (pointed_whole_ne_nil ⟨n, .negSucc e⟩) hpointed.1
      hpointed.2 (.inl rfl)
    rw [Binary32.ofDecimal, hvalue, hback] at hread
    exact hread

theorem numberText_finite {x : Binary32} (hx : x.isFinite = true) :
    numberText x = signText x.negative ++ ((pointed (Binary32.shortest x.magnitude)).1 ++
      '.' :: (pointed (Binary32.shortest x.magnitude)).2) := by
  have hpoint : ∀ n : ℕ, '.' ∉ signText x.negative ++ Nat.toDigits 10 n := by
    intro n h
    obtain h | h := List.mem_append.1 h
    · cases hsign : x.negative <;> simp [hsign, signText] at h
    · exact absurd (isDigit_of_mem_toDigits _ h) (by decide)
  rw [numberText, text_finite hx]
  obtain ⟨n, e⟩ := Binary32.shortest x.magnitude
  cases e with
  | ofNat e =>
    have hwhole := hpoint (n * Nat.pow 10 e)
    rw [if_pos (by simpa [hx, Decimal.positional] using hwhole)]
    simp [Decimal.positional, pointed]
  | negSucc e =>
    rw [if_neg (by simp [Decimal.positional])]
    rfl

/-- The digits, the point and the sign of a decimal. -/
theorem isDecimalChar_of_mem_numberText {x : Binary32} (hx : x.isFinite = true) :
    ∀ c ∈ numberText x, isDecimalChar c = true := by
  have hdigits := isDigit_of_mem_pointed (Binary32.shortest x.magnitude)
  have hdigit : ∀ c : Char, c.isDigit = true → isDecimalChar c = true := fun _ =>
    forall_isDigit (p := (isDecimalChar · = true)) (by decide)
  intro c hc
  simp only [numberText_finite hx, List.mem_append, List.mem_cons] at hc
  obtain hc | hc | rfl | hc := hc
  · cases hsign : x.negative <;> simp [hsign, signText] at hc
    subst hc
    decide
  · exact hdigit c (hdigits.1 c hc)
  · decide
  · exact hdigit c (hdigits.2 c hc)

/-- A finite number begins with none of the words for numbers. -/
theorem readOneOf_numberWords_finite {x : Binary32} (hx : x.isFinite = true) :
    readOneOf numberWords (numberText x ++ rest) = none := by
  obtain ⟨c, w, hw⟩ := List.exists_cons_of_ne_nil
    (pointed_whole_ne_nil (Binary32.shortest x.magnitude))
  have hdigits := isDigit_of_mem_pointed (Binary32.shortest x.magnitude)
  have hc : 'i' ≠ c ∧ 'N' ≠ c ∧ '+' ≠ c ∧ '-' ≠ c :=
    forall_isDigit (p := fun c => 'i' ≠ c ∧ 'N' ≠ c ∧ '+' ≠ c ∧ '-' ≠ c) (by decide)
      (hdigits.1 c (by simp [hw]))
  rw [numberText_finite hx, hw]
  unfold numberWords
  cases x.negative <;>
  · iterate 6 rw [readOneOf_skip (by simp [signText, hc])]
    rfl

/-- A number is read back, and every one that is no number as the same. -/
theorem readNumber_numberText (x : Binary32) (hrest : Stops rest) :
    readNumber (numberText x ++ rest) = some (x.canonical, rest) := by
  unfold readNumber
  by_cases hfinite : x.isFinite = true
  · have hm : x.magnitude < Binary32.infinite := by simpa [Binary32.isFinite] using hfinite
    have hcanonical : x.canonical = x := by
      simp [Binary32.canonical, Binary32.isNaN, Nat.not_lt.2 hm.le]
    have hdigits := isDigit_of_mem_pointed (Binary32.shortest x.magnitude)
    rw [readOneOf_numberWords_finite hfinite]
    dsimp only
    rw [span_append (isDecimalChar_of_mem_numberText hfinite) (hrest.head?_any (by decide))]
    dsimp only
    rw [numberText_finite hfinite,
      decimal?_digits _ (pointed_whole_ne_nil _) hdigits.1 hdigits.2 (.inl rfl),
      Binary32.ofDecimal, nearestDecimal_pointed, Binary32.nearestDecimal_shortest hm,
      Binary32.ofMagnitude_magnitude, hcanonical]
    rfl
  by_cases hnan : x.isNaN = true
  · have htext : numberText x = "NaN".toList := by
      simp [numberText, Binary32.text, hnan, hfinite]
    rw [htext, numberWords, readOneOf_skip (by simp), readOneOf_skip (by simp),
      readOneOf_skip (by simp), readOneOf_here hrest]
    simp [Binary32.canonical, hnan]
  · have hm : x.magnitude = Binary32.infinite := by
      simp only [Binary32.isFinite, Binary32.isNaN, decide_eq_true_eq] at *
      omega
    have hx : Binary32.ofMagnitude x.negative Binary32.infinite = x :=
      hm ▸ Binary32.ofMagnitude_magnitude x
    cases hsign : x.negative with
    | false =>
      have htext : numberText x = "inf".toList := by
        simp [numberText, Binary32.text, hnan, hfinite, hsign]
      rw [htext, numberWords, readOneOf_here hrest]
      simp [Binary32.canonical, hnan, ← hsign, hx]
    | true =>
      have htext : numberText x = "-inf".toList := by
        simp [numberText, Binary32.text, hnan, hfinite, hsign]
      rw [htext, numberWords, readOneOf_skip (by simp), readOneOf_skip (by simp),
        readOneOf_here hrest]
      simp [Binary32.canonical, hnan, ← hsign, hx]

end Numbers

end ShaderGraph.Document
