import ShaderGraph.Binary32.Rounding
import ShaderGraph.Document.NameCharacter
import ShaderGraph.Hexadecimal

/-!
# Lexemes of documents

The parts a document is written with: gaps, names, texts, whole numbers and binary32 numbers. Each
reader takes the characters from its place on and gives what it read with the characters that
follow, or nothing if the lexeme is malformed.
-/

namespace ShaderGraph.Document

section Gaps

/-- Characters that may stand between any two lexemes. -/
def isBlank (c : Char) : Bool :=
  [' ', '\t', '\n', '\r', '\x0b', '\x0c', '\u0085', '\u200e', '\u200f', '\u2028',
    '\u2029'].contains c

/-- Where in a gap a character stands. -/
inductive Gap
  | between
  | line
  /-- Inside this many more comments than one. -/
  | block (depth : Nat)

/-- Pass over blanks and comments. A line comment ends at a line feed or the end of the document, a
block comment is closed and may hold others. -/
def skipGapFrom : Gap → List Char → Option (List Char)
  | .between, [] => some []
  | .between, '/' :: '/' :: rest => skipGapFrom .line rest
  | .between, '/' :: '*' :: rest => skipGapFrom (.block 0) rest
  | .between, c :: rest =>
    if c = '/' then none else if isBlank c then skipGapFrom .between rest else some (c :: rest)
  | .line, [] => some []
  | .line, c :: rest => skipGapFrom (if c = '\n' then .between else .line) rest
  | .block _, [] => none
  | .block 0, '*' :: '/' :: rest => skipGapFrom .between rest
  | .block (depth + 1), '*' :: '/' :: rest => skipGapFrom (.block depth) rest
  | .block depth, '/' :: '*' :: rest => skipGapFrom (.block (depth + 1)) rest
  | .block depth, _ :: rest => skipGapFrom (.block depth) rest

def skipGap (s : List Char) : Option (List Char) := skipGapFrom .between s

/-- One character, after a gap and before another. -/
def readMark (mark : Char) (s : List Char) : Option (List Char) :=
  match skipGap s with
  | some (c :: rest) => if c = mark then skipGap rest else none
  | _ => none

/-- A comma if there is one, with the gaps around it. -/
def readComma (s : List Char) : Option (Bool × List Char) :=
  match skipGap s with
  | none => none
  | some (c :: rest) =>
    if c = ',' then (skipGap rest).map fun rest => (true, rest) else some (false, c :: rest)
  | some [] => some (false, [])

end Gaps

section Names

/-- Whether the characters start like a text or a byte string rather than a name. -/
def startsText : List Char → Bool
  | 'b' :: '"' :: _ => true
  | 'b' :: '\'' :: _ => true
  | 'b' :: 'r' :: '"' :: _ => true
  | 'b' :: 'r' :: '#' :: _ => true
  | 'r' :: '"' :: _ => true
  | _ => false

/-- A name. After `r#` it may also hold the characters `.`, `+` and `-`; without this mark none of
these may follow it. -/
def readName : List Char → Option (String × List Char)
  | 'r' :: '#' :: rest =>
    let (name, rest) := rest.span isRawNameChar
    if name.isEmpty then none else some (String.ofList name, rest)
  | s =>
    if startsText s || !(s.head?.any isNameStart) then none
    else
      let (name, rest) := s.span isNameChar
      if rest.head?.any isRawNameChar then none else some (String.ofList name, rest)

/-- A given word that no further name character follows. -/
def readWord (word : String) (s : List Char) : Option (List Char) :=
  let w := word.toList
  if s.take w.length = w ∧ !((s.drop w.length).head?.any isNameChar) then some (s.drop w.length)
  else none

/-- The first of some words that stands here, with what it means. -/
def readOneOf {α : Type} (words : List (String × α)) (s : List Char) : Option (α × List Char) :=
  words.findSome? fun (word, a) => (readWord word s).map fun rest => (a, rest)

end Names

section Texts

/-- What stands between quotes. -/
inductive Quotation
  | text
  | character
  | byteString
  | byte
deriving DecidableEq

/-- Two hexadecimal digits. -/
def readByte : List Char → Option (Nat × List Char)
  | a :: b :: rest => (hexNumber? [a, b]).map fun n => (n, rest)
  | _ => none

theorem readByte_length {s rest : List Char} {n : Nat} (h : readByte s = some (n, rest)) :
    rest.length ≤ s.length := by
  unfold readByte at h
  split at h
  · obtain ⟨_, _, h⟩ := Option.map_eq_some_iff.1 h
    cases h
    simp only [List.length_cons]
    omega
  · cases h

/-- A further byte of a character that is written as its UTF-8 bytes. -/
def readContinuation : List Char → Option (Nat × List Char)
  | '\\' :: 'x' :: rest =>
    (readByte rest).bind fun (b, rest) =>
      if 0x80 ≤ b ∧ b < 0xc0 then some (b - 0x80, rest) else none
  | _ => none

theorem readContinuation_length {s rest : List Char} {n : Nat}
    (h : readContinuation s = some (n, rest)) : rest.length ≤ s.length := by
  unfold readContinuation at h
  split at h
  · obtain ⟨⟨b, t⟩, ht, h⟩ := Option.bind_eq_some_iff.1 h
    have := readByte_length ht
    dsimp only at h
    split at h
    · simp only [Option.some.injEq, Prod.mk.injEq] at h
      obtain ⟨_, rfl⟩ := h
      simp only [List.length_cons]
      omega
    · cases h
  · cases h

/-- The character with a given code, unless it is smaller than `least`, a surrogate or too large. -/
def charOfCode? (least n : Nat) : Option Char :=
  if least ≤ n ∧ n.isValidChar then some (Char.ofNat n) else none

/-- A character written by the escapes of its UTF-8 bytes, in as few bytes as it needs. -/
def readBytes (s : List Char) : Option (Char × List Char) := do
  let (a, s) ← readByte s
  if a < 0x80 then
    return (Char.ofNat a, s)
  let (b, s) ← readContinuation s
  if 0xc2 ≤ a ∧ a < 0xe0 then
    let c ← charOfCode? 0x80 ((a - 0xc0) * 0x40 + b)
    return (c, s)
  let (d, s) ← readContinuation s
  if 0xe0 ≤ a ∧ a < 0xf0 then
    let c ← charOfCode? 0x800 (((a - 0xe0) * 0x40 + b) * 0x40 + d)
    return (c, s)
  let (e, s) ← readContinuation s
  if 0xf0 ≤ a ∧ a < 0xf5 then
    let c ← charOfCode? 0x10000 ((((a - 0xf0) * 0x40 + b) * 0x40 + d) * 0x40 + e)
    return (c, s)
  none

theorem readBytes_length {s rest : List Char} {c : Char} (h : readBytes s = some (c, rest)) :
    rest.length ≤ s.length := by
  simp only [readBytes, bind, pure, Option.bind_eq_some_iff, Prod.exists] at h
  obtain ⟨a, s₁, h₁, h⟩ := h
  have := readByte_length h₁
  split at h
  · cases h
    assumption
  simp only [Option.bind_eq_some_iff, Prod.exists] at h
  obtain ⟨b, s₂, h₂, h⟩ := h
  have := readContinuation_length h₂
  split at h
  · obtain ⟨_, _, h⟩ := Option.bind_eq_some_iff.1 h
    cases h
    omega
  simp only [Option.bind_eq_some_iff, Prod.exists] at h
  obtain ⟨d, s₃, h₃, h⟩ := h
  have := readContinuation_length h₃
  split at h
  · obtain ⟨_, _, h⟩ := Option.bind_eq_some_iff.1 h
    cases h
    omega
  simp only [Option.bind_eq_some_iff, Prod.exists] at h
  obtain ⟨e, s₄, h₄, h⟩ := h
  have := readContinuation_length h₄
  split at h
  · obtain ⟨_, _, h⟩ := Option.bind_eq_some_iff.1 h
    cases h
    omega
  · cases h

/-- The character of an escape by code, read after its opening brace: one to six hexadecimal digits
and the closing brace. -/
def readCode (s : List Char) : Option (Char × List Char) :=
  let digits := s.takeWhile (· ≠ '\x7d')
  match s.dropWhile (· ≠ '\x7d') with
  | [] => none
  | _ :: rest =>
    if digits.isEmpty ∨ 6 < digits.length then none
    else ((hexNumber? digits).bind (charOfCode? 0)).map fun c => (c, rest)

theorem readCode_length {s rest : List Char} {c : Char} (h : readCode s = some (c, rest)) :
    rest.length ≤ s.length := by
  have hs := (s.dropWhile_suffix (· ≠ '\x7d')).length_le
  unfold readCode at h
  dsimp only at h
  split at h
  · cases h
  · rename_i ht
    rw [ht, List.length_cons] at hs
    split at h
    · cases h
    · obtain ⟨_, _, h⟩ := Option.map_eq_some_iff.1 h
      cases h
      omega

/-- The character of an escape, read after its backslash. Two hexadecimal digits stand for a byte in
a byte string and in a byte, for a character of ASCII in a character and for one of the UTF-8 bytes
of a character in a text. A byte has no escape by code. -/
def readEscape (quotation : Quotation) : List Char → Option (Char × List Char)
  | '"' :: rest => some ('"', rest)
  | '\'' :: rest => some ('\'', rest)
  | '\\' :: rest => some ('\\', rest)
  | 'n' :: rest => some ('\n', rest)
  | 'r' :: rest => some ('\r', rest)
  | 't' :: rest => some ('\t', rest)
  | '0' :: rest => some ('\x00', rest)
  | 'x' :: rest =>
    match quotation with
    | .text => readBytes rest
    | .character =>
      (readByte rest).bind fun (b, rest) => if b < 0x80 then some (Char.ofNat b, rest) else none
    | .byteString | .byte => (readByte rest).map fun (b, rest) => (Char.ofNat b, rest)
  | 'u' :: '\x7b' :: rest => if quotation = .byte then none else readCode rest
  | _ => none

theorem readEscape_length {quotation : Quotation} {s rest : List Char} {c : Char}
    (h : readEscape quotation s = some (c, rest)) : rest.length ≤ s.length := by
  unfold readEscape at h
  split at h
  case h_8 t =>
    have ht : rest.length ≤ t.length := by
      cases quotation
      case text => exact readBytes_length h
      case character =>
        obtain ⟨⟨b, t⟩, ht, h⟩ := Option.bind_eq_some_iff.1 h
        dsimp only at h
        split at h
        · cases h
          exact readByte_length ht
        · cases h
      all_goals
        obtain ⟨⟨b, t⟩, ht, h⟩ := Option.map_eq_some_iff.1 h
        cases h
        exact readByte_length ht
    exact Nat.le_succ_of_le ht
  case h_9 t =>
    split at h
    · cases h
    · have := readCode_length h
      simp only [List.length_cons]
      omega
  case h_10 => cases h
  all_goals
    cases h
    exact Nat.le_succ _

/-- The characters up to the closing quote, escapes as they stand, and the characters after it. -/
def splitQuoted : List Char → Option (List Char × List Char)
  | [] => none
  | '"' :: rest => some ([], rest)
  | '\\' :: c :: rest => (splitQuoted rest).map fun (cs, rest) => ('\\' :: c :: cs, rest)
  | c :: rest => (splitQuoted rest).map fun (cs, rest) => (c :: cs, rest)

/-- The characters with each escape replaced by what it means. -/
def unescape (quotation : Quotation) : List Char → Option (List Char)
  | [] => some []
  | c :: rest =>
    if c = '\\' then
      match _ : readEscape quotation rest with
      | none => none
      | some (d, rest) => (unescape quotation rest).map (d :: ·)
    else (unescape quotation rest).map (c :: ·)
termination_by s => s.length
decreasing_by
  · rename_i h
    exact Nat.lt_succ_of_le (readEscape_length h)
  · exact Nat.lt_succ_self _

/-- A text or byte string, read after its opening quote. -/
def readQuoted (quotation : Quotation) (s : List Char) : Option (List Char × List Char) :=
  (splitQuoted s).bind fun (content, rest) => (unescape quotation content).map fun cs => (cs, rest)

/-- A single character or byte, read after its opening quote. A byte that is no escape is in
ASCII. -/
def readSingle (quotation : Quotation) (s : List Char) : Option (Char × List Char) :=
  let content :=
    match s with
    | '\\' :: rest => readEscape quotation rest
    | c :: rest => if quotation = .byte ∧ 0x80 ≤ c.toNat then none else some (c, rest)
    | [] => none
  match content with
  | some (c, '\'' :: rest) => some (c, rest)
  | _ => none

/-- The characters up to a closing quote that is followed by as many `#` as the opening one. -/
def readRaw (hashes : List Char) : List Char → Option (List Char × List Char)
  | [] => none
  | c :: rest =>
    if c = '"' ∧ hashes.isPrefixOf rest then some ([], rest.drop hashes.length)
    else (readRaw hashes rest).map fun (cs, rest) => (c :: cs, rest)

/-- A raw text, read after its `r`. -/
def readRawText (s : List Char) : Option (List Char × List Char) :=
  let (hashes, rest) := s.span (· = '#')
  match rest with
  | '"' :: rest => readRaw hashes rest
  | _ => none

/-- A quoted or raw text. -/
def readText : List Char → Option (String × List Char)
  | '"' :: rest => (readQuoted .text rest).map fun (cs, rest) => (String.ofList cs, rest)
  | 'r' :: rest => (readRawText rest).map fun (cs, rest) => (String.ofList cs, rest)
  | _ => none

end Texts

section Numbers

/-- A sign if there is one: whether it is a minus, and what follows. -/
def readSign : List Char → Bool × List Char
  | '-' :: rest => (true, rest)
  | '+' :: rest => (false, rest)
  | s => (false, s)

/-- The base of a whole number. -/
def readBase : List Char → Nat × List Char
  | '0' :: 'b' :: rest => (2, rest)
  | '0' :: 'o' :: rest => (8, rest)
  | '0' :: 'x' :: rest => (16, rest)
  | s => (10, s)

/-- Characters that a whole number extends over. -/
def isWholeChar (c : Char) : Bool := (hexDigit? c).isSome || c = '_'

/-- The number written by digits of a base, underscores left out. -/
def digitsValue? (base : Nat) (cs : List Char) : Option Nat :=
  (cs.filter (· ≠ '_')).foldlM
    (fun n c => (hexDigit? c).bind fun d => if d < base then some (base * n + d) else none) 0

/-- A whole number of either sign, as its sign and size. -/
def readWhole (s : List Char) : Option ((Bool × Nat) × List Char) :=
  let (negative, s) := readSign s
  let (base, s) := readBase s
  let (digits, rest) := s.span isWholeChar
  if digits.isEmpty ∨ digits.head? = some '_' then none
  else (digitsValue? base digits).map fun n => ((negative, n), rest)

/-- A natural number up to a limit. -/
def readNatural (limit : Nat) (s : List Char) : Option (Nat × List Char) :=
  match readWhole s with
  | some ((negative, n), rest) => if (negative ∧ n ≠ 0) ∨ limit < n then none else some (n, rest)
  | none => none

/-- Characters that a decimal extends over. -/
def isDecimalChar (c : Char) : Bool :=
  ('0' ≤ c && c ≤ '9') || ['e', 'E', '.', '+', '-', '_'].contains c

/-- A decimal without its underscores. They may stand after a digit or the exponent mark, with signs
or other underscores between. -/
def dropUnderscores : Bool → List Char → Option (List Char)
  | _, [] => some []
  | allowed, c :: rest =>
    if c = '_' then if allowed then dropUnderscores true rest else none
    else
      let allowed :=
        if c = '.' then false else ('0' ≤ c && c ≤ '9') || c = 'e' || c = 'E' || allowed
      (dropUnderscores allowed rest).map (c :: ·)

/-- The exponent of a decimal, read from its mark on; no mark means zero. -/
def exponent? : List Char → Option Int
  | [] => some 0
  | c :: rest =>
    if c = 'e' ∨ c = 'E' then
      let (negative, digits) := readSign rest
      if digits.isEmpty ∨ !digits.all Char.isDigit then none
      else
        let size : Int := Nat.ofDigitChars 10 digits 0
        some (if negative then -size else size)
    else none

/-- The number of a decimal: digits with at most one point among them, then the exponent. An
exponent larger than the count of digits by a thousand is cut to that, for the number is then
infinite or zero in any case. -/
def decimal? (s : List Char) : Option Binary32 := do
  let s ← dropUnderscores false s
  let (negative, s) := readSign s
  let (whole, s) := s.span Char.isDigit
  let (fraction, s) :=
    match s with
    | '.' :: s => s.span Char.isDigit
    | s => ([], s)
  let digits := whole ++ fraction
  if digits.isEmpty then none
  else
    let exponent ← exponent? s
    let bound : Int := digits.length + 1000
    some (Binary32.ofDecimal negative (Nat.ofDigitChars 10 digits 0)
      (max (-bound) (min bound exponent) - fraction.length))

/-- The words that stand for numbers. -/
def numberWords : List (String × Binary32) :=
  [("inf", .ofMagnitude false Binary32.infinite), ("+inf", .ofMagnitude false Binary32.infinite),
    ("-inf", .ofMagnitude true Binary32.infinite), ("NaN", .nan), ("+NaN", .nan), ("-NaN", .nan)]

/-- A binary32 number. -/
def readNumber (s : List Char) : Option (Binary32 × List Char) :=
  match readOneOf numberWords s with
  | some found => some found
  | none =>
    let (digits, rest) := s.span isDecimalChar
    (decimal? digits).map fun x => (x, rest)

end Numbers

end ShaderGraph.Document
