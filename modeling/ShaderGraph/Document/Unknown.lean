import ShaderGraph.Document.Elements

/-!
# Unknown values

A record may hold fields that its reader does not know. Whatever well-formed value such a field has
is passed over. A document has a depth to spend on brackets, which also bounds the search: an option
takes one level for its value, any other bracket takes one for itself and one more for its elements,
so an empty one is a level cheaper.
-/

namespace ShaderGraph.Document

/-- The depth a document has to spend. -/
def maxDepth : Nat := 128

/-- Words that are values by themselves, even before a parenthesis. -/
def valueWords : List (String × Unit) :=
  [("true", ()), ("false", ()), ("None", ()), ("inf", ()), ("NaN", ())]

/-- Whether the characters after an opening parenthesis are a record rather than a tuple. -/
def startsRecord (s : List Char) : Bool :=
  match (skipGap s).bind readName with
  | some (_, s) => ((skipGap s).getD []).head? = some ':'
  | none => false

/-- A bracket that opens a value. -/
inductive Bracket
  /-- The parenthesis that must follow `Some`. -/
  | option
  | record
  | tuple
  | list
  | map

/-- The bracket that opens the value here, after a name if there is one, and what follows it. That
of an option is still ahead. -/
def readOpening (s : List Char) : Option (Bracket × List Char) :=
  match readWord "Some" s with
  | some s => some (.option, s)
  | none =>
    if (readOneOf valueWords s).isSome ∨ ['(', ')'].isPrefixOf s then none
    else
      match s with
      | '[' :: s => some (.list, s)
      | '\x7b' :: s => some (.map, s)
      | s =>
        let afterName :=
          match readName s with
          | some (_, s) => (skipGap s).getD []
          | none => s
        match afterName with
        | '(' :: s => some (if startsRecord s then .record else .tuple, s)
        | _ => none

/-- A whole number of 64 bits, signed if it is negative. -/
def skipInteger (s : List Char) : Option (List Char) :=
  match readWhole s with
  | some ((negative, n), s) =>
    if n ≤ if negative then 0x8000000000000000 else 0xffffffffffffffff then some s else none
  | none => none

/-- A number of any kind: a whole number unless it is too large or more characters can belong to a
decimal. -/
def skipNumber (s : List Char) : Option (List Char) :=
  let (_, digits) := readSign s
  let asDecimal := (readNumber s).map (·.2)
  if (digits.takeWhile isWholeChar).length < (digits.takeWhile isDecimalChar).length then asDecimal
  else (skipInteger s).or asDecimal

/-- A value without brackets. -/
def skipAtom (s : List Char) : Option (List Char) :=
  match readOneOf valueWords s with
  | some (_, s) => some s
  | none =>
    match s with
    | '(' :: ')' :: s => some s
    | '"' :: s => (readQuoted .text s).map (·.2)
    | '\'' :: s => (readSingle .character s).map (·.2)
    | 'r' :: '"' :: s => (readRawText ('"' :: s)).map (·.2)
    | 'b' :: '"' :: s => (readQuoted .byteString s).map (·.2)
    | 'b' :: '\'' :: s => (readSingle .byte s).map (·.2)
    | 'b' :: 'r' :: '"' :: s => (readRawText ('"' :: s)).map (·.2)
    | 'b' :: 'r' :: '#' :: s => (readRawText ('#' :: s)).map (·.2)
    | s =>
      match readName s with
      | some (_, s) => skipGap s
      | none =>
        match s with
        | 'r' :: '#' :: s => (readRawText ('#' :: s)).map (·.2)
        | s => skipNumber s

/-- Pass over what a bracket holds: the value of an option by `inside`, the values in any other
bracket by `element`. There are at most `elements` elements. -/
def skipBracket (elements : Nat) (inside element : Reader Unit) : Bracket → Reader Unit
  | .option => readEnclosed inside
  | .record =>
    foldElements ')' (fun _ s => do
      let (_, s) ← lexeme readName s
      readAfterColon element s) elements ()
  | .tuple => foldElements ')' (fun _ => element) elements ()
  | .list => foldElements ']' (fun _ => element) elements ()
  | .map =>
    foldElements '\x7d' (fun _ s => do
      let (_, s) ← element s
      readAfterColon element s) elements ()

/-- Pass over a value that spends at most `depth`. With one level left a bracket must be empty, and
an option must hold a value without brackets. -/
def skipValue (elements : Nat) : Nat → Reader Unit
  | depth, s =>
    match readOpening s with
    | none => (lexeme skipAtom s).map fun s => ((), s)
    | some (bracket, s) =>
      match depth with
      | 0 => .error .malformed
      | 1 => skipBracket elements (skipValue elements 0) (fun _ => .error .malformed) bracket s
      | depth + 2 =>
        skipBracket elements (skipValue elements (depth + 1)) (skipValue elements depth) bracket s

end ShaderGraph.Document
