import ShaderGraph.Document.Lexeme

/-!
# Elements between brackets

Errors of a document and the shape its lists, maps, tuples and records share: elements up to a
closing bracket, with a comma between two of them and optionally after the last one.
-/

namespace ShaderGraph.Document

/-- Why a document cannot be read: the first fault met from left to right. A missing field is met at
the end of its record. -/
inductive ReadError
  | missingField (name : String)
  | duplicateField (name : String)
  | unknownVariant (name : String)
  | malformed
deriving DecidableEq

/-- Reads a part of a document: what it holds, and the characters after it. -/
abbrev Reader (α : Type) := List Char → Except ReadError (α × List Char)

/-- A lexeme, malformed if it cannot be read. -/
def lexeme {α : Type} (read : List Char → Option α) (s : List Char) : Except ReadError α :=
  match read s with
  | some a => .ok a
  | none => .error .malformed

/-- Read at most `fuel` elements and the closing bracket after them. The state passes through the
elements. -/
def foldElements {σ : Type} (close : Char) (element : σ → Reader σ) : Nat → σ → Reader σ
  | fuel, state, s =>
    match skipGap s with
    | none | some [] => .error .malformed
    | some (c :: s) =>
      if c = close then .ok (state, s)
      else
        match fuel with
        | 0 => .error .malformed
        | fuel + 1 =>
          match element state (c :: s) with
          | .error e => .error e
          | .ok (state, s) =>
            match readComma s with
            | none | some (false, []) => .error .malformed
            | some (true, s) => foldElements close element fuel state s
            | some (false, d :: s) => if d = close then .ok (state, s) else .error .malformed

/-- The elements up to the closing bracket, at most `fuel`. -/
def readElements {α : Type} (close : Char) (element : Reader α) (fuel : Nat) : Reader (List α) :=
  let collect (found : List α) : Reader (List α) := fun s =>
    (element s).map fun (a, s) => (a :: found, s)
  fun s => (foldElements close collect fuel [] s).map fun (found, s) => (found.reverse, s)

/-- One value in parentheses, with an optional comma after it. -/
def readEnclosed {α : Type} (value : Reader α) : Reader α := fun s => do
  let s ← lexeme (readMark '(') s
  let (a, s) ← value s
  let (_, s) ← lexeme readComma s
  match s with
  | ')' :: s => .ok (a, s)
  | _ => .error .malformed

/-- What follows a key: a colon and its value. -/
def readAfterColon {α : Type} (value : Reader α) : Reader α := fun s => do
  let s ← lexeme (readMark ':') s
  value s

end ShaderGraph.Document
