import ShaderGraph.Binary32.Shortest

/-!
# Document values

The values a document can hold, and the text written for them. Elements of lists, maps and records
stand on lines of their own, each with a comma after it and four more spaces before it; tuples and
enclosed values stand on one line.
-/

namespace ShaderGraph.Document

/-- A value of a document. -/
inductive Value
  | text (s : String)
  | natural (n : Nat)
  | number (x : Binary32)
  | flag (b : Bool)
  /-- A name that is a value by itself. -/
  | symbol (name : String)
  /-- A value in parentheses after a name. -/
  | enclosed (name : String) (content : Value)
  | tuple (items : List Value)
  | list (items : List Value)
  | map (entries : List (Value × Value))
  | record (name : String) (fields : List (String × Value))

/-- A character inside a quoted text: quotes, the backslash and control characters are escaped. -/
def escaped (c : Char) : List Char :=
  if c = '\x00' then ['\\', '0']
  else if c = '\t' then ['\\', 't']
  else if c = '\n' then ['\\', 'n']
  else if c = '\r' then ['\\', 'r']
  else if c = '\'' ∨ c = '"' ∨ c = '\\' then ['\\', c]
  else if c.toNat < 0x20 ∨ (0x7f ≤ c.toNat ∧ c.toNat < 0xa0) then
    '\\' :: 'u' :: '\x7b' :: (Nat.toDigits 16 c.toNat ++ ['\x7d'])
  else [c]

/-- A text in quotes. -/
def quoted (s : String) : List Char := '"' :: (s.toList.flatMap escaped ++ ['"'])

/-- A number as `Binary32.text` writes it, with a fraction even if it is whole. -/
def numberText (x : Binary32) : List Char :=
  if x.isFinite ∧ !x.text.contains '.' then x.text ++ ['.', '0'] else x.text

/-- The start of a line at a depth. -/
def margin (depth : Nat) : List Char := List.replicate (4 * depth) ' '

/-- The end of the line of an element. -/
def elementEnd : List Char := [',', '\n']

mutual

/-- The text of a value whose closing bracket stands at a depth. -/
def Value.print (depth : Nat) : Value → List Char
  | .text s => quoted s
  | .natural n => Nat.toDigits 10 n
  | .number x => numberText x
  | .flag b => (if b then "true" else "false").toList
  | .symbol name => name.toList
  | .enclosed name content => name.toList ++ '(' :: (content.print depth ++ [')'])
  | .tuple items => '(' :: (printTuple depth items ++ [')'])
  | .list [] => ['[', ']']
  | .list (item :: items) =>
    '[' :: '\n' :: (margin (depth + 1) ++ item.print (depth + 1) ++ elementEnd ++
      printItems (depth + 1) items ++ margin depth ++ [']'])
  | .map [] => ['\x7b', '\x7d']
  | .map ((key, value) :: entries) =>
    '\x7b' :: '\n' :: (margin (depth + 1) ++ key.print (depth + 1) ++ ':' :: ' ' ::
      (value.print (depth + 1) ++ elementEnd ++ printEntries (depth + 1) entries ++
        margin depth ++ ['\x7d']))
  | .record name fields =>
    name.toList ++ '(' :: '\n' :: (printFields (depth + 1) fields ++ margin depth ++ [')'])

/-- Items of a tuple, with a comma and a space between two of them. -/
def printTuple (depth : Nat) : List Value → List Char
  | [] => []
  | [item] => item.print depth
  | item :: items => item.print depth ++ ',' :: ' ' :: printTuple depth items

/-- Items of a list, each on its line. -/
def printItems (depth : Nat) : List Value → List Char
  | [] => []
  | item :: items => margin depth ++ item.print depth ++ elementEnd ++ printItems depth items

/-- Entries of a map, each on its line. -/
def printEntries (depth : Nat) : List (Value × Value) → List Char
  | [] => []
  | (key, value) :: entries =>
    margin depth ++ key.print depth ++ ':' :: ' ' :: (value.print depth ++ elementEnd ++
      printEntries depth entries)

/-- Fields of a record, each on its line. -/
def printFields (depth : Nat) : List (String × Value) → List Char
  | [] => []
  | (name, value) :: fields =>
    margin depth ++ name.toList ++ ':' :: ' ' :: (value.print depth ++ elementEnd ++
      printFields depth fields)

end

/-- The document that holds a value. -/
def Value.document (v : Value) : String := String.ofList (v.print 0)

end ShaderGraph.Document
