import ShaderGraph.Document.Unknown
import ShaderGraph.Document.Value

/-!
# Shapes of documents

A shape says what value stands at a place of a document, and `Shape.read` reads a value of a given
shape. Fields of a record stand in any order; the value read has all of them, in the order of the
shape.

* `readDocument` : a whole document of a shape.
-/

namespace ShaderGraph.Document

mutual

/-- What value stands at a place of a document. -/
inductive Shape
  /-- A text that passes a test. -/
  | text (passes : String → Bool)
  /-- A natural number up to a limit. -/
  | natural (limit : Nat)
  | number
  | flag
  /-- Nothing but the name of its type, or an empty pair of parentheses. -/
  | unit (name : String)
  /-- A value in parentheses, after the name of its type if that is written. -/
  | enclosed (name : String) (content : Shape)
  /-- `None`, or a value after `Some`. -/
  | option (content : Shape)
  | tuple (size : Nat) (item : Shape)
  | list (item : Shape)
  | map (key value : Shape)
  | choice (variants : Variants)
  /-- Fields in parentheses, after the name of their type if that is written. -/
  | record (name : String) (fields : Fields)

/-- The names one of which stands here, some of them followed by a value in parentheses. -/
inductive Variants
  | nil
  | symbol (name : String) (others : Variants)
  | enclosed (name : String) (content : Shape) (others : Variants)

/-- The fields of a record. -/
inductive Fields
  | nil
  | required (name : String) (shape : Shape) (others : Fields)
  /-- A field with the value it has when it is left out. -/
  | optional (name : String) (shape : Shape) (absent : Value) (others : Fields)

end

/-- The name of a type where it may be left out: if any name stands here it is this one. -/
def readTypeName (name : String) (s : List Char) : Except ReadError (Bool × List Char) :=
  if s.head?.any isNameChar then
    match readName s with
    | some (found, s) => if found = name then .ok (true, s) else .error .malformed
    | none => .error .malformed
  else .ok (false, s)

/-- The values of the fields, in order, from those found in a record. -/
def Fields.collect : Fields → List (String × Value) → Except ReadError (List (String × Value))
  | .nil, _ => .ok []
  | .required name _ others, found =>
    match found.lookup name with
    | none => .error (.missingField name)
    | some v => (others.collect found).map ((name, v) :: ·)
  | .optional name _ absent others, found =>
    (others.collect found).map ((name, (found.lookup name).getD absent) :: ·)

mutual

/-- Read a value of a shape. Brackets hold at most `elements` elements, and unknown fields may spend
what the brackets around them leave of `depth`. -/
def Shape.read (elements depth : Nat) : Shape → Reader Value
  | .text passes, s =>
    match readText s with
    | some (t, s) => if passes t then .ok (.text t, s) else .error .malformed
    | none => .error .malformed
  | .natural limit, s => (lexeme (readNatural limit) s).map fun (n, s) => (.natural n, s)
  | .number, s => (lexeme readNumber s).map fun (x, s) => (.number x, s)
  | .flag, s =>
    (lexeme (readOneOf [("true", true), ("false", false)]) s).map fun (b, s) => (.flag b, s)
  | .unit name, s =>
    match readTypeName name s with
    | .error e => .error e
    | .ok (true, s) => .ok (.symbol name, s)
    | .ok (false, '(' :: ')' :: s) => .ok (.symbol name, s)
    | .ok (false, _) => .error .malformed
  | .enclosed name content, s => do
    let (_, s) ← readTypeName name s
    let (v, s) ← readEnclosed (content.read elements (depth - 1)) s
    .ok (.enclosed name v, s)
  | .option content, s =>
    match readOneOf [("None", false), ("Some", true)] s with
    | none => .error .malformed
    | some (false, s) => .ok (.symbol "None", s)
    | some (true, s) => do
      let (v, s) ← readEnclosed (content.read elements (depth - 1)) s
      .ok (.enclosed "Some" v, s)
  | .tuple size item, s =>
    match s with
    | '(' :: s =>
      match readElements ')' (item.read elements (depth - 2)) elements s with
      | .error e => .error e
      | .ok (items, s) => if items.length = size then .ok (.tuple items, s) else .error .malformed
    | _ => .error .malformed
  | .list item, s =>
    match s with
    | '[' :: s =>
      (readElements ']' (item.read elements (depth - 2)) elements s).map fun (items, s) =>
        (.list items, s)
    | _ => .error .malformed
  | .map key value, s =>
    match s with
    | '\x7b' :: s =>
      let entry : Reader (Value × Value) := fun s => do
        let (k, s) ← key.read elements (depth - 2) s
        let (v, s) ← readAfterColon (value.read elements (depth - 2)) s
        .ok ((k, v), s)
      (readElements '\x7d' entry elements s).map fun (entries, s) => (.map entries, s)
    | _ => .error .malformed
  | .choice variants, s =>
    match readName s with
    | none => .error .malformed
    | some (name, s) => variants.read elements depth name s
  | .record name fields, s => do
    let (_, s) ← readTypeName name s
    let s ← lexeme (readMark '(') s
    let field : List (String × Value) → Reader (List (String × Value)) := fun found s => do
      let (key, s) ← lexeme readName s
      match fields.reader? elements (depth - 2) key with
      | none =>
        let (_, s) ← readAfterColon (skipValue elements (depth - 2)) s
        .ok (found, s)
      | some read =>
        if (found.lookup key).isSome then .error (.duplicateField key)
        else do
          let (v, s) ← readAfterColon read s
          .ok ((key, v) :: found, s)
    let (found, s) ← foldElements ')' field elements [] s
    let values ← fields.collect found
    .ok (.record name values, s)

/-- Read what follows the name of a variant. -/
def Variants.read (elements depth : Nat) : Variants → String → Reader Value
  | .nil, name, _ => .error (.unknownVariant name)
  | .symbol known others, name, s =>
    if known = name then .ok (.symbol name, s) else others.read elements depth name s
  | .enclosed known content others, name, s =>
    if known = name then do
      let (v, s) ← readEnclosed (content.read elements (depth - 2)) s
      .ok (.enclosed name v, s)
    else others.read elements depth name s

/-- The reader of the field of a name. -/
def Fields.reader? (elements depth : Nat) : Fields → String → Option (Reader Value)
  | .nil, _ => none
  | .required known shape others, name =>
    if known = name then some fun s => shape.read elements depth s
    else others.reader? elements depth name
  | .optional known shape _ others, name =>
    if known = name then some fun s => shape.read elements depth s
    else others.reader? elements depth name

end

/-- Read a document that holds a value of a shape and nothing else. No bracket of a document has
more elements than the document has characters. -/
def readDocument (shape : Shape) (document : String) : Except ReadError Value := do
  let s ← lexeme skipGap document.toList
  let (v, s) ← shape.read document.length maxDepth s
  let s ← lexeme skipGap s
  if s.isEmpty then .ok v else .error .malformed

end ShaderGraph.Document
