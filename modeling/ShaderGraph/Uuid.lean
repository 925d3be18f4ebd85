import ShaderGraph.Hexadecimal

/-!
# Unique identifiers

A 128-bit identifier and its texts. The one written is 32 lower-case hexadecimal digits in groups
of 8, 4, 4, 4 and 12 (`toText`); read are also the digits alone, the groups in braces and the groups
after `urn:uuid:`, with letters of either case (`ofText?`).
-/

namespace ShaderGraph

/-- A 128-bit identifier. -/
structure Uuid where
  bits : BitVec 128
deriving DecidableEq

namespace Uuid

/-- The identifier with the given number, modulo `2 ^ 128`. -/
def ofNat (n : Nat) : Uuid := ⟨BitVec.ofNat 128 n⟩

/-- The 32 digits of the identifier. -/
def digits (u : Uuid) : List Char :=
  (Nat.toDigits 16 u.bits.toNat).leftpad 32 '0'

/-- The groups of 8, 4, 4, 4 and 12 characters, with hyphens between them. -/
def hyphenate (cs : List Char) : List Char :=
  cs.take 8 ++ '-' :: ((cs.drop 8).take 4 ++ '-' :: ((cs.drop 12).take 4 ++
    '-' :: ((cs.drop 16).take 4 ++ '-' :: cs.drop 20)))

/-- The characters of the groups, if hyphens stand exactly where `hyphenate` puts them. -/
def unhyphenate? (cs : List Char) : Option (List Char) :=
  let groups := cs.take 8 ++ ((cs.drop 9).take 4 ++ ((cs.drop 14).take 4 ++
    ((cs.drop 19).take 4 ++ cs.drop 24)))
  if cs = hyphenate groups then some groups else none

/-- The canonical text. -/
def toText (u : Uuid) : String := String.ofList (hyphenate u.digits)

/-- The digits inside one of the four written forms. -/
def digitsOf? (cs : List Char) : Option (List Char) :=
  if cs.length = 32 then some cs
  else if cs.length = 36 then unhyphenate? cs
  else if cs.length = 38 ∧ cs.head? = some '\x7b' ∧ cs.getLast? = some '\x7d' then
    unhyphenate? (cs.tail.dropLast)
  else if cs.length = 45 ∧ (cs.take 9).map Char.toLower = "urn:uuid:".toList then
    unhyphenate? (cs.drop 9)
  else none

/-- The identifier a text stands for. -/
def ofText? (s : String) : Option Uuid :=
  (digitsOf? s.toList).bind fun cs => (hexNumber? cs).map ofNat

end Uuid

/-- The identity of a node. -/
structure NodeId where
  uuid : Uuid
deriving DecidableEq

/-- The identity of a connection. -/
structure ConnectionId where
  uuid : Uuid
deriving DecidableEq

end ShaderGraph
