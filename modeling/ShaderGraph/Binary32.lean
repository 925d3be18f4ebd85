/-!
# Binary32 words

A component of a constant is held as its 32-bit interchange word: the sign in the top bit, below it
the magnitude. Magnitudes are ordered as natural numbers, those below `infinite` are finite, and a
finite magnitude stands for a whole number of `2 ^ (-149)`, its `units`.

`finite` clamps a number into what a shader literal can hold.
-/

namespace ShaderGraph

/-- A binary32 number, held as its interchange word. -/
structure Binary32 where
  word : UInt32
deriving DecidableEq

namespace Binary32

/-- The magnitude of the infinities; smaller ones are finite, larger ones are not numbers. -/
def infinite : Nat := 0x7f800000

/-- The largest finite magnitude. -/
def largest : Nat := 0x7f7fffff

/-- The weight of the sign bit. -/
def signBit : Nat := 0x80000000

/-- How many magnitudes share one distance to their neighbours: 2 to the 23rd. -/
def binade : Nat := 0x800000

/-- The word without its sign bit. -/
def magnitude (x : Binary32) : Nat := x.word.toNat % signBit

/-- Whether the sign bit is set, as it also is on `-0`. -/
def negative (x : Binary32) : Bool := signBit ≤ x.word.toNat

/-- The number of a given sign and magnitude. -/
def ofMagnitude (negative : Bool) (m : Nat) : Binary32 :=
  ⟨UInt32.ofNat (if negative then signBit + m else m)⟩

/-- Not a number. -/
def isNaN (x : Binary32) : Bool := infinite < x.magnitude

/-- A number other than the infinities. -/
def isFinite (x : Binary32) : Bool := x.magnitude < infinite

/-- The value of a finite magnitude as a whole number of `2 ^ (-149)`. -/
def units (m : Nat) : Nat :=
  if m < binade then m else (binade + m % binade) <<< (m / binade - 1)

def zero : Binary32 := ⟨0⟩
def half : Binary32 := ⟨0x3f000000⟩
def one : Binary32 := ⟨0x3f800000⟩

/-- The word that stands for every not-a-number a document or a host writes. -/
def nan : Binary32 := ⟨0x7fc00000⟩

/-- What a shader literal can hold: not-a-number becomes zero, and an infinity the largest finite
number of its sign. -/
def finite (x : Binary32) : Binary32 :=
  if x.isNaN then zero
  else if x.isFinite then x
  else ofMagnitude x.negative largest

end Binary32

end ShaderGraph
