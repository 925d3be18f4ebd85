import ShaderGraph.Binary32.Rounding

/-!
# Shortest decimals

The text of a number is the decimal with the fewest digits that rounds back to it. A grid is the
multiples of a power of ten; only the two neighbours of a number on a grid can be its nearest
points there, so `onGrid` tries these two, and `shortest` takes the coarsest grid with a hit.

* `shortest` : the decimal, of two on the same grid the nearer one, a tie going up;
* `positional` : its text without an exponent.
-/

namespace ShaderGraph

/-- The number `digits * 10 ^ exponent`. -/
structure Decimal where
  digits : Nat
  exponent : Int
deriving DecidableEq

namespace Decimal

/-- The text without an exponent: no point when the number is a multiple of one. -/
def positional (d : Decimal) : List Char :=
  match d.exponent with
  | .ofNat e => Nat.toDigits 10 (d.digits * Nat.pow 10 e)
  | .negSucc e =>
    Nat.toDigits 10 (d.digits / Nat.pow 10 (e + 1)) ++
      '.' :: (Nat.toDigits 10 (d.digits % Nat.pow 10 (e + 1))).leftpad (e + 1) '0'

end Decimal

namespace Binary32

/-- The position of a magnitude on the grid of multiples of `10 ^ exponent`, as a ratio. -/
def gridRatio (m : Nat) : Int → Nat × Nat
  | .ofNat e => (units m, Nat.pow 10 e <<< 149)
  | .negSucc e => (units m * Nat.pow 10 (e + 1), 1 <<< 149)

/-- The point of a grid that rounds to `m`, the nearer one if both neighbours do. -/
def onGrid (m : Nat) (exponent : Int) : Option Decimal :=
  let (num, den) := gridRatio m exponent
  let below := num / den
  let above := below + 1
  let hitsBelow := nearestDecimal below exponent == m
  let hitsAbove := nearestDecimal above exponent == m
  if hitsBelow && (!hitsAbove || 2 * (num % den) < den) then some ⟨below, exponent⟩
  else if hitsAbove then some ⟨above, exponent⟩
  else none

/-- The grids from the coarsest that can hold a finite magnitude to one finer than every step. -/
def grids : List Int :=
  (List.range 84).map fun i => 38 - Int.ofNat i

/-- The decimal with the fewest digits that rounds to the finite magnitude `m`. -/
def shortest (m : Nat) : Decimal :=
  if m = 0 then ⟨0, 0⟩ else (grids.findSome? (onGrid m)).getD ⟨0, 0⟩

/-- The text of the number: digits without an exponent, `inf`, or `NaN`. -/
def text (x : Binary32) : List Char :=
  if x.isNaN then ['N', 'a', 'N']
  else
    let digits := if x.isFinite then (shortest x.magnitude).positional else ['i', 'n', 'f']
    if x.negative then '-' :: digits else digits

end Binary32

end ShaderGraph
