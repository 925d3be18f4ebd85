import ShaderGraph.Binary32

/-!
# Rounding to binary32

`nearest` gives the magnitude closest to a ratio of natural numbers, a tie going to the even word,
and `infinite` for all that lies past the largest finite magnitude by half a step or more. A decimal
is such a ratio (`ofDecimal`), so a decimal is rounded once, from its exact value.
-/

namespace ShaderGraph.Binary32

/-- The quotient rounded to the nearest whole number, a half going to the even neighbour. -/
def roundedQuotient (num den : Nat) : Nat :=
  let quotient := num / den
  let rest := 2 * (num % den)
  if rest < den then quotient
  else if den < rest then quotient + 1
  else quotient + quotient % 2

/-- The magnitude nearest to `num / den`. The step between neighbours is `2 ^ scale` units, and a
significand that rounds up to `2 ^ 24` carries into the next scale by itself. -/
def nearest (num den : Nat) : Nat :=
  let units := num <<< 149
  let scale := (units / den).log2 - 23
  min (scale * binade + roundedQuotient units (den <<< scale)) infinite

/-- The magnitude nearest to `digits * 10 ^ exponent`. -/
def nearestDecimal (digits : Nat) : Int → Nat
  | .ofNat e => nearest (digits * Nat.pow 10 e) 1
  | .negSucc e => nearest digits (Nat.pow 10 (e + 1))

/-- The number nearest to `± digits * 10 ^ exponent`. -/
def ofDecimal (negative : Bool) (digits : Nat) (exponent : Int) : Binary32 :=
  ofMagnitude negative (nearestDecimal digits exponent)

end ShaderGraph.Binary32
