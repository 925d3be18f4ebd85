import Mathlib.Algebra.Order.Ring.Nat
import Mathlib.Tactic.Ring
import ShaderGraph.Binary32.Shortest

/-!
# The shortest decimal rounds back

A ratio that lies less than half a unit from a finite magnitude is rounded to it. On the finest grid
one of the two neighbours of a magnitude lies that close, so the search over the grids always ends
with a decimal, and whatever it ends with has been rounded back.

* `nearest_of_close` : what is rounded to a given magnitude;
* `nearest_mul` : a ratio may be expanded;
* `nearestDecimal_shortest` : the shortest decimal rounds back to its magnitude;
* `ofMagnitude_magnitude` : a number is its sign and its magnitude;
* `canonical` : the number that is left of one when it is written and read.
-/

namespace ShaderGraph.Binary32

variable {num den c m : ℕ}

section Rounding

/-- Within less than half a step of `c` the quotient is rounded to `c`. -/
theorem roundedQuotient_of_close (hlow : 2 * (c * den) < 2 * num + den)
    (hhigh : 2 * num < 2 * (c * den) + den) : roundedQuotient num den = c := by
  have hden : 0 < den := by omega
  have hsplit : num / den * den + num % den = num := Nat.div_add_mod' num den
  have hrest : num % den < den := Nat.mod_lt num hden
  unfold roundedQuotient
  generalize num / den = q at hsplit ⊢
  generalize num % den = r at hsplit hrest ⊢
  have hle : ∀ {a b : ℕ}, a * den < b * den → a < b := fun h => Nat.lt_of_mul_lt_mul_right h
  simp only
  split_ifs with hbelow habove
  · have h₁ : c * den < (q + 1) * den := by rw [Nat.add_mul]; omega
    have h₂ : q * den < (c + 1) * den := by rw [Nat.add_mul]; omega
    have := hle h₁
    have := hle h₂
    omega
  · have h₁ : c * den < (q + 2) * den := by rw [Nat.add_mul]; omega
    have h₂ : q * den < c * den := by omega
    have := hle h₁
    have := hle h₂
    omega
  · have h₁ : c * den < (q + 1) * den := by rw [Nat.add_mul]; omega
    have h₂ : q * den < c * den := by omega
    have := hle h₁
    have := hle h₂
    omega

/-- Once the scale is known, a ratio close to `c` steps of it is rounded to the magnitude of `c`. -/
theorem nearest_of_scale {s : ℕ} (hm : m < infinite) (hs : (num <<< 149 / den).log2 - 23 = s)
    (hunits : units m = c * 2 ^ s) (hc : s * binade + c = m)
    (hlow : 2 * (units m * den) < 2 * (num <<< 149) + den)
    (hhigh : 2 * (num <<< 149) < 2 * (units m * den) + den) : nearest num den = m := by
  have hstep : den ≤ den * 2 ^ s := Nat.le_mul_of_pos_right den (Nat.two_pow_pos s)
  have hmul : units m * den = c * (den * 2 ^ s) := by rw [hunits]; ring
  have hquotient : roundedQuotient (num <<< 149) (den <<< s) = c := by
    rw [Nat.shiftLeft_eq den s]
    exact roundedQuotient_of_close (by omega) (by omega)
  unfold nearest
  simp only [hs, hquotient, hc]
  exact Nat.min_eq_left hm.le

theorem units_of_lt (hm : m < 2 * binade) : units m = m := by
  unfold units
  split_ifs with hsmall
  · rfl
  · have hdiv : m / binade = 1 := by
      refine Nat.div_eq_of_lt_le ?_ ?_ <;> omega
    have hmod := Nat.div_add_mod' m binade
    rw [hdiv] at hmod ⊢
    simpa using hmod

theorem units_of_le (hm : binade ≤ m) :
    units m = (binade + m % binade) * 2 ^ (m / binade - 1) := by
  rw [units, if_neg (by omega), Nat.shiftLeft_eq]

/-- A quotient of one scale above the units, or one below a power of two that ends them. -/
theorem nearest_of_close_of_le {k f : ℕ} (hm : m < infinite) (hf : f < binade)
    (hmk : (k + 2) * binade + f = m) (hunits : units m = (binade + f) * 2 ^ (k + 1))
    (hlow : 2 * (units m * den) < 2 * (num <<< 149) + den)
    (hhigh : 2 * (num <<< 149) < 2 * (units m * den) + den)
    (hle : num <<< 149 / den ≤ units m) (hge : units m - 1 ≤ num <<< 149 / den) :
    nearest num den = m := by
  have hbinade : binade = 2 ^ 23 := rfl
  have hpow : 2 ^ (k + 24) = 2 ^ 23 * 2 ^ (k + 1) := by ring
  have hupper : (binade + f) * 2 ^ (k + 1) < 2 ^ 24 * 2 ^ (k + 1) :=
    Nat.mul_lt_mul_of_pos_right (by omega) (Nat.two_pow_pos _)
  have hlower : 2 ^ 23 * 2 ^ (k + 1) ≤ (binade + f) * 2 ^ (k + 1) :=
    Nat.mul_le_mul_right _ (by omega)
  have hpos := Nat.two_pow_pos (k + 23)
  have hdouble : 2 ^ (k + 24) = 2 * 2 ^ (k + 23) := by ring
  by_cases hscale : 2 ^ (k + 24) ≤ num <<< 149 / den
  · have hlog : (num <<< 149 / den).log2 = k + 24 := by
      rw [Nat.log2_eq_iff (by omega)]
      refine ⟨hscale, ?_⟩
      have hnext : 2 ^ (k + 24 + 1) = 2 ^ 24 * 2 ^ (k + 1) := by ring
      omega
    refine nearest_of_scale hm (s := k + 1) (c := binade + f) (by omega) hunits ?_ hlow hhigh
    rw [← hmk]
    ring
  · -- then the units are the power of two itself, counted as twice as many half steps
    have hpower : (binade + f) * 2 ^ (k + 1) = 2 ^ 23 * 2 ^ (k + 1) := by omega
    obtain rfl : f = 0 := by
      have := Nat.eq_of_mul_eq_mul_right (Nat.two_pow_pos _) hpower
      omega
    have hlog : (num <<< 149 / den).log2 = k + 23 := by
      rw [Nat.log2_eq_iff (by omega)]
      exact ⟨by omega, by omega⟩
    refine nearest_of_scale hm (s := k) (c := 2 * binade) (by omega) ?_ ?_ hlow hhigh
    · rw [hunits]
      ring
    · rw [← hmk]
      ring

/-- What lies less than half a unit from a finite magnitude is rounded to it. -/
theorem nearest_of_close (hm : m < infinite)
    (hlow : 2 * (units m * den) < 2 * (num <<< 149) + den)
    (hhigh : 2 * (num <<< 149) < 2 * (units m * den) + den) : nearest num den = m := by
  have hden : 0 < den := by omega
  have hle : num <<< 149 / den ≤ units m := by
    refine Nat.le_of_lt_succ ((Nat.div_lt_iff_lt_mul hden).2 ?_)
    rw [Nat.succ_mul]
    omega
  have hge : units m - 1 ≤ num <<< 149 / den := by
    rw [Nat.le_div_iff_mul_le hden, Nat.sub_mul]
    omega
  have hbinade : binade = 2 ^ 23 := rfl
  by_cases hsmall : m < 2 * binade
  · -- the steps are units here
    have hunits := units_of_lt hsmall
    have hlog : (num <<< 149 / den).log2 < 24 := by
      by_cases hzero : num <<< 149 / den = 0
      · rw [hzero]
        decide
      · rw [Nat.log2_lt hzero]
        omega
    exact nearest_of_scale hm (s := 0) (c := m) (by omega) (by simpa using hunits) (by omega)
      hlow hhigh
  · obtain ⟨k, hk⟩ : ∃ k, m / binade = k + 2 := by
      have hdiv : 2 ≤ m / binade := (Nat.le_div_iff_mul_le (by decide)).2 (by omega)
      exact ⟨m / binade - 2, by omega⟩
    have hmod := Nat.div_add_mod' m binade
    have hunits := units_of_le (m := m) (by omega)
    rw [hk] at hmod hunits
    exact nearest_of_close_of_le hm (Nat.mod_lt m (by decide)) hmod hunits hlow hhigh hle hge

/-- A ratio may be expanded. -/
theorem nearest_mul {k : ℕ} (hk : 0 < k) (num den : ℕ) :
    nearest (k * num) (k * den) = nearest num den := by
  have hquotient : ∀ a b, roundedQuotient (k * a) (k * b) = roundedQuotient a b := by
    intro a b
    have hless : ∀ x y, k * x < k * y ↔ x < y := fun x y => Nat.mul_lt_mul_left hk
    have hrest : 2 * (k * a % (k * b)) = k * (2 * (a % b)) := by
      rw [Nat.mul_mod_mul_left]
      ring
    unfold roundedQuotient
    simp only [hrest, hless, Nat.mul_div_mul_left a b hk]
  have hnum : (k * num) <<< 149 = k * (num <<< 149) := by
    rw [Nat.shiftLeft_eq, Nat.shiftLeft_eq, Nat.mul_assoc]
  have hden : ∀ s, (k * den) <<< s = k * (den <<< s) := fun s => by
    rw [Nat.shiftLeft_eq, Nat.shiftLeft_eq, Nat.mul_assoc]
  unfold nearest
  simp only [hnum, hden, hquotient, Nat.mul_div_mul_left _ _ hk]

end Rounding

section Shortest

/-- What a grid gives was rounded back. -/
theorem nearestDecimal_of_onGrid {e : ℤ} {d : Decimal} (h : onGrid m e = some d) :
    nearestDecimal d.digits d.exponent = m := by
  unfold onGrid at h
  dsimp only at h
  split_ifs at h with hbelow habove
  · obtain rfl := Option.some.inj h
    rw [Bool.and_eq_true, beq_iff_eq] at hbelow
    exact hbelow.1
  · obtain rfl := Option.some.inj h
    exact beq_iff_eq.1 habove

theorem isSome_onGrid {e : ℤ} (below : ℕ) (hbelow : (gridRatio m e).1 / (gridRatio m e).2 = below)
    (h : nearestDecimal below e = m ∨ nearestDecimal (below + 1) e = m) :
    (onGrid m e).isSome = true := by
  unfold onGrid
  simp only [hbelow]
  obtain h | h := h <;> simp only [h, beq_self_eq_true, Bool.true_and] <;> split_ifs <;> simp_all

/-- The finest grid is finer than every step: one of the two neighbours is rounded back. -/
theorem isSome_onGrid_finest (hm : m < infinite) : (onGrid m (.negSucc 44)).isSome = true := by
  have hsplit := Nat.div_add_mod' (units m * 10 ^ 45) (2 ^ 149)
  have hrest : units m * 10 ^ 45 % 2 ^ 149 < 2 ^ 149 := Nat.mod_lt _ (Nat.two_pow_pos _)
  have hratio : gridRatio m (.negSucc 44) = (units m * 10 ^ 45, 2 ^ 149) := rfl
  refine isSome_onGrid (units m * 10 ^ 45 / 2 ^ 149) (by rw [hratio]) ?_
  generalize units m * 10 ^ 45 / 2 ^ 149 = below at hsplit ⊢
  generalize units m * 10 ^ 45 % 2 ^ 149 = r at hsplit hrest
  have hdecimal : ∀ n, nearestDecimal n (.negSucc 44) = nearest n (10 ^ 45) := fun _ => rfl
  rw [hdecimal, hdecimal]
  by_cases hhalf : r ≤ 2 ^ 148
  · refine .inl (nearest_of_close hm ?_ ?_) <;> rw [Nat.shiftLeft_eq] <;> omega
  · refine .inr (nearest_of_close hm ?_ ?_) <;> rw [Nat.shiftLeft_eq, Nat.add_mul] <;> omega

/-- The shortest decimal of a finite magnitude is rounded back to it. -/
theorem nearestDecimal_shortest (hm : m < infinite) :
    nearestDecimal (shortest m).digits (shortest m).exponent = m := by
  unfold shortest
  split_ifs with hzero
  · rw [hzero]
    decide
  · have hfinest : (.negSucc 44 : ℤ) ∈ grids := by decide
    have hsome : (grids.findSome? (onGrid m)).isSome = true :=
      List.findSome?_isSome_iff.2 ⟨_, hfinest, isSome_onGrid_finest hm⟩
    obtain ⟨d, hd⟩ := Option.isSome_iff_exists.1 hsome
    obtain ⟨e, -, he⟩ := List.exists_of_findSome?_eq_some hd
    rw [hd, Option.getD_some]
    exact nearestDecimal_of_onGrid he

example : shortest 1 = ⟨1, -45⟩ := by decide +kernel

end Shortest

section Words

theorem ofMagnitude_magnitude (x : Binary32) : ofMagnitude x.negative x.magnitude = x := by
  obtain ⟨word⟩ := x
  have hlt := word.toNat_lt
  have hword : (if signBit ≤ word.toNat then signBit + word.toNat % signBit
      else word.toNat % signBit) = word.toNat := by
    unfold signBit
    split_ifs <;> omega
  unfold ofMagnitude negative magnitude
  simp only [decide_eq_true_eq, hword]
  rw [UInt32.ofNat_toNat]

/-- The number that a text can give back: one word stands for everything that is no number. -/
def canonical (x : Binary32) : Binary32 := if x.isNaN then nan else x

end Words

end ShaderGraph.Binary32
