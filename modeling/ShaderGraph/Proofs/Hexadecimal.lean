import Mathlib.Data.List.TakeDrop
import ShaderGraph.Uuid

/-!
# Written digits are read back

The digits of a number are read one after the other, each adding its value to a multiple of what was
read before, so the digits that are written for a number give it back. Identifiers are written as
such digits, in groups.

* `foldlM_toDigits` : any reader of digits inverts `Nat.toDigits`;
* `Uuid.ofText?_toText` : the text of an identifier stands for it.
-/

namespace ShaderGraph

section Digits

theorem hexDigit?_digitChar : ∀ d < 16, hexDigit? d.digitChar = some d := by decide

/-- A reader that adds the value of a digit to `b` times what was read before reads what is written
in base `b`. -/
theorem foldlM_toDigits {b : ℕ} (hb : 1 < b) {f : ℕ → Char → Option ℕ}
    (hf : ∀ n, ∀ d < b, f n d.digitChar = some (b * n + d)) (n : ℕ) :
    (Nat.toDigits b n).foldlM f 0 = some n := by
  induction n using Nat.strongRecOn with
  | ind n ih =>
    rw [Nat.toDigits_eq_if hb]
    split_ifs with hn
    · simp [hf 0 n hn]
    · have hlt : n / b < n := Nat.div_lt_self (by omega) hb
      have hmod : n % b < b := Nat.mod_lt n (by omega)
      rw [List.foldlM_append, ih _ hlt]
      simp [hf _ _ hmod, Nat.div_add_mod]

theorem hexNumber?_toDigits (n : ℕ) : hexNumber? (Nat.toDigits 16 n) = some n := by
  refine foldlM_toDigits (by decide) (fun n d hd => ?_) n
  rw [hexDigit?_digitChar d hd]
  rfl

theorem hexNumber?_zeros (k : ℕ) (cs : List Char) :
    hexNumber? (List.replicate k '0' ++ cs) = hexNumber? cs := by
  induction k with
  | zero => rfl
  | succ k ih =>
    rw [← ih]
    rfl

theorem hexNumber?_leftpad (k n : ℕ) :
    hexNumber? ((Nat.toDigits 16 n).leftpad k '0') = some n := by
  rw [List.leftpad, hexNumber?_zeros, hexNumber?_toDigits]

end Digits

namespace Uuid

variable {cs : List Char}

theorem length_digits (u : Uuid) : u.digits.length = 32 := by
  have hlen : (Nat.toDigits 16 u.bits.toNat).length ≤ 32 := by
    rw [Nat.length_toDigits_le_iff (by decide) (by decide)]
    exact u.bits.isLt
  rw [digits, List.leftpad, List.length_append, List.length_replicate]
  omega

theorem length_hyphenate (h : cs.length = 32) : (hyphenate cs).length = 36 := by
  simp [hyphenate, h]

/-- The characters between the hyphens are the groups. -/
theorem unhyphenate?_hyphenate (h : cs.length = 32) : unhyphenate? (hyphenate cs) = some cs := by
  have hgroups : (hyphenate cs).take 8 ++ (((hyphenate cs).drop 9).take 4 ++
      (((hyphenate cs).drop 14).take 4 ++ (((hyphenate cs).drop 19).take 4 ++
        (hyphenate cs).drop 24))) = cs := by
    have h₁ : (cs.take 8).length = 8 := by simp [h]
    have h₂ : ((cs.drop 8).take 4).length = 4 := by simp [h]
    have h₃ : ((cs.drop 12).take 4).length = 4 := by simp [h]
    have h₄ : ((cs.drop 16).take 4).length = 4 := by simp [h]
    have hcs : cs = cs.take 8 ++ ((cs.drop 8).take 4 ++ ((cs.drop 12).take 4 ++
        ((cs.drop 16).take 4 ++ cs.drop 20))) := by
      have hdrop : ∀ n, (cs.drop n).take 4 ++ cs.drop (n + 4) = cs.drop n := fun n => by
        rw [← List.drop_drop, List.take_append_drop]
      rw [hdrop 16, hdrop 12, hdrop 8, List.take_append_drop]
    unfold hyphenate
    generalize cs.take 8 = a at *
    generalize (cs.drop 8).take 4 = b at *
    generalize (cs.drop 12).take 4 = c at *
    generalize (cs.drop 16).take 4 = d at *
    generalize cs.drop 20 = e at *
    rw [hcs]
    simp (disch := omega) [List.drop_append, List.drop_eq_nil_of_le, h₁, h₂, h₃, h₄]
  unfold unhyphenate?
  simp only [hgroups, if_true]

/-- The text of an identifier stands for it. -/
theorem ofText?_toText (u : Uuid) : ofText? u.toText = some u := by
  have hlen := length_hyphenate u.length_digits
  have hdigits : digitsOf? (hyphenate u.digits) = some u.digits := by
    rw [digitsOf?, if_neg (by omega), if_pos hlen, unhyphenate?_hyphenate u.length_digits]
  rw [ofText?, toText, String.toList_ofList, hdigits, Option.bind_some, digits, hexNumber?_leftpad]
  obtain ⟨bits⟩ := u
  simp [ofNat]

end Uuid

end ShaderGraph
