import Mathlib.Algebra.Group.Nat.Defs
import Mathlib.Data.Nat.Bitwise

/-!
# Rounding with bit masks

In `w` bits, clearing the `k` low bits of a number rounds it down to a multiple of `2 ^ k`.
-/

namespace Align

lemma testBit_mask {w k : Nat} (h : k ≤ w) (i : Nat) :
    (2 ^ w - 1 - (2 ^ k - 1)).testBit i = (decide (i < w) && !decide (i < k)) := by
  have hle : 2 ^ k ≤ 2 ^ w := Nat.pow_le_pow_right (by omega) h
  have hpos : 0 < 2 ^ k := Nat.two_pow_pos k
  have hmask : 2 ^ w - 1 - (2 ^ k - 1) = 2 ^ w - (2 ^ k - 1 + 1) := by omega
  rw [hmask, Nat.testBit_two_pow_sub_succ (by omega), Nat.testBit_two_pow_sub_one]

lemma and_mask {w k x : Nat} (h : k ≤ w) (hx : x < 2 ^ w) :
    x &&& (2 ^ w - 1 - (2 ^ k - 1)) = 2 ^ k * (x / 2 ^ k) := by
  apply Nat.eq_of_testBit_eq
  intro i
  rw [Nat.testBit_and, testBit_mask h, Nat.testBit_two_pow_mul, Nat.testBit_div_two_pow]
  by_cases hik : k ≤ i
  · have hback : i - k + k = i := by omega
    rw [hback]
    by_cases hiw : i < w
    · simp [hik, hiw]
    · have hhigh : x.testBit i = false :=
        Nat.testBit_lt_two_pow (lt_of_lt_of_le hx (Nat.pow_le_pow_right (by omega) (by omega)))
      simp [hhigh]
  · have hlow : i < k := not_le.mp hik
    simp [hik, hlow]

lemma and_mask_and_mask (x m : Nat) : x &&& m &&& m = x &&& m := by
  rw [Nat.and_assoc, Nat.and_self]

lemma le_mul_div {d x y : Nat} (h : d ∣ y) (hy : y ≤ x) : y ≤ d * (x / d) := by
  obtain ⟨q, rfl⟩ := h
  rcases Nat.eq_zero_or_pos d with rfl | hd
  · simp
  · exact Nat.mul_le_mul_left d ((Nat.le_div_iff_mul_le hd).mpr (by rwa [mul_comm]))

def roundUp (d x : Nat) : Nat := d * ((x + (d - 1)) / d)

lemma le_roundUp {d : Nat} (hd : 0 < d) (x : Nat) : x ≤ roundUp d x := by
  have hdiv := Nat.div_add_mod (x + (d - 1)) d
  have hmod := Nat.mod_lt (x + (d - 1)) hd
  unfold roundUp
  omega

lemma roundUp_of_dvd {d x : Nat} (pos : 0 < d) (h : d ∣ x) : roundUp d x = x := by
  obtain ⟨q, rfl⟩ := h
  have hdiv : (d * q + (d - 1)) / d = q := by
    rw [Nat.mul_add_div pos, Nat.div_eq_of_lt (by omega), Nat.add_zero]
  rw [roundUp, hdiv]

end Align
