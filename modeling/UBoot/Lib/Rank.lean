import Mathlib.Data.Nat.Count

/-!
# Ranks among marked numbers

`rank p a b` counts the marked numbers from `a` up to `b`, so that it numbers the
marked ones from 0 on.
-/

namespace Rank

def rank (p : Nat → Bool) (a b : Nat) : Nat := Nat.count (fun k => p (a + k) = true) (b - a)

variable {p : Nat → Bool} {a b c : Nat}

@[simp] theorem rank_self (p : Nat → Bool) (a : Nat) : rank p a a = 0 := by
  rw [rank, Nat.sub_self, Nat.count_zero]

lemma rank_succ (h : a ≤ b) : rank p a (b + 1) = rank p a b + if p b then 1 else 0 := by
  have hsub : b + 1 - a = b - a + 1 := by omega
  have hadd : a + (b - a) = b := by omega
  rw [rank, rank, hsub, Nat.count_succ, hadd]

lemma rank_add (hab : a ≤ b) (hbc : b ≤ c) : rank p a c = rank p a b + rank p b c := by
  induction c, hbc using Nat.le_induction with
  | base => rw [rank_self, add_zero]
  | succ c hbc ih => rw [rank_succ (hab.trans hbc), rank_succ hbc, ih, add_assoc]

lemma rank_le_of_le (hab : a ≤ b) (hbc : b ≤ c) : rank p a b ≤ rank p a c := by
  rw [rank_add hab hbc]
  exact Nat.le_add_right _ _

lemma rank_le (p : Nat → Bool) (a b : Nat) : rank p a b ≤ b - a := Nat.count_le _

lemma rank_all (hab : a ≤ b) (h : ∀ i, a ≤ i → i < b → p i = true) : rank p a b = b - a := by
  induction b, hab using Nat.le_induction with
  | base => rw [rank_self, Nat.sub_self]
  | succ b hab ih =>
    rw [rank_succ hab, ih fun i hi hlt => h i hi (by omega), h b hab (Nat.lt_succ_self b), if_pos rfl]
    omega

lemma rank_none (hab : a ≤ b) (h : ∀ i, a ≤ i → i < b → p i = false) : rank p a b = 0 := by
  induction b, hab using Nat.le_induction with
  | base => rw [rank_self]
  | succ b hab ih =>
    rw [rank_succ hab, ih fun i hi hlt => h i hi (by omega), h b hab (Nat.lt_succ_self b)]
    rfl

lemma rank_stretch {w x : Nat} {v : Bool} (uniform : ∀ i, i < w → p (a + i) = v) (hx : x ≤ w) :
    rank p a (a + x) = if v then x else 0 := by
  have hmark : ∀ i, a ≤ i → i < a + x → p i = v := by
    intro i hi hlt
    rw [← uniform (i - a) (by omega), Nat.add_sub_cancel' hi]
  cases v with
  | true => rw [rank_all (Nat.le_add_right a x) hmark, Nat.add_sub_cancel_left, if_pos rfl]
  | false => rw [rank_none (Nat.le_add_right a x) hmark, if_neg (by decide)]

lemma all_of_rank (hab : a ≤ b) (h : rank p a b = b - a) {i : Nat} (hi : a ≤ i) (hlt : i < b) :
    p i = true := by
  by_contra hnot
  have hsplit : rank p a b = rank p a (i + 1) + rank p (i + 1) b :=
    rank_add (by omega) (by omega)
  rw [rank_succ hi, if_neg hnot] at hsplit
  have hlow := rank_le p a i
  have hhigh := rank_le p (i + 1) b
  omega

lemma none_of_rank (h : rank p a b = 0) {i : Nat} (hi : a ≤ i) (hlt : i < b) : p i = false := by
  by_contra hnot
  have hsplit : rank p a b = rank p a (i + 1) + rank p (i + 1) b :=
    rank_add (by omega) (by omega)
  rw [rank_succ hi, if_pos (by simpa using hnot)] at hsplit
  omega

lemma rank_mul {g : Nat → Bool} {w : Nat} (uniform : ∀ c i, i < w → p (c * w + i) = g c)
    (hab : a ≤ b) : rank p (a * w) (b * w) = rank g a b * w := by
  have hstretch : ∀ c i, c * w ≤ i → i < (c + 1) * w → p i = g c := by
    intro c i hi hlt
    rw [Nat.succ_mul] at hlt
    rw [← uniform c (i - c * w) (by omega), Nat.add_sub_cancel' hi]
  induction b, hab using Nat.le_induction with
  | base => rw [rank_self, rank_self, Nat.zero_mul]
  | succ b hab ih =>
    have hle : b * w ≤ (b + 1) * w := Nat.mul_le_mul_right _ (Nat.le_succ b)
    have hw : (b + 1) * w - b * w = w := by rw [Nat.succ_mul, Nat.add_sub_cancel_left]
    have hlast : rank p (b * w) ((b + 1) * w) = (if g b then 1 else 0) * w := by
      cases hg : g b with
      | true =>
        rw [rank_all hle fun i hi hlt => (hstretch b i hi hlt).trans hg, hw, if_pos rfl, one_mul]
      | false =>
        rw [rank_none hle fun i hi hlt => (hstretch b i hi hlt).trans hg, if_neg (by simp),
          Nat.zero_mul]
    rw [rank_add (Nat.mul_le_mul_right _ hab) hle, ih, hlast, rank_succ hab, Nat.add_mul]

lemma exists_rank {j : Nat} (h : j < rank p a b) :
    ∃ i, a ≤ i ∧ i < b ∧ p i = true ∧ rank p a i = j := by
  have hab : a ≤ b := by
    by_contra hlt
    have := rank_le p a b
    omega
  induction b, hab using Nat.le_induction with
  | base =>
    rw [rank_self] at h
    omega
  | succ b hab ih =>
    rw [rank_succ hab] at h
    by_cases hlt : j < rank p a b
    · obtain ⟨i, hi, hib, hp, hr⟩ := ih hlt
      exact ⟨i, hi, by omega, hp, hr⟩
    · split_ifs at h with hp
      · exact ⟨b, hab, Nat.lt_succ_self b, hp, by omega⟩
      · omega

end Rank
