import UBoot.Nand.Chip

/-!
# What the de-interleaving leaves

The buffer of `n` chunks, data and spare bytes by turns, becomes all the data and
then all the spare bytes. `source` says where a byte of the result comes from.
-/

namespace Shuffle

open Nand ByteMemory NandBase

/-- Where the byte at `x` comes from after `i` rounds: the data of the first `i` chunks come first,
then the chunks not reached yet, then the spare bytes of the first `i`. -/
def source (datasize oobsize n i x : Nat) : Nat :=
  if x < i * datasize then x / datasize * (datasize + oobsize) + x % datasize
  else if x < n * (datasize + oobsize) - i * oobsize then x + i * oobsize
  else
    let y := x - (n * (datasize + oobsize) - i * oobsize)
    y / oobsize * (datasize + oobsize) + datasize + y % oobsize

def arranged (datasize oobsize n i buf : Nat) (ram : Mem) : Mem := fun a =>
  if buf ≤ a ∧ a < buf + n * (datasize + oobsize) then
    ram (buf + source datasize oobsize n i (a - buf))
  else ram a

section

variable {datasize oobsize n i : Nat}

/-- The data and the spare bytes of chunk `i` of `n`, and where they end. -/
lemma chunk_sizes (datasize oobsize : Nat) (hi : i < n) :
    (i + 1) * datasize = i * datasize + datasize ∧ (i + 1) * datasize ≤ n * datasize ∧
    (i + 1) * oobsize = i * oobsize + oobsize ∧ (i + 1) * oobsize ≤ n * oobsize ∧
    n * (datasize + oobsize) = n * datasize + n * oobsize ∧
    i * (datasize + oobsize) = i * datasize + i * oobsize :=
  ⟨Nat.succ_mul _ _, Nat.mul_le_mul_right _ hi, Nat.succ_mul _ _, Nat.mul_le_mul_right _ hi,
    Nat.mul_add _ _ _, Nat.mul_add _ _ _⟩

lemma source_data {k c : Nat} (hk : k < i) (hc : c < datasize) :
    source datasize oobsize n i (k * datasize + c) = k * (datasize + oobsize) + c := by
  have hlt : k * datasize + c < i * datasize := by
    obtain ⟨hsucc, hdata, -⟩ := chunk_sizes datasize oobsize hk
    omega
  have hdiv : (k * datasize + c) / datasize = k := by
    rw [mul_comm, Nat.mul_add_div (by omega), Nat.div_eq_of_lt hc, add_zero]
  have hmod : (k * datasize + c) % datasize = c := by
    rw [mul_comm, Nat.mul_add_mod, Nat.mod_eq_of_lt hc]
  rw [source, if_pos hlt, hdiv, hmod]

lemma source_later {x : Nat} (hlow : i * datasize ≤ x)
    (hhigh : x < n * (datasize + oobsize) - i * oobsize) :
    source datasize oobsize n i x = x + i * oobsize := by
  rw [source, if_neg (Nat.not_lt.mpr hlow), if_pos hhigh]

lemma source_spare {k t : Nat} (hin : i ≤ n) (ht : t < oobsize) :
    source datasize oobsize n i (n * (datasize + oobsize) - i * oobsize + (k * oobsize + t)) =
      k * (datasize + oobsize) + datasize + t := by
  have hdata : i * datasize ≤ n * datasize := Nat.mul_le_mul_right _ hin
  have hspare : i * oobsize ≤ n * oobsize := Nat.mul_le_mul_right _ hin
  have htotal : n * (datasize + oobsize) = n * datasize + n * oobsize := Nat.mul_add _ _ _
  have hdiv : (k * oobsize + t) / oobsize = k := by
    rw [mul_comm, Nat.mul_add_div (by omega), Nat.div_eq_of_lt ht, add_zero]
  have hmod : (k * oobsize + t) % oobsize = t := by
    rw [mul_comm, Nat.mul_add_mod, Nat.mod_eq_of_lt ht]
  rw [source, if_neg (by omega), if_neg (by omega)]
  dsimp only
  rw [Nat.add_sub_cancel_left, hdiv, hmod]

lemma source_zero {x : Nat} (h : x < n * (datasize + oobsize)) :
    source datasize oobsize n 0 x = x := by
  rw [source_later (by omega) (by omega), zero_mul, add_zero]

lemma source_round_before {x : Nat} (hi : i < n) (hx : x < (i + 1) * datasize) :
    source datasize oobsize n i x = source datasize oobsize n (i + 1) x := by
  obtain ⟨hsucc, hdata, hsuccSpare, hspare, htotal, hchunk⟩ := chunk_sizes datasize oobsize hi
  by_cases hfirst : x < i * datasize
  · rw [source, source, if_pos hfirst, if_pos hx]
  obtain ⟨c, rfl⟩ := Nat.exists_eq_add_of_le (Nat.not_lt.mp hfirst)
  rw [source_later (by omega) (by omega), source_data (Nat.lt_succ_self i) (by omega), hchunk]
  omega

lemma source_round_moved {x : Nat} (hi : i < n) (hlow : (i + 1) * datasize ≤ x) :
    source datasize oobsize n i (x + oobsize) = source datasize oobsize n (i + 1) x := by
  obtain ⟨hsucc, -, hsuccSpare, hspare, htotal, -⟩ := chunk_sizes datasize oobsize hi
  by_cases hlater : x < n * (datasize + oobsize) - (i + 1) * oobsize
  · rw [source_later (by omega) (by omega), source_later hlow hlater]
    omega
  have hsame : x + oobsize - (n * (datasize + oobsize) - i * oobsize) =
      x - (n * (datasize + oobsize) - (i + 1) * oobsize) := by omega
  rw [source, source, if_neg (by omega), if_neg (by omega), if_neg (by omega),
    if_neg (by omega)]
  rw [hsame]

lemma source_round_last {t : Nat} (hi : i < n) (ht : t < oobsize) :
    source datasize oobsize n i ((i + 1) * datasize + t) =
      source datasize oobsize n (i + 1) (n * (datasize + oobsize) - oobsize + t) := by
  obtain ⟨hsucc, hdata, hsuccSpare, hspare, htotal, hchunk⟩ := chunk_sizes datasize oobsize hi
  have hplace : n * (datasize + oobsize) - oobsize + t =
      n * (datasize + oobsize) - (i + 1) * oobsize + (i * oobsize + t) := by omega
  rw [source_later (by omega) (by omega), hplace, source_spare hi ht, hchunk]
  omega

lemma shuffleRound_arranged (buf : Nat) (ram : Mem) (hi : i < n) :
    shuffleRound datasize oobsize n buf i (arranged datasize oobsize n i buf ram) =
      arranged datasize oobsize n (i + 1) buf ram := by
  have hcomm : datasize * (i + 1) = (i + 1) * datasize := mul_comm _ _
  have hdata : (i + 1) * datasize ≤ n * datasize := Nat.mul_le_mul_right _ hi
  have hspare : 1 * oobsize ≤ n * oobsize := Nat.mul_le_mul_right _ (by omega)
  have htotal : n * (datasize + oobsize) = n * datasize + n * oobsize := Nat.mul_add _ _ _
  have hmoved : (n - (i + 1)) * datasize + (n - 1) * oobsize =
      n * (datasize + oobsize) - oobsize - (i + 1) * datasize := by
    rw [Nat.sub_mul, Nat.sub_mul]
    omega
  funext a
  simp only [shuffleRound, blit_slice_apply, hcomm, hmoved]
  by_cases hin : buf ≤ a ∧ a < buf + n * (datasize + oobsize)
  · obtain ⟨x, rfl⟩ := Nat.exists_eq_add_of_le hin.1
    have hx : x < n * (datasize + oobsize) := by omega
    have hto : arranged datasize oobsize n (i + 1) buf ram (buf + x) =
        ram (buf + source datasize oobsize n (i + 1) x) := by
      rw [arranged, if_pos hin, Nat.add_sub_cancel_left]
    have hfrom : ∀ y, y < n * (datasize + oobsize) →
        arranged datasize oobsize n i buf ram (buf + y) =
          ram (buf + source datasize oobsize n i y) := by
      intro y hy
      rw [arranged, if_pos ⟨Nat.le_add_right _ _, by omega⟩, Nat.add_sub_cancel_left]
    rw [hto]
    by_cases hlast : n * (datasize + oobsize) - oobsize ≤ x
    · obtain ⟨t, rfl⟩ := Nat.exists_eq_add_of_le hlast
      have hplace : buf + (i + 1) * datasize +
          (buf + (n * (datasize + oobsize) - oobsize + t) -
            (buf + n * (datasize + oobsize) - oobsize)) = buf + ((i + 1) * datasize + t) := by
        omega
      rw [if_pos (by omega), hplace, hfrom _ (by omega), source_round_last hi (by omega)]
    · rw [if_neg (by omega)]
      by_cases hbefore : x < (i + 1) * datasize
      · rw [if_neg (by omega), hfrom x hx, source_round_before hi hbefore]
      have hplace : buf + (i + 1) * datasize + oobsize + (buf + x - (buf + (i + 1) * datasize)) =
          buf + (x + oobsize) := by omega
      rw [if_pos (by omega), hplace, hfrom _ (by omega),
        source_round_moved hi (by omega)]
  · have hout : ∀ j, arranged datasize oobsize n j buf ram a = ram a := fun j => if_neg hin
    rw [if_neg (by omega), if_neg (by omega), hout, hout]

lemma arranged_zero (buf : Nat) (ram : Mem) : arranged datasize oobsize n 0 buf ram = ram := by
  funext a
  unfold arranged
  split_ifs with hin
  · rw [source_zero (by omega), Nat.add_sub_cancel' hin.1]
  · rfl

lemma shuffleLoop_arranged (buf k : Nat) (ram : Mem) (h : i + k = n) :
    shuffleLoop datasize oobsize n buf k i (arranged datasize oobsize n i buf ram) =
      arranged datasize oobsize n n buf ram := by
  induction k generalizing i with
  | zero =>
    rw [add_zero] at h
    rw [h]
    rfl
  | succ k ih =>
    rw [shuffleLoop, shuffleRound_arranged buf ram (by omega)]
    exact ih (by omega)

lemma shuffleLoop_eq (n buf : Nat) (ram : Mem) :
    shuffleLoop datasize oobsize n buf n 0 ram = arranged datasize oobsize n n buf ram := by
  have hloop : shuffleLoop datasize oobsize n buf n 0 (arranged datasize oobsize n 0 buf ram) =
      arranged datasize oobsize n n buf ram := shuffleLoop_arranged buf n ram (zero_add n)
  rwa [arranged_zero] at hloop

variable (oobsize) in
theorem arranged_data {k c : Nat} (hk : k < n) (hc : c < datasize) (buf : Nat) (ram : Mem) :
    arranged datasize oobsize n n buf ram (buf + (k * datasize + c)) =
      ram (buf + (k * (datasize + oobsize) + c)) := by
  obtain ⟨hsucc, hle, -, -, htotal, -⟩ := chunk_sizes datasize oobsize hk
  rw [arranged, if_pos ⟨Nat.le_add_right _ _, by omega⟩, Nat.add_sub_cancel_left,
    source_data hk hc]

variable (datasize) in
theorem arranged_spare {k t : Nat} (hk : k < n) (ht : t < oobsize) (buf : Nat) (ram : Mem) :
    arranged datasize oobsize n n buf ram (buf + n * datasize + (k * oobsize + t)) =
      ram (buf + (k * (datasize + oobsize) + datasize + t)) := by
  obtain ⟨-, -, hsucc, hle, htotal, -⟩ := chunk_sizes datasize oobsize hk
  have hplace : buf + n * datasize + (k * oobsize + t) - buf =
      n * (datasize + oobsize) - n * oobsize + (k * oobsize + t) := by omega
  rw [arranged, if_pos ⟨by omega, by omega⟩, hplace, source_spare (Nat.le_refl n) ht]

lemma arranged_outside {buf a : Nat} (h : a < buf ∨ buf + n * (datasize + oobsize) ≤ a)
    (ram : Mem) : arranged datasize oobsize n i buf ram a = ram a :=
  if_neg (by omega)

end

lemma shuffled_eq {mtd : Mtd} (yaffs : mtd.rwOob = some true) (ram : Mem) (len buf : Nat) :
    shuffled mtd ram len buf = arranged mtd.geo.writesize mtd.geo.oobsize
      (len / mtd.geo.writesize) (len / mtd.geo.writesize) buf ram := by
  rw [shuffled, if_pos yaffs]
  exact shuffleLoop_eq _ _ _

end Shuffle
