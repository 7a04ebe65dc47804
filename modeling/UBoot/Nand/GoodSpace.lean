import UBoot.Lib.Rank
import UBoot.Nand.Chip

/-!
# Writing and reading around bad blocks (drivers/mtd/nand/nand_util.c)

`none` is a call that does not return: the loop goes on for ever, or the division in
the progress message is by zero, where `__div0` hangs.
-/

namespace NandUtil

open Nand ByteMemory NandBase

/-- `offset & ~(nand->erasesize - 1)`: the mask has 32 bits. -/
def blockStart (mtd : Mtd) (offset : Nat) : Nat :=
  offset % 2 ^ 32 / mtd.geo.erasesize * mtd.geo.erasesize

/-- The test both loops and `get_len_incl_bad` make. -/
def isGood (mtd : Mtd) (offset : Nat) : Bool := nandBlockIsbad mtd (blockStart mtd offset) = 0

def blockLeft (mtd : Mtd) (offset : Nat) : Nat :=
  mtd.geo.erasesize - offset % mtd.geo.erasesize

def getLenLoop (mtd : Mtd) (length : Nat) : Nat → (offset lenInclBad lenExclBad : Nat) → Option Nat
  | 0, _, _, _ => none
  | fuel + 1, offset, lenInclBad, lenExclBad =>
    if lenExclBad < length then
      let blockLen := blockLeft mtd offset
      let lenExclBad := if isGood mtd offset then (lenExclBad + blockLen) % 2 ^ 32 else lenExclBad
      let lenInclBad := (lenInclBad + blockLen) % 2 ^ 32
      if mtd.geo.size ≤ offset + blockLen then some lenInclBad
      else getLenLoop mtd length fuel (offset + blockLen) lenInclBad lenExclBad
    else some lenInclBad

def getLenInclBad (mtd : Mtd) (offset length : Nat) : Option Nat :=
  getLenLoop mtd length (mtd.geo.size + 1) offset 0 0

/-- What a call leaves: its result, `*length`, the chip and the memory. -/
structure Result where
  rval : Int
  length : Nat
  chip : Chip
  ram : Mem

/-- The loop of `nand_write_skip_bad`; `skip` is `skipfirstblk`. -/
def writeLoop (mtd : Mtd) (length : Nat) :
    Nat → (offset left pBuffer : Nat) → (skip : Bool) → Chip → Mem → Option Result
  | 0, _, _, _, _, _, _ => none
  | fuel + 1, offset, left, pBuffer, skip, chip, ram =>
    if left = 0 then some ⟨0, length, chip, ram⟩
    else if ¬ isGood mtd offset then
      writeLoop mtd length fuel (offset + blockLeft mtd offset) left pBuffer skip chip ram
    else if skip then
      writeLoop mtd length fuel (offset + blockLeft mtd offset) left pBuffer false chip ram
    else if length / 100 = 0 then none
    else
      let writeSize := min left (blockLeft mtd offset)
      match nandWrite mtd chip ram offset writeSize pBuffer with
      | none => none
      | some (rval, chip, ram) =>
        if rval ≠ 0 then some ⟨rval, length - left, chip, ram⟩
        else
          let step := if mtd.rwOob = some true then
              writeSize + writeSize / mtd.geo.writesize * mtd.geo.oobsize else writeSize
          writeLoop mtd length fuel (offset + writeSize) (left - writeSize) (pBuffer + step) false
            chip ram

/-- `nand_write_skip_bad`; the loop takes at most `fuel` rounds. -/
def nandWriteSkipBad (fuel : Nat) (mtd : Mtd) (skip : Bool) (chip : Chip) (ram : Mem)
    (offset length buffer : Nat) : Option Result :=
  let chunk := mtd.geo.oobsize + mtd.geo.writesize
  if mtd.rwOob = some true ∧ length % chunk ≠ 0 then some ⟨-EINVAL, length, chip, ram⟩
  else
    let length := if mtd.rwOob = some true then length / chunk * mtd.geo.writesize else length
    if offset % mtd.geo.writesize ≠ 0 ∨ length % mtd.geo.writesize ≠ 0 then
      some ⟨-EINVAL, length, chip, ram⟩
    else (getLenInclBad mtd offset length).bind fun lenInclBad =>
      if mtd.geo.size < offset + lenInclBad then some ⟨-EINVAL, length, chip, ram⟩
      else if mtd.rwOob = none ∧ lenInclBad = length then
        (nandWrite mtd chip ram offset length buffer).map fun r => ⟨r.1, length, r.2.1, r.2.2⟩
      else writeLoop mtd length fuel offset length buffer skip chip ram

def readLoop (mtd : Mtd) (length : Nat) :
    Nat → (offset left pBuffer : Nat) → Chip → Mem → Option Result
  | 0, _, _, _, _, _ => none
  | fuel + 1, offset, left, pBuffer, chip, ram =>
    if left = 0 then some ⟨0, length, chip, ram⟩
    else if ¬ isGood mtd offset then
      readLoop mtd length fuel (offset + blockLeft mtd offset) left pBuffer chip ram
    else
      let readLength := min left (blockLeft mtd offset)
      match nandRead mtd chip ram offset readLength pBuffer with
      | none => none
      | some (rval, chip, ram) =>
        if rval ≠ 0 ∧ rval ≠ -EUCLEAN then some ⟨rval, length - left, chip, ram⟩
        else readLoop mtd length fuel (offset + readLength) (left - readLength)
          (pBuffer + readLength) chip ram

/-- `nand_read_skip_bad`; the loop takes at most `fuel` rounds. -/
def nandReadSkipBad (fuel : Nat) (mtd : Mtd) (chip : Chip) (ram : Mem)
    (offset length buffer : Nat) : Option Result :=
  (getLenInclBad mtd offset length).bind fun lenInclBad =>
    if mtd.geo.size < offset + lenInclBad then some ⟨-EINVAL, length, chip, ram⟩
    else if lenInclBad = length then
      (nandRead mtd chip ram offset length buffer).map fun r =>
        ⟨if r.1 = 0 ∨ r.1 = -EUCLEAN then 0 else r.1, length, r.2.1, r.2.2⟩
    else readLoop mtd length fuel offset length buffer chip ram

/-- 'nand write.yaffs2' in `do_nand`: `rw_oob` and `skipfirstblk` are set for the call. -/
def nandWriteYaffs2 (fuel : Nat) (mtd : Mtd) (chip : Chip) (ram : Mem)
    (offset length buffer : Nat) : Option Result :=
  nandWriteSkipBad fuel { mtd with rwOob := some true } true chip ram offset length buffer

end NandUtil

/-!
## Good blocks, and the length they take

On the device the masked test sees the block it is about. The good
bytes from an offset on are numbered by their rank.
-/

namespace GoodSpace

open Nand NandBase NandUtil Rank

def goodByte (mtd : Mtd) (a : Nat) : Bool := !mtd.bad (a / mtd.geo.erasesize)

section

variable {mtd : Mtd} {o i : Nat}

lemma blockLeft_pos (mtd : Mtd) (o : Nat) : 0 < blockLeft mtd o := by
  have := Nat.mod_lt o mtd.geo.erasesize_pos
  unfold blockLeft
  omega

lemma blockLeft_le (mtd : Mtd) (o : Nat) : blockLeft mtd o ≤ mtd.geo.erasesize := Nat.sub_le _ _

lemma blockEnd_eq (mtd : Mtd) (o : Nat) :
    o + blockLeft mtd o = (o / mtd.geo.erasesize + 1) * mtd.geo.erasesize := by
  have hdiv := Nat.div_add_mod' o mtd.geo.erasesize
  have hmod := Nat.mod_lt o mtd.geo.erasesize_pos
  rw [Nat.succ_mul]
  unfold blockLeft
  omega

lemma dvd_blockEnd (mtd : Mtd) (o : Nat) : mtd.geo.erasesize ∣ o + blockLeft mtd o := by
  rw [blockEnd_eq]
  exact Nat.dvd_mul_left _ _

lemma blockEnd_le (h : o < mtd.geo.size) : o + blockLeft mtd o ≤ mtd.geo.size := by
  rw [blockEnd_eq]
  exact Nat.mul_le_mul_right _ ((Nat.div_lt_iff_lt_mul mtd.geo.erasesize_pos).mpr h)

lemma block_eq (hi : o ≤ i) (hlt : i < o + blockLeft mtd o) :
    i / mtd.geo.erasesize = o / mtd.geo.erasesize := by
  rw [blockEnd_eq] at hlt
  refine le_antisymm (Nat.lt_succ_iff.mp ?_) (Nat.div_le_div_right hi)
  exact (Nat.div_lt_iff_lt_mul mtd.geo.erasesize_pos).mpr hlt

lemma goodByte_block (hi : o ≤ i) (hlt : i < o + blockLeft mtd o) :
    goodByte mtd i = goodByte mtd o := by
  rw [goodByte, goodByte, block_eq hi hlt]

lemma not_dvd_before (hi : o < i) (hlt : i < o + blockLeft mtd o) :
    ¬ mtd.geo.erasesize ∣ i := by
  rintro ⟨q, rfl⟩
  have hblock := block_eq (le_of_lt hi) hlt
  rw [Nat.mul_div_cancel_left _ mtd.geo.erasesize_pos] at hblock
  rw [hblock] at hi
  exact absurd (Nat.mul_div_le o mtd.geo.erasesize) (not_le.mpr hi)

lemma isGood_eq (h : o < mtd.geo.size) : isGood mtd o = goodByte mtd o := by
  have hwidth := mtd.size_le
  have hstart : blockStart mtd o = o / mtd.geo.erasesize * mtd.geo.erasesize := by
    rw [blockStart, Nat.mod_eq_of_lt (by omega)]
  have hle := Nat.div_mul_le_self o mtd.geo.erasesize
  rw [isGood, nandBlockIsbad, hstart, if_neg (by omega),
    Nat.mul_div_cancel _ mtd.geo.erasesize_pos, goodByte]
  cases mtd.bad (o / mtd.geo.erasesize) with
  | true => rfl
  | false => rfl

lemma rank_good (good : goodByte mtd o = true) (hi : o ≤ i) (hle : i ≤ o + blockLeft mtd o) :
    rank (goodByte mtd) o i = i - o :=
  rank_all hi fun k hk hlt => (goodByte_block hk (by omega)).trans good

lemma rank_bad (bad : goodByte mtd o = false) (hi : o ≤ i) (hle : i ≤ o + blockLeft mtd o) :
    rank (goodByte mtd) o i = 0 :=
  rank_none hi fun k hk hlt => (goodByte_block hk (by omega)).trans bad

end

variable {mtd : Mtd}

lemma isGood_block {o i : Nat} (hi : o ≤ i) (hlt : i < o + blockLeft mtd o) :
    isGood mtd i = isGood mtd o := by
  obtain ⟨m, hm⟩ : mtd.geo.erasesize ∣ 2 ^ 32 :=
    Nat.pow_dvd_pow 2 (le_of_lt mtd.geo.eraseShift_lt)
  have hstart : blockStart mtd i = blockStart mtd o := by
    rw [blockStart, blockStart, hm, Nat.mod_mul_right_div_self, Nat.mod_mul_right_div_self,
      block_eq hi hlt]
  rw [isGood, isGood, hstart]

def SomeGood (mtd : Mtd) : Prop := ∃ b, b ≤ mtd.geo.blocks ∧ mtd.bad b = false

lemma exists_isGood (h : SomeGood mtd) (o : Nat) :
    ∃ t, o ≤ t ∧ isGood mtd t = true := by
  obtain ⟨b, hb, hgood⟩ := h
  have hwidth := mtd.size_le
  have hin : b * mtd.geo.erasesize ≤ mtd.geo.size := Nat.mul_le_mul_right _ hb
  have hstart : blockStart mtd (2 ^ 32 * o + b * mtd.geo.erasesize) = b * mtd.geo.erasesize := by
    rw [blockStart, Nat.mul_add_mod, Nat.mod_eq_of_lt (by omega),
      Nat.mul_div_cancel _ mtd.geo.erasesize_pos]
  refine ⟨2 ^ 32 * o + b * mtd.geo.erasesize, by omega, ?_⟩
  rw [isGood, hstart, nandBlockIsbad, if_neg (by omega),
    Nat.mul_div_cancel _ mtd.geo.erasesize_pos, hgood]
  rfl

lemma isGood_of_none (h : ¬ SomeGood mtd) (o : Nat) : isGood mtd o = false := by
  have hbad : ∀ b, b ≤ mtd.geo.blocks → mtd.bad b = true := by
    intro b hb
    by_contra hnot
    exact h ⟨b, hb, by simpa using hnot⟩
  rw [isGood, nandBlockIsbad]
  by_cases hpast : mtd.geo.size < blockStart mtd o
  · rw [if_pos hpast]
    rfl
  have hblock : blockStart mtd o / mtd.geo.erasesize ≤ mtd.geo.blocks := by
    have hle : blockStart mtd o ≤ mtd.geo.blocks * mtd.geo.erasesize := not_lt.mp hpast
    exact Nat.div_le_of_le_mul (by rwa [mul_comm])
  rw [if_neg hpast, hbad _ hblock]
  rfl

def NoGood (mtd : Mtd) (o : Nat) : Prop := rank (goodByte mtd) o mtd.geo.size = 0

lemma size_le_of_noGood {o first : Nat} (noGood : NoGood mtd o) (hof : o ≤ first)
    (hgood : isGood mtd first = true) : mtd.geo.size ≤ first := by
  by_contra hin
  rw [isGood_eq (not_le.mp hin)] at hgood
  rw [none_of_rank noGood hof (not_le.mp hin)] at hgood
  exact Bool.false_ne_true hgood

section

variable {α : Type} {mtd : Mtd} (run : Nat → Nat → Option α)

lemma never_returns (zero : ∀ o, run 0 o = none)
    (step : ∀ fuel o, isGood mtd o = false → run (fuel + 1) o = run fuel (o + blockLeft mtd o))
    (none_good : ¬ SomeGood mtd) (fuel o : Nat) : run fuel o = none := by
  induction fuel generalizing o with
  | zero => exact zero o
  | succ fuel ih =>
    rw [step fuel o (isGood_of_none none_good o)]
    exact ih _

lemma seek_first
    (step : ∀ fuel o, isGood mtd o = false → run (fuel + 1) o = run fuel (o + blockLeft mtd o))
    {o t : Nat} (hot : o ≤ t) (good : isGood mtd t = true) :
    ∃ n first, o ≤ first ∧ first ≤ t ∧ isGood mtd first = true ∧
      (∀ i, o ≤ i → i < first → isGood mtd i = false) ∧
      (first = o ∨ mtd.geo.erasesize ∣ first) ∧ ∀ fuel, run (n + fuel) o = run fuel first := by
  induction hd : t - o using Nat.strong_induction_on generalizing o with
  | _ d ih =>
    cases hgood : isGood mtd o with
    | true =>
      refine ⟨0, o, Nat.le_refl o, hot, hgood, fun i hi hlt => by omega, .inl rfl, fun fuel => ?_⟩
      rw [zero_add]
    | false =>
      have hpos := blockLeft_pos mtd o
      have hnext : o + blockLeft mtd o ≤ t := by
        by_contra hin
        rw [isGood_block hot (not_le.mp hin), hgood] at good
        exact Bool.false_ne_true good
      obtain ⟨n, first, hof, hft, hfirst, hbefore, hblock, hrun⟩ :=
        ih (t - (o + blockLeft mtd o)) (by omega) hnext rfl
      refine ⟨n + 1, first, by omega, hft, hfirst, fun i hi hlt => ?_, .inr ?_, fun fuel => ?_⟩
      · by_cases hin : i < o + blockLeft mtd o
        · exact (isGood_block hi hin).trans hgood
        · exact hbefore i (by omega) hlt
      · rcases hblock with rfl | hdvd
        · exact dvd_blockEnd mtd o
        · exact hdvd
      · have hadd : n + 1 + fuel = n + fuel + 1 := by omega
        rw [hadd, step (n + fuel) o hgood]
        exact hrun fuel

end

variable {offset length : Nat}

/-- The good blocks from `offset` on hold `length` bytes. -/
def Fits (mtd : Mtd) (offset length : Nat) : Prop :=
  offset ≤ mtd.geo.size ∧ length ≤ rank (goodByte mtd) offset mtd.geo.size

/-- The length found ends at a block boundary, at the first one with enough good bytes before it or
else at the end of the device. -/
structure LenFound (mtd : Mtd) (offset length len : Nat) : Prop where
  inside : offset + len ≤ mtd.geo.size
  aligned : 0 < len → mtd.geo.erasesize ∣ offset + len
  enough : length ≤ rank (goodByte mtd) offset (offset + len) ∨ offset + len = mtd.geo.size
  minimal : ∀ o, offset ≤ o → o < offset + len → (o = offset ∨ mtd.geo.erasesize ∣ o) →
    rank (goodByte mtd) offset o < length

lemma getLenLoop_found (fuel done : Nat) (inside : offset + done < mtd.geo.size)
    (enough : mtd.geo.size < fuel + (offset + done))
    (aligned : 0 < done → mtd.geo.erasesize ∣ offset + done)
    (minimal : ∀ o, offset ≤ o → o < offset + done → (o = offset ∨ mtd.geo.erasesize ∣ o) →
      rank (goodByte mtd) offset o < length) :
    ∃ len, getLenLoop mtd length fuel (offset + done) done
        (rank (goodByte mtd) offset (offset + done)) = some len ∧
      LenFound mtd offset length len := by
  induction fuel generalizing done with
  | zero => omega
  | succ fuel ih =>
    have hwidth := mtd.size_le
    have hpos := blockLeft_pos mtd (offset + done)
    have hend := blockEnd_le inside
    rw [getLenLoop]
    by_cases hmore : rank (goodByte mtd) offset (offset + done) < length
    · rw [if_pos hmore]
      have hsplit : rank (goodByte mtd) offset (offset + done + blockLeft mtd (offset + done)) =
          rank (goodByte mtd) offset (offset + done) + rank (goodByte mtd) (offset + done)
            (offset + done + blockLeft mtd (offset + done)) :=
        rank_add (Nat.le_add_right _ _) (Nat.le_add_right _ _)
      have hle := rank_le (goodByte mtd) offset (offset + done + blockLeft mtd (offset + done))
      have hexcl : (if isGood mtd (offset + done) then
            (rank (goodByte mtd) offset (offset + done) + blockLeft mtd (offset + done)) % 2 ^ 32
          else rank (goodByte mtd) offset (offset + done)) =
          rank (goodByte mtd) offset (offset + done + blockLeft mtd (offset + done)) := by
        rw [isGood_eq inside]
        cases hgood : goodByte mtd (offset + done) with
        | true =>
          rw [rank_good hgood (Nat.le_add_right _ _) le_rfl] at hsplit
          rw [if_pos rfl, Nat.mod_eq_of_lt (by omega)]
          omega
        | false =>
          rw [rank_bad hgood (Nat.le_add_right _ _) le_rfl] at hsplit
          rw [if_neg (by decide)]
          omega
      have hincl : (done + blockLeft mtd (offset + done)) % 2 ^ 32 =
          done + blockLeft mtd (offset + done) := Nat.mod_eq_of_lt (by omega)
      have hassoc : offset + done + blockLeft mtd (offset + done) =
          offset + (done + blockLeft mtd (offset + done)) := add_assoc _ _ _
      have hdvd := dvd_blockEnd mtd (offset + done)
      have hminimal : ∀ o, offset ≤ o → o < offset + (done + blockLeft mtd (offset + done)) →
          (o = offset ∨ mtd.geo.erasesize ∣ o) → rank (goodByte mtd) offset o < length := by
        intro o ho hlt hblock
        rcases lt_trichotomy o (offset + done) with hbefore | rfl | hafter
        · exact minimal o ho hbefore hblock
        · exact hmore
        · rcases hblock with rfl | hblock
          · omega
          · exact absurd hblock (not_dvd_before hafter (by omega))
      dsimp only
      rw [hexcl, hincl]
      rw [hassoc] at hend hdvd ⊢
      by_cases hlast : mtd.geo.size ≤ offset + (done + blockLeft mtd (offset + done))
      · rw [if_pos hlast]
        exact ⟨_, rfl, hend, fun _ => hdvd, .inr (by omega), hminimal⟩
      · rw [if_neg hlast]
        exact ih _ (by omega) (by omega) (fun _ => hdvd) hminimal
    · rw [if_neg hmore]
      exact ⟨done, rfl, le_of_lt inside, aligned, .inl (not_lt.mp hmore), minimal⟩

lemma getLenInclBad_found (length : Nat) (inside : offset < mtd.geo.size) :
    ∃ len, getLenInclBad mtd offset length = some len ∧ LenFound mtd offset length len := by
  have hloop : ∃ len, getLenLoop mtd length (mtd.geo.size + 1) (offset + 0) 0
      (rank (goodByte mtd) offset (offset + 0)) = some len ∧ LenFound mtd offset length len :=
    getLenLoop_found (mtd.geo.size + 1) 0 inside (by omega) (fun h => absurd h (by omega))
      (fun o ho hlt _ => by omega)
  simpa only [getLenInclBad, add_zero, rank_self] using hloop

lemma getLenInclBad_outside (outside : mtd.geo.size ≤ offset) (pos : 0 < length) :
    ∃ len, getLenInclBad mtd offset length = some len ∧ 0 < len := by
  have hleft := blockLeft_pos mtd offset
  have hle := blockLeft_le mtd offset
  have hwidth := mtd.geo.erasesize_lt
  refine ⟨blockLeft mtd offset, ?_, hleft⟩
  rw [getLenInclBad, getLenLoop, if_pos pos]
  rw [if_pos (by omega), zero_add, Nat.mod_eq_of_lt (by omega)]

lemma getLenInclBad_zero (mtd : Mtd) (offset : Nat) : getLenInclBad mtd offset 0 = some 0 := by
  rw [getLenInclBad, getLenLoop, if_neg (lt_irrefl 0)]

lemma LenFound.end_of_short {len : Nat} (h : LenFound mtd offset length len)
    (short : rank (goodByte mtd) offset mtd.geo.size < length) : offset + len = mtd.geo.size := by
  rcases h.enough with henough | hend
  · have := rank_le_of_le (p := goodByte mtd) (Nat.le_add_right offset len) h.inside
    omega
  · exact hend

def Straight (mtd : Mtd) (offset length : Nat) : Prop :=
  mtd.geo.erasesize ∣ offset + length ∧
    ∀ i, offset ≤ i → i < offset + length → goodByte mtd i = true

lemma LenFound.eq_iff {len : Nat} (h : LenFound mtd offset length len)
    (fits : Fits mtd offset length) (pos : 0 < length) :
    len = length ↔ Straight mtd offset length := by
  have henough : length ≤ rank (goodByte mtd) offset (offset + len) := by
    rcases h.enough with henough | hend
    · exact henough
    · rw [hend]
      exact fits.2
  have hle := rank_le (goodByte mtd) offset (offset + len)
  constructor
  · rintro rfl
    exact ⟨h.aligned pos, fun i hi hlt => all_of_rank (Nat.le_add_right _ _) (by omega) hi hlt⟩
  · rintro ⟨hdvd, hgood⟩
    by_contra hne
    have hall := rank_all (p := goodByte mtd) (Nat.le_add_right offset length) hgood
    have hless := h.minimal (offset + length) (Nat.le_add_right _ _) (by omega) (.inr hdvd)
    omega

end GoodSpace
