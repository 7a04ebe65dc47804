import UBoot.Nand.WriteSkipBad
import UBoot.Nand.Shuffle

/-!
# Writing an image of data and spare bytes

Block by block the chunks of an image go to the pages of the good blocks, and the
buffer of each block is left de-interleaved.
-/

namespace ImageWrite

open Nand ByteMemory NandBase NandUtil PageOps GoodSpace WriteSkipBad Shuffle Rank

def stride (mtd : Mtd) : Nat := mtd.geo.writesize + mtd.geo.oobsize

/-- Page `q` is number `k` over the good blocks from `o` on. -/
structure NthPage (mtd : Mtd) (o k q : Nat) : Prop where
  behind : o ≤ q * mtd.geo.writesize
  inside : q * mtd.geo.writesize < mtd.geo.size
  good : goodByte mtd (q * mtd.geo.writesize) = true
  place : rank (goodByte mtd) o (q * mtd.geo.writesize) = k * mtd.geo.writesize

/-- What `nand_fill_oob` makes of the spare bytes of chunk `k`. -/
def filledSpare (mtd : Mtd) (chip : Chip) (ram : Mem) (pbuf k i : Nat) : UInt8 :=
  if chip.ooboffs ≤ i then
    ram (pbuf + k * stride mtd + mtd.geo.writesize + (i - chip.ooboffs))
  else chip.oobPoi i

/-- The `left` data bytes of an image are in the pages from `o` on, and nothing else is changed
before them. -/
structure ImageStored (mtd : Mtd) (chip : Chip) (ram : Mem) (o left pbuf : Nat) (out : Chip) :
    Prop where
  data : ∀ k q, k * mtd.geo.writesize < left → NthPage mtd o k q →
    ∀ c, c < mtd.geo.writesize →
      out.data (q * mtd.geo.writesize + c) = ram (pbuf + k * stride mtd + c)
  spare : ∀ k q, k * mtd.geo.writesize < left → NthPage mtd o k q →
    ∀ i, i < mtd.geo.oobsize → out.spare q i = filledSpare mtd chip ram pbuf k i
  pages : ∀ q, q ∈ out.programmed → q ∈ chip.programmed ∨
    ∃ k, k * mtd.geo.writesize < left ∧ NthPage mtd o k q
  dataBefore : ∀ i, i < o → out.data i = chip.data i
  spareBefore : ∀ q, q * mtd.geo.writesize < o → out.spare q = chip.spare q

section

variable {mtd : Mtd} {o k q : Nat}

lemma NthPage.skip_iff (bad : goodByte mtd o = false) :
    NthPage mtd o k q ↔ NthPage mtd (o + blockLeft mtd o) k q := by
  have hnone := rank_bad bad (Nat.le_add_right _ _) (Nat.le_refl (o + blockLeft mtd o))
  have hsplit : ∀ a, o + blockLeft mtd o ≤ a →
      rank (goodByte mtd) o a = rank (goodByte mtd) (o + blockLeft mtd o) a := by
    intro a ha
    rw [rank_add (Nat.le_add_right o (blockLeft mtd o)) ha, hnone, zero_add]
  constructor
  · rintro ⟨hbehind, hinside, hgood, hplace⟩
    have hnext : o + blockLeft mtd o ≤ q * mtd.geo.writesize := by
      by_contra hin
      rw [goodByte_block hbehind (not_le.mp hin), bad] at hgood
      exact Bool.false_ne_true hgood
    exact ⟨hnext, hinside, hgood, (hsplit _ hnext).symm.trans hplace⟩
  · rintro ⟨hbehind, hinside, hgood, hplace⟩
    exact ⟨by omega, hinside, hgood, (hsplit _ hbehind).trans hplace⟩

lemma NthPage.here {m : Nat} (good : goodByte mtd o = true)
    (hm : m * mtd.geo.writesize ≤ blockLeft mtd o) (h : NthPage mtd o k q) (hk : k < m) :
    q * mtd.geo.writesize = o + k * mtd.geo.writesize := by
  have hlt : k * mtd.geo.writesize < m * mtd.geo.writesize :=
    Nat.mul_lt_mul_of_pos_right hk mtd.geo.writesize_pos
  have hbefore : q * mtd.geo.writesize < o + m * mtd.geo.writesize := by
    by_contra hge
    have hmono := rank_le_of_le (p := goodByte mtd) (Nat.le_add_right o (m * mtd.geo.writesize))
      (not_lt.mp hge)
    rw [h.place, rank_good good (Nat.le_add_right _ _) (by omega)] at hmono
    omega
  have hplace := h.place
  have hbehind := h.behind
  rw [rank_good good hbehind (by omega)] at hplace
  omega

lemma NthPage.later {m : Nat} (good : goodByte mtd o = true)
    (hm : m * mtd.geo.writesize ≤ blockLeft mtd o) (h : NthPage mtd o (m + k) q) :
    NthPage mtd (o + m * mtd.geo.writesize) k q := by
  have hplace := h.place
  have hbehind := h.behind
  rw [Nat.add_mul] at hplace
  have hnext : o + m * mtd.geo.writesize ≤ q * mtd.geo.writesize := by
    by_contra hin
    rw [rank_good good hbehind (by omega)] at hplace
    omega
  rw [rank_add (Nat.le_add_right o (m * mtd.geo.writesize)) hnext,
    rank_good good (Nat.le_add_right _ _) (by omega)] at hplace
  exact ⟨hnext, h.inside, h.good, by omega⟩

lemma NthPage.of_later {m : Nat} (good : goodByte mtd o = true)
    (hm : m * mtd.geo.writesize ≤ blockLeft mtd o)
    (h : NthPage mtd (o + m * mtd.geo.writesize) k q) : NthPage mtd o (m + k) q := by
  have hbehind := h.behind
  refine ⟨by omega, h.inside, h.good, ?_⟩
  rw [rank_add (Nat.le_add_right o (m * mtd.geo.writesize)) hbehind, h.place,
    rank_good good (Nat.le_add_right _ _) (by omega), Nat.add_mul]
  omega

end

variable {mtd : Mtd}

lemma imageStored_nothing (mtd : Mtd) (chip : Chip) (ram : Mem) (o pbuf : Nat) :
    ImageStored mtd chip ram o 0 pbuf chip where
  data _ _ h := absurd h (Nat.not_lt_zero _)
  spare _ _ h := absurd h (Nat.not_lt_zero _)
  pages _ hq := .inl hq
  dataBefore _ _ := rfl
  spareBefore _ _ := rfl

lemma ImageStored.skip {chip out : Chip} {ram : Mem} {o left pbuf : Nat}
    (bad : goodByte mtd o = false)
    (h : ImageStored mtd chip ram (o + blockLeft mtd o) left pbuf out) :
    ImageStored mtd chip ram o left pbuf out where
  data k q hk hq := h.data k q hk ((NthPage.skip_iff bad).mp hq)
  spare k q hk hq := h.spare k q hk ((NthPage.skip_iff bad).mp hq)
  pages q hq := by
    rcases h.pages q hq with hold | ⟨k, hk, hpage⟩
    · exact .inl hold
    · exact .inr ⟨k, hk, (NthPage.skip_iff bad).mpr hpage⟩
  dataBefore i hi := h.dataBefore i (by omega)
  spareBefore q hq := h.spareBefore q (by omega)

section

variable {mtd : Mtd} {chip mid out : Chip} {ram : Mem} {o left pbuf m : Nat}

lemma page_of_aligned (aligned : mtd.geo.writesize ∣ o) (k : Nat) {q : Nat}
    (hq : q * mtd.geo.writesize = o + k * mtd.geo.writesize) :
    q = o / mtd.geo.writesize + k := by
  obtain ⟨p, rfl⟩ := aligned
  rw [Nat.mul_div_cancel_left _ mtd.geo.writesize_pos]
  rw [Nat.mul_comm mtd.geo.writesize p, ← Nat.add_mul] at hq
  exact Nat.eq_of_mul_eq_mul_right mtd.geo.writesize_pos hq

lemma RangeWritten.chunkData (yaffs : mtd.rwOob = some true)
    (write : RangeWritten mtd chip (shuffled mtd ram (m * mtd.geo.writesize) pbuf) o
      (m * mtd.geo.writesize) pbuf mid) {k c : Nat} (hk : k < m) (hc : c < mtd.geo.writesize) :
    mid.data (o + k * mtd.geo.writesize + c) = ram (pbuf + k * stride mtd + c) := by
  have hle : (k + 1) * mtd.geo.writesize ≤ m * mtd.geo.writesize := Nat.mul_le_mul_right _ hk
  rw [Nat.succ_mul] at hle
  have hplace : pbuf + (o + k * mtd.geo.writesize + c - o) =
      pbuf + (k * mtd.geo.writesize + c) := by omega
  rw [write.data, if_pos (by omega), shuffled_eq yaffs,
    Nat.mul_div_cancel _ mtd.geo.writesize_pos, hplace, arranged_data _ hk hc, ← add_assoc]
  rfl

lemma RangeWritten.chunkSpare (yaffs : mtd.rwOob = some true)
    (write : RangeWritten mtd chip (shuffled mtd ram (m * mtd.geo.writesize) pbuf) o
      (m * mtd.geo.writesize) pbuf mid) {k i : Nat} (hk : k < m) (hi : i < mtd.geo.oobsize) :
    mid.spare (o / mtd.geo.writesize + k) i = filledSpare mtd chip ram pbuf k i := by
  have hdiv : m * mtd.geo.writesize / mtd.geo.writesize = m :=
    Nat.mul_div_cancel _ mtd.geo.writesize_pos
  rw [write.spare yaffs k (by rwa [hdiv]), filledSpare]
  by_cases hwindow : chip.ooboffs ≤ i
  · have hplace : pbuf + m * mtd.geo.writesize + k * mtd.geo.oobsize + (i - chip.ooboffs) =
        pbuf + m * mtd.geo.writesize + (k * mtd.geo.oobsize + (i - chip.ooboffs)) := by omega
    have hsource : pbuf + (k * (mtd.geo.writesize + mtd.geo.oobsize) + mtd.geo.writesize +
        (i - chip.ooboffs)) = pbuf + k * (mtd.geo.writesize + mtd.geo.oobsize) +
          mtd.geo.writesize + (i - chip.ooboffs) := by omega
    rw [if_pos ⟨hwindow, by omega⟩, if_pos hwindow, shuffled_eq yaffs, hdiv, hplace,
      arranged_spare _ hk (by omega), hsource]
    rfl
  · rw [if_neg (fun h => hwindow h.1), if_neg hwindow]

lemma ImageStored.block (yaffs : mtd.rwOob = some true) (good : goodByte mtd o = true)
    (hm : m * mtd.geo.writesize ≤ blockLeft mtd o) (inside : o < mtd.geo.size)
    (aligned : mtd.geo.writesize ∣ o) (hleft : m * mtd.geo.writesize ≤ left)
    (write : RangeWritten mtd chip (shuffled mtd ram (m * mtd.geo.writesize) pbuf) o
      (m * mtd.geo.writesize) pbuf mid)
    (h : ImageStored mtd mid (shuffled mtd ram (m * mtd.geo.writesize) pbuf)
      (o + m * mtd.geo.writesize) (left - m * mtd.geo.writesize) (pbuf + m * stride mtd) out) :
    ImageStored mtd chip ram o left pbuf out := by
  have hdiv : m * mtd.geo.writesize / mtd.geo.writesize = m :=
    Nat.mul_div_cancel _ mtd.geo.writesize_pos
  -- behind the chunks of this block the buffer is as before
  have hram : ∀ a, pbuf + m * stride mtd ≤ a →
      shuffled mtd ram (m * mtd.geo.writesize) pbuf a = ram a := by
    intro a ha
    rw [shuffled_eq yaffs, hdiv]
    exact arranged_outside (.inr ha) ram
  have hplace : ∀ k, pbuf + m * stride mtd + k * stride mtd = pbuf + (m + k) * stride mtd := by
    intro k
    rw [Nat.add_mul, Nat.add_assoc]
  have hlater : ∀ k, (m + k) * mtd.geo.writesize < left →
      k * mtd.geo.writesize < left - m * mtd.geo.writesize := by
    intro k hk
    rw [Nat.add_mul] at hk
    omega
  have hfilled : ∀ k i, i < mtd.geo.oobsize →
      filledSpare mtd mid (shuffled mtd ram (m * mtd.geo.writesize) pbuf)
        (pbuf + m * stride mtd) k i = filledSpare mtd chip ram pbuf (m + k) i := by
    intro k i hi
    rw [filledSpare, filledSpare, write.ooboffs, hplace]
    by_cases hwindow : chip.ooboffs ≤ i
    · rw [if_pos hwindow, if_pos hwindow, hram _ (by rw [← hplace]; omega)]
    · rw [if_neg hwindow, if_neg hwindow, write.oobPoi yaffs i fun h => hwindow h.1]
  refine ⟨fun k q hk hq c hc => ?_, fun k q hk hq i hi => ?_, fun q hq => ?_, fun i hi => ?_,
    fun q hq => ?_⟩
  · by_cases hfirst : k < m
    · have hpage := hq.here good hm hfirst
      have hnext : (k + 1) * mtd.geo.writesize ≤ m * mtd.geo.writesize :=
        Nat.mul_le_mul_right _ hfirst
      rw [Nat.succ_mul] at hnext
      rw [hpage, h.dataBefore _ (by omega), RangeWritten.chunkData yaffs write hfirst hc]
    · obtain ⟨j, rfl⟩ := Nat.exists_eq_add_of_le (not_lt.mp hfirst)
      rw [h.data j q (hlater j hk) (hq.later good hm) c hc, hram _ (by omega), hplace]
  · by_cases hfirst : k < m
    · have hpage := hq.here good hm hfirst
      have hlt : k * mtd.geo.writesize < m * mtd.geo.writesize :=
        Nat.mul_lt_mul_of_pos_right hfirst mtd.geo.writesize_pos
      rw [h.spareBefore q (by omega), page_of_aligned aligned k hpage,
        RangeWritten.chunkSpare yaffs write hfirst hi]
    · obtain ⟨j, rfl⟩ := Nat.exists_eq_add_of_le (not_lt.mp hfirst)
      rw [h.spare j q (hlater j hk) (hq.later good hm) i hi, hfilled j i hi]
  · rcases h.pages q hq with hold | ⟨k, hk, hpage⟩
    · rcases (write.programmed q).mp hold with hold | ⟨hlow, hhigh⟩
      · exact .inl hold
      obtain ⟨k, rfl⟩ := Nat.exists_eq_add_of_le hlow
      have hend : (o + m * mtd.geo.writesize) / mtd.geo.writesize =
          o / mtd.geo.writesize + m := Nat.add_mul_div_right _ _ mtd.geo.writesize_pos
      have hk : k < m := by omega
      have hstart : (o / mtd.geo.writesize + k) * mtd.geo.writesize =
          o + k * mtd.geo.writesize := by rw [Nat.add_mul, Nat.div_mul_cancel aligned]
      have hlt : k * mtd.geo.writesize < m * mtd.geo.writesize :=
        Nat.mul_lt_mul_of_pos_right hk mtd.geo.writesize_pos
      have hblock := blockEnd_le inside
      refine .inr ⟨k, by omega, ?_, ?_, ?_, ?_⟩
      · omega
      · omega
      · rw [hstart]
        exact (goodByte_block (Nat.le_add_right _ _) (by omega)).trans good
      · rw [hstart, rank_good good (Nat.le_add_right _ _) (by omega), Nat.add_sub_cancel_left]
    · refine .inr ⟨m + k, ?_, NthPage.of_later good hm hpage⟩
      rw [Nat.add_mul]
      omega
  · rw [h.dataBefore i (by omega), write.data, if_neg (by omega)]
  · rw [h.spareBefore q (by omega), write.spareOther]
    rintro ⟨hlow, -⟩
    have hge := Nat.mul_le_mul_right mtd.geo.writesize hlow
    rw [Nat.div_mul_cancel aligned] at hge
    omega

end

/-- The buffer after `count` blocks of it have been written, or all of it. -/
def shuffleGroups (mtd : Mtd) : (count left pbuf : Nat) → Mem → Mem
  | 0, _, _, ram => ram
  | count + 1, left, pbuf, ram =>
    if left = 0 then ram
    else
      let w := min left mtd.geo.erasesize
      shuffleGroups mtd count (left - w) (pbuf + w / mtd.geo.writesize * stride mtd)
        (shuffled mtd ram w pbuf)

lemma blockLeft_of_dvd {o : Nat} (h : mtd.geo.erasesize ∣ o) :
    blockLeft mtd o = mtd.geo.erasesize := by
  rw [blockLeft, Nat.mod_eq_zero_of_dvd h, Nat.sub_zero]

lemma bufferStep_pages (yaffs : mtd.rwOob = some true) (m : Nat) :
    bufferStep mtd (m * mtd.geo.writesize) = m * stride mtd := by
  rw [bufferStep, if_pos yaffs, Nat.mul_div_cancel _ mtd.geo.writesize_pos, stride, Nat.mul_add]

lemma exists_pages {left : Nat} (whole : mtd.geo.writesize ∣ left) :
    ∃ m, min left mtd.geo.erasesize = m * mtd.geo.writesize := by
  obtain ⟨m, hm⟩ : mtd.geo.writesize ∣ min left mtd.geo.erasesize := by
    rcases Nat.le_total left mtd.geo.erasesize with h | h
    · rwa [min_eq_left h]
    · rw [min_eq_right h]
      exact mtd.geo.writesize_dvd_erasesize
  exact ⟨m, hm.trans (mul_comm _ _)⟩

lemma imageLoop_fits (yaffs : mtd.rwOob = some true) {length : Nat} (many : 100 ≤ length)
    (fuel o left pbuf count : Nat) (chip : Chip) (ram : Mem) (inside : o ≤ mtd.geo.size)
    (room : left ≤ rank (goodByte mtd) o mtd.geo.size) (aligned : left ≠ 0 → mtd.geo.erasesize ∣ o)
    (whole : mtd.geo.writesize ∣ left) (groups : left ≤ count * mtd.geo.erasesize)
    (enough : mtd.geo.size < fuel + o) :
    ∃ out, writeLoop mtd length fuel o left pbuf false chip ram =
        some ⟨0, length, out, shuffleGroups mtd count left pbuf ram⟩ ∧
      ImageStored mtd chip ram o left pbuf out := by
  induction fuel generalizing o left pbuf count chip ram with
  | zero => omega
  | succ fuel ih =>
    have hwidth := mtd.size_le
    by_cases hleft : left = 0
    · subst hleft
      refine ⟨chip, ?_, imageStored_nothing mtd chip ram o pbuf⟩
      rw [writeLoop_done]
      cases count with
      | zero => rfl
      | succ count => rw [shuffleGroups, if_pos rfl]
    have hin : o < mtd.geo.size := by
      by_contra hout
      have := rank_le (goodByte mtd) o mtd.geo.size
      omega
    have hblock := aligned hleft
    have hblockLeft := blockLeft_of_dvd hblock
    have hpos := mtd.geo.erasesize_pos
    have hend := blockEnd_le hin
    have hdvd := dvd_blockEnd mtd o
    have hsplit : rank (goodByte mtd) o mtd.geo.size =
        rank (goodByte mtd) o (o + blockLeft mtd o) +
          rank (goodByte mtd) (o + blockLeft mtd o) mtd.geo.size :=
      rank_add (Nat.le_add_right _ _) hend
    have hisgood := isGood_eq hin
    cases hgood : goodByte mtd o with
    | false =>
      rw [rank_bad hgood (Nat.le_add_right _ _) le_rfl] at hsplit
      obtain ⟨out, hout, hstored⟩ := ih (o + blockLeft mtd o) left pbuf count chip ram hend (by omega)
        (fun _ => hdvd) whole groups (by omega)
      exact ⟨out, (writeLoop_bad fuel hleft (hisgood.trans hgood)).trans hout, hstored.skip hgood⟩
    | true =>
      rw [rank_good hgood (Nat.le_add_right _ _) le_rfl] at hsplit
      cases count with
      | zero => omega
      | succ count =>
        obtain ⟨m, hm⟩ := exists_pages whole
        have hpages : mtd.geo.writesize ∣ o := Nat.dvd_trans mtd.geo.writesize_dvd_erasesize hblock
        have hmdvd : mtd.geo.writesize ∣ m * mtd.geo.writesize := Nat.dvd_mul_left _ _
        have hcount : (count + 1) * mtd.geo.erasesize =
            count * mtd.geo.erasesize + mtd.geo.erasesize := Nat.succ_mul _ _
        have hmin : min left (blockLeft mtd o) = m * mtd.geo.writesize := by rw [hblockLeft, hm]
        have hdiv : m * mtd.geo.writesize / mtd.geo.writesize = m :=
          Nat.mul_div_cancel _ mtd.geo.writesize_pos
        obtain ⟨mid, hmid, hwrite⟩ := nandWrite_range chip ram pbuf (by omega) hpages hmdvd (by omega)
          (by omega)
        -- either the image ends here, or the block is filled
        have hnext : left - m * mtd.geo.writesize ≠ 0 → m * mtd.geo.writesize = blockLeft mtd o := by
          omega
        have hroom : left - m * mtd.geo.writesize ≤
            rank (goodByte mtd) (o + m * mtd.geo.writesize) mtd.geo.size := by
          by_cases hlast : left - m * mtd.geo.writesize = 0
          · omega
          · rw [hnext hlast]
            omega
        obtain ⟨out, hout, hstored⟩ := ih (o + m * mtd.geo.writesize)
          (left - m * mtd.geo.writesize) (pbuf + m * stride mtd) count mid
          (shuffled mtd ram (m * mtd.geo.writesize) pbuf) (by omega) hroom
          (fun hlast => by rw [hnext hlast]; exact hdvd) (Nat.dvd_sub whole hmdvd) (by omega)
          (by omega)
        refine ⟨out, ?_, ImageStored.block yaffs hgood (by omega) hin hpages (by omega) hwrite
          hstored⟩
        rw [← hmin] at hmid
        rw [writeLoop_write fuel hleft (hisgood.trans hgood) many hmid, if_neg (by decide), hmin,
          bufferStep_pages yaffs, hout, shuffleGroups, if_neg hleft]
        dsimp only
        rw [hm, hdiv]

end ImageWrite
