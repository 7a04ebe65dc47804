import UBoot.Nand.ImageWrite

/-!
# Writing a YAFFS2 image (`nand write.yaffs2`)

The chunks of an image go to the good blocks after the first one. The capacity test
does not count the block that is skipped, and the spare bytes go where the last
`ooboffs` says.
-/

namespace Yaffs2Write

open Nand ByteMemory NandBase NandUtil PageOps GoodSpace WriteSkipBad ImageWrite Rank

def goodBlocks (mtd : Mtd) (offset : Nat) : Nat :=
  rank (fun b => !mtd.bad b) (offset / mtd.geo.erasesize) mtd.geo.blocks

/-- The blocks that the data of `n` chunks take. -/
def blocksNeeded (mtd : Mtd) (n : Nat) : Nat :=
  (n * mtd.geo.writesize + (mtd.geo.erasesize - 1)) / mtd.geo.erasesize

/-- Page `q` is number `k` over the good blocks after the first good one. -/
structure PageAfterFirst (mtd : Mtd) (offset k q : Nat) : Prop where
  behind : offset ≤ q * mtd.geo.writesize
  inside : q * mtd.geo.writesize < mtd.geo.size
  good : goodByte mtd (q * mtd.geo.writesize) = true
  place : rank (goodByte mtd) offset (q * mtd.geo.writesize) =
    mtd.geo.erasesize + k * mtd.geo.writesize

/-- Every chunk is on its page, its spare bytes from byte 0 on, and no other page is programmed. -/
structure ImageProgrammed (mtd : Mtd) (chip : Chip) (ram : Mem) (offset n buffer : Nat)
    (out : Chip) : Prop where
  chunks : ∀ k, k < n → ∃ q, PageAfterFirst mtd offset k q ∧
    (∀ c, c < mtd.geo.writesize →
      out.data (q * mtd.geo.writesize + c) = ram (buffer + k * stride mtd + c)) ∧
    ∀ i, i < mtd.geo.oobsize →
      out.spare q i = ram (buffer + k * stride mtd + mtd.geo.writesize + i)
  only : ∀ q, q ∈ out.programmed → q ∈ chip.programmed ∨ ∃ k, k < n ∧ PageAfterFirst mtd offset k q

def Outcome (mtd : Mtd) (chip : Chip) (ram : Mem) (offset n buffer : Nat) (r : Result) : Prop :=
  (r.rval ≠ 0 ∧ r.chip.programmed = chip.programmed ∧
    goodBlocks mtd offset < blocksNeeded mtd n + 1) ∨
  (r.rval = 0 ∧ ImageProgrammed mtd chip ram offset n buffer r.chip)

section

variable {mtd : Mtd} {offset : Nat}

lemma rank_blocks (mtd : Mtd) {a b : Nat} (h : a ≤ b) :
    rank (goodByte mtd) (a * mtd.geo.erasesize) (b * mtd.geo.erasesize) =
      rank (fun b => !mtd.bad b) a b * mtd.geo.erasesize := by
  refine rank_mul (fun c i hi => ?_) h
  rw [goodByte, mul_comm, Nat.mul_add_div mtd.geo.erasesize_pos, Nat.div_eq_of_lt hi,
    add_zero]

lemma rank_pages (mtd : Mtd) {a b : Nat} (h : a ≤ b) :
    rank (goodByte mtd) (a * mtd.geo.writesize) (b * mtd.geo.writesize) =
      rank (fun q => goodByte mtd (q * mtd.geo.writesize)) a b * mtd.geo.writesize := by
  refine rank_mul (fun q i hi => ?_) h
  have hpage := Nat.le_of_dvd (blockLeft_pos mtd (q * mtd.geo.writesize))
    (writesize_dvd_blockLeft (Nat.dvd_mul_left _ _))
  exact goodByte_block (Nat.le_add_right _ _) (by omega)

lemma rank_goodBlocks (aligned : mtd.geo.erasesize ∣ offset) :
    rank (goodByte mtd) offset mtd.geo.size = goodBlocks mtd offset * mtd.geo.erasesize := by
  obtain ⟨b, rfl⟩ := aligned
  have hb : mtd.geo.erasesize * b / mtd.geo.erasesize = b :=
    Nat.mul_div_cancel_left _ mtd.geo.erasesize_pos
  rw [goodBlocks, hb, mul_comm _ b]
  by_cases hle : b ≤ mtd.geo.blocks
  · exact rank_blocks mtd hle
  have hsize : mtd.geo.size ≤ b * mtd.geo.erasesize := Nat.mul_le_mul_right _ (by omega)
  have hbytes := rank_le (goodByte mtd) (b * mtd.geo.erasesize) mtd.geo.size
  have hblocks := rank_le (fun b => !mtd.bad b) b mtd.geo.blocks
  have hnone : rank (fun b => !mtd.bad b) b mtd.geo.blocks = 0 := by omega
  rw [hnone, zero_mul]
  omega

lemma enough_iff (aligned : mtd.geo.erasesize ∣ offset) (n : Nat) :
    blocksNeeded mtd n + 1 ≤ goodBlocks mtd offset ↔
      mtd.geo.erasesize + n * mtd.geo.writesize ≤ rank (goodByte mtd) offset mtd.geo.size := by
  have hpos := mtd.geo.erasesize_pos
  rw [rank_goodBlocks aligned]
  cases hblocks : goodBlocks mtd offset with
  | zero =>
    rw [zero_mul]
    omega
  | succ g =>
    rw [Nat.succ_mul, Nat.add_le_add_iff_right, blocksNeeded, ← Nat.lt_succ_iff,
      Nat.div_lt_iff_lt_mul hpos, Nat.succ_mul]
    omega

lemma PageAfterFirst.room {k q : Nat} (h : PageAfterFirst mtd offset k q) :
    mtd.geo.erasesize + (k + 1) * mtd.geo.writesize ≤ rank (goodByte mtd) offset mtd.geo.size := by
  have hpage := mtd.geo.page_inside h.inside
  have hblock : mtd.geo.writesize ≤ blockLeft mtd (q * mtd.geo.writesize) :=
    Nat.le_of_dvd (blockLeft_pos _ _) (writesize_dvd_blockLeft (Nat.dvd_mul_left _ _))
  rw [Nat.succ_mul] at hpage
  have hsplit : rank (goodByte mtd) offset (q * mtd.geo.writesize + mtd.geo.writesize) =
      rank (goodByte mtd) offset (q * mtd.geo.writesize) + rank (goodByte mtd)
        (q * mtd.geo.writesize) (q * mtd.geo.writesize + mtd.geo.writesize) :=
    rank_add h.behind (Nat.le_add_right _ _)
  rw [h.place, rank_good h.good (Nat.le_add_right _ _) (by omega)] at hsplit
  have hmono := rank_le_of_le (p := goodByte mtd)
    (le_trans h.behind (Nat.le_add_right _ mtd.geo.writesize)) hpage
  rw [Nat.succ_mul]
  omega

end

variable {offset : Nat}

structure SkippedTo (mtd : Mtd) (offset o : Nat) : Prop where
  behind : offset ≤ o
  aligned : mtd.geo.erasesize ∣ o
  room : o ≤ mtd.geo.size ∧
      rank (goodByte mtd) offset mtd.geo.size =
        mtd.geo.erasesize + rank (goodByte mtd) o mtd.geo.size ∧
      (∀ k q, PageAfterFirst mtd offset k q ↔ NthPage mtd o k q) ∨
    mtd.geo.size ≤ o ∧ rank (goodByte mtd) offset mtd.geo.size = 0

lemma skippedTo_of_first {mtd : Mtd} {first : Nat} (aligned : mtd.geo.erasesize ∣ offset)
    (hof : offset ≤ first) (good : isGood mtd first = true)
    (before : ∀ i, offset ≤ i → i < first → isGood mtd i = false)
    (block : first = offset ∨ mtd.geo.erasesize ∣ first) :
    SkippedTo mtd offset (first + blockLeft mtd first) := by
  have hdvd : mtd.geo.erasesize ∣ first := by
    rcases block with rfl | hdvd
    · exact aligned
    · exact hdvd
  refine ⟨by omega, dvd_blockEnd mtd first, ?_⟩
  by_cases hin : first < mtd.geo.size
  · have hgood : goodByte mtd first = true := (isGood_eq hin).symm.trans good
    have hend := blockEnd_le hin
    have hnone : rank (goodByte mtd) offset first = 0 :=
      rank_none hof fun i hi hlt => (isGood_eq (by omega)).symm.trans (before i hi hlt)
    have hblock : ∀ a, first ≤ a → a ≤ first + blockLeft mtd first →
        rank (goodByte mtd) offset a = a - first := by
      intro a ha hle
      rw [rank_add hof ha, hnone, rank_good hgood ha hle, zero_add]
    have hleft := blockLeft_of_dvd hdvd
    have hsplit : ∀ a, first + blockLeft mtd first ≤ a → rank (goodByte mtd) offset a =
        mtd.geo.erasesize + rank (goodByte mtd) (first + blockLeft mtd first) a := by
      intro a ha
      rw [rank_add (show offset ≤ first + blockLeft mtd first by omega) ha,
        hblock _ (Nat.le_add_right _ _) le_rfl]
      omega
    refine .inl ⟨hend, hsplit _ hend, fun k q => ⟨?_, ?_⟩⟩
    · rintro ⟨hbehind, hinside, hgoodq, hplace⟩
      have hnext : first + blockLeft mtd first ≤ q * mtd.geo.writesize := by
        by_contra hlt
        by_cases hfirst : q * mtd.geo.writesize < first
        · have hbad := before _ hbehind hfirst
          rw [isGood_eq hinside, hgoodq] at hbad
          exact nomatch hbad
        · rw [hblock _ (by omega) (by omega)] at hplace
          omega
      rw [hsplit _ hnext] at hplace
      exact ⟨hnext, hinside, hgoodq, by omega⟩
    · rintro ⟨hbehind, hinside, hgoodq, hplace⟩
      refine ⟨by omega, hinside, hgoodq, ?_⟩
      rw [hsplit _ hbehind, hplace]
  · refine .inr ⟨by omega, ?_⟩
    by_cases houtside : mtd.geo.size ≤ offset
    · have := rank_le (goodByte mtd) offset mtd.geo.size
      omega
    · exact rank_none (by omega) fun i hi hlt =>
        (isGood_eq hlt).symm.trans (before i hi (by omega))

lemma exists_first {mtd : Mtd} {left : Nat} (hleft : left ≠ 0) (some_good : SomeGood mtd)
    (length offset pbuf : Nat) (chip : Chip) (ram : Mem) :
    ∃ m first, offset ≤ first ∧ isGood mtd first = true ∧
      (∀ i, offset ≤ i → i < first → isGood mtd i = false) ∧
      (first = offset ∨ mtd.geo.erasesize ∣ first) ∧ ∀ fuel,
        writeLoop mtd length (m + fuel) offset left pbuf true chip ram =
          writeLoop mtd length fuel (first + blockLeft mtd first) left pbuf false chip ram := by
  obtain ⟨t, hot, ht⟩ := exists_isGood some_good offset
  obtain ⟨m, first, hof, -, hfirst, hbefore, hblock, hrun⟩ := seek_first
    (fun fuel o => writeLoop mtd length fuel o left pbuf true chip ram)
    (fun fuel _ => writeLoop_bad fuel hleft) hot ht
  refine ⟨m + 1, first, hof, hfirst, hbefore, hblock, fun fuel => ?_⟩
  have hadd : m + 1 + fuel = m + (fuel + 1) := by omega
  rw [hadd]
  exact (hrun (fuel + 1)).trans (writeLoop_skip fuel hleft hfirst)

lemma exists_skippedTo {mtd : Mtd} {left : Nat} (hleft : left ≠ 0)
    (aligned : mtd.geo.erasesize ∣ offset) (some_good : SomeGood mtd) (length pbuf : Nat)
    (chip : Chip) (ram : Mem) :
    ∃ m o, SkippedTo mtd offset o ∧ ∀ fuel,
      writeLoop mtd length (m + fuel) offset left pbuf true chip ram =
        writeLoop mtd length fuel o left pbuf false chip ram := by
  obtain ⟨m, first, hof, hfirst, hbefore, hblock, hrun⟩ :=
    exists_first hleft some_good length offset pbuf chip ram
  exact ⟨m, first + blockLeft mtd first, skippedTo_of_first aligned hof hfirst hbefore hblock, hrun⟩

section

variable {mtd : Mtd} {chip : Chip} {ram : Mem} {offset n buffer : Nat}

lemma nandWriteSkipBad_image (yaffs : mtd.rwOob = some true) (aligned : mtd.geo.writesize ∣ offset)
    {len : Nat} (hlen : getLenInclBad mtd offset (n * mtd.geo.writesize) = some len) (fuel : Nat) :
    nandWriteSkipBad fuel mtd true chip ram offset (n * stride mtd) buffer =
      if mtd.geo.size < offset + len then some ⟨-EINVAL, n * mtd.geo.writesize, chip, ram⟩
      else writeLoop mtd (n * mtd.geo.writesize) fuel offset (n * mtd.geo.writesize) buffer true chip
        ram := by
  have hchunk : n * stride mtd = n * (mtd.geo.oobsize + mtd.geo.writesize) := by
    rw [stride, add_comm]
  have hpos : 0 < mtd.geo.oobsize + mtd.geo.writesize :=
    Nat.add_pos_right _ mtd.geo.writesize_pos
  have hnone : ¬ mtd.rwOob = none := by simp [yaffs]
  unfold nandWriteSkipBad
  dsimp only
  rw [hchunk, Nat.mul_mod_left, Nat.mul_div_cancel _ hpos, if_neg (fun h => h.2 rfl), if_pos yaffs,
    Nat.mul_mod_left, if_neg (by omega), hlen, Option.bind_some]
  by_cases hpast : mtd.geo.size < offset + len
  · rw [if_pos hpast, if_pos hpast]
  · rw [if_neg hpast, if_neg hpast, if_neg (fun h => hnone h.1)]

/-- The spare bytes `nand_fill_oob` puts together are those of the chunks. -/
def SparesRight (mtd : Mtd) (chip : Chip) (ram : Mem) (n buffer : Nat) : Prop :=
  ∀ k, k < n → ∀ i, i < mtd.geo.oobsize →
    filledSpare mtd chip ram buffer k i = ram (buffer + k * stride mtd + mtd.geo.writesize + i)

lemma exists_nthPage {o k : Nat} (aligned : mtd.geo.erasesize ∣ o)
    (h : k * mtd.geo.writesize < rank (goodByte mtd) o mtd.geo.size) :
    ∃ q, NthPage mtd o k q := by
  obtain ⟨p, hp⟩ := Nat.dvd_trans mtd.geo.writesize_dvd_erasesize aligned
  obtain ⟨e, he⟩ := mtd.geo.writesize_dvd_size
  rw [mul_comm] at hp he
  subst hp
  have hle : p ≤ e := by
    by_contra hgt
    have hout : e * mtd.geo.writesize ≤ p * mtd.geo.writesize := Nat.mul_le_mul_right _ (by omega)
    have := rank_le (goodByte mtd) (p * mtd.geo.writesize) mtd.geo.size
    omega
  rw [he, rank_pages mtd hle] at h
  obtain ⟨q, hpq, hqe, hgood, hplace⟩ := exists_rank (Nat.lt_of_mul_lt_mul_right h)
  refine ⟨q, Nat.mul_le_mul_right _ hpq, ?_, hgood, ?_⟩
  · rw [he]
    exact Nat.mul_lt_mul_of_pos_right hqe mtd.geo.writesize_pos
  · rw [rank_pages mtd hpq, hplace]

lemma imageProgrammed_of_stored {o : Nat} {out : Chip}
    (pages : ∀ k q, PageAfterFirst mtd offset k q ↔ NthPage mtd o k q)
    (aligned : mtd.geo.erasesize ∣ o)
    (room : n * mtd.geo.writesize ≤ rank (goodByte mtd) o mtd.geo.size)
    (spares : SparesRight mtd chip ram n buffer)
    (stored : ImageStored mtd chip ram o (n * mtd.geo.writesize) buffer out) :
    ImageProgrammed mtd chip ram offset n buffer out := by
  have hwpos := mtd.geo.writesize_pos
  refine ⟨fun k hk => ?_, fun q hq => ?_⟩
  · have hlt : k * mtd.geo.writesize < n * mtd.geo.writesize :=
      Nat.mul_lt_mul_of_pos_right hk hwpos
    obtain ⟨q, hpage⟩ := exists_nthPage aligned (lt_of_lt_of_le hlt room)
    exact ⟨q, (pages k q).mpr hpage, stored.data k q hlt hpage,
      fun i hi => (stored.spare k q hlt hpage i hi).trans (spares k hk i hi)⟩
  · rcases stored.pages q hq with hold | ⟨k, hk, hpage⟩
    · exact .inl hold
    · exact .inr ⟨k, Nat.lt_of_mul_lt_mul_right hk, (pages k q).mpr hpage⟩

def Handled (mtd : Mtd) (chip : Chip) (ram : Mem) (offset n buffer : Nat) : Prop :=
  n = 0 ∨ mtd.geo.size ≤ offset ∨
    (100 ≤ n * mtd.geo.writesize ∧
      ((SomeGood mtd ∧ goodBlocks mtd offset ≤ 1) ∨
        (blocksNeeded mtd n + 1 ≤ goodBlocks mtd offset ∧ SparesRight mtd chip ram n buffer)))

lemma goodBlocks_outside (outside : mtd.geo.size ≤ offset) : goodBlocks mtd offset = 0 := by
  have hblocks : mtd.geo.blocks ≤ offset / mtd.geo.erasesize :=
    (Nat.le_div_iff_mul_le mtd.geo.erasesize_pos).mpr outside
  have hle := rank_le (fun b => !mtd.bad b) (offset / mtd.geo.erasesize) mtd.geo.blocks
  rw [goodBlocks]
  omega

lemma blocksNeeded_pos (mtd : Mtd) (h : 0 < n) : 0 < blocksNeeded mtd n := by
  have hpage : 0 < n * mtd.geo.writesize := Nat.mul_pos h mtd.geo.writesize_pos
  have hpos := mtd.geo.erasesize_pos
  exact Nat.div_pos (by omega) hpos

lemma someGood_of_rank (h : 0 < rank (goodByte mtd) offset mtd.geo.size) : SomeGood mtd := by
  obtain ⟨a, -, hsize, hgood, -⟩ := exists_rank h
  by_contra hnone
  rw [← isGood_eq hsize, isGood_of_none hnone] at hgood
  exact nomatch hgood

lemma outcome_empty (yaffs : mtd.rwOob = some true) (aligned : mtd.geo.writesize ∣ offset) :
    ∃ fuel r, nandWriteSkipBad fuel mtd true chip ram offset (0 * stride mtd) buffer = some r ∧
      Outcome mtd chip ram offset 0 buffer r := by
  have hlen : getLenInclBad mtd offset (0 * mtd.geo.writesize) = some 0 := by
    rw [zero_mul]
    exact getLenInclBad_zero mtd offset
  by_cases hin : offset ≤ mtd.geo.size
  · refine ⟨1, ⟨0, 0 * mtd.geo.writesize, chip, ram⟩, ?_, .inr ⟨rfl, ?_, ?_⟩⟩
    · rw [nandWriteSkipBad_image yaffs aligned hlen, if_neg (by omega), zero_mul, writeLoop_done]
    · intro k hk
      exact absurd hk (Nat.not_lt_zero k)
    · intro q hq
      exact .inl hq
  · refine ⟨0, ⟨-EINVAL, 0 * mtd.geo.writesize, chip, ram⟩, ?_, .inl ⟨(fun h => nomatch h), rfl, ?_⟩⟩
    · rw [nandWriteSkipBad_image yaffs aligned hlen, if_pos (by omega)]
    · rw [goodBlocks_outside (by omega)]
      exact Nat.succ_pos _

lemma outcome_outside (yaffs : mtd.rwOob = some true) (aligned : mtd.geo.writesize ∣ offset)
    (pos : 0 < n) (outside : mtd.geo.size ≤ offset) :
    ∃ fuel r, nandWriteSkipBad fuel mtd true chip ram offset (n * stride mtd) buffer = some r ∧
      Outcome mtd chip ram offset n buffer r := by
  obtain ⟨len, hlen, hlenpos⟩ := getLenInclBad_outside outside (Nat.mul_pos pos mtd.geo.writesize_pos)
  refine ⟨0, ⟨-EINVAL, n * mtd.geo.writesize, chip, ram⟩, ?_, .inl ⟨(fun h => nomatch h), rfl, ?_⟩⟩
  · rw [nandWriteSkipBad_image yaffs aligned hlen, if_pos (by omega)]
  · rw [goodBlocks_outside outside]
    exact Nat.succ_pos _

lemma nandWriteSkipBad_loop (yaffs : mtd.rwOob = some true) (aligned : mtd.geo.writesize ∣ offset)
    (hin : offset < mtd.geo.size) (chip : Chip) (ram : Mem) (n buffer fuel : Nat) :
    nandWriteSkipBad fuel mtd true chip ram offset (n * stride mtd) buffer =
      writeLoop mtd (n * mtd.geo.writesize) fuel offset (n * mtd.geo.writesize) buffer true chip
        ram := by
  obtain ⟨len, hlen, found⟩ := getLenInclBad_found (n * mtd.geo.writesize) hin
  rw [nandWriteSkipBad_image yaffs aligned hlen, if_neg (not_lt.mpr found.inside)]

lemma SkippedTo.noGood {o : Nat} (h : SkippedTo mtd offset o)
    (aligned : mtd.geo.erasesize ∣ offset) (few : goodBlocks mtd offset ≤ 1) : NoGood mtd o := by
  have hbytes := rank_goodBlocks aligned
  have hle : goodBlocks mtd offset * mtd.geo.erasesize ≤ 1 * mtd.geo.erasesize :=
    Nat.mul_le_mul_right _ few
  rcases h.room with ⟨-, hrank, -⟩ | ⟨hsize, -⟩
  · rw [NoGood]
    omega
  · have := rank_le (goodByte mtd) o mtd.geo.size
    rw [NoGood]
    omega

lemma outcome_of_handled (yaffs : mtd.rwOob = some true) (aligned : mtd.geo.erasesize ∣ offset)
    (pos : 0 < n) (hin : offset < mtd.geo.size) (many : 100 ≤ n * mtd.geo.writesize)
    (h : (SomeGood mtd ∧ goodBlocks mtd offset ≤ 1) ∨
      (blocksNeeded mtd n + 1 ≤ goodBlocks mtd offset ∧ SparesRight mtd chip ram n buffer)) :
    ∃ fuel r, nandWriteSkipBad fuel mtd true chip ram offset (n * stride mtd) buffer = some r ∧
      Outcome mtd chip ram offset n buffer r := by
  have hleft : n * mtd.geo.writesize ≠ 0 := by omega
  have hloop := nandWriteSkipBad_loop yaffs
    (Nat.dvd_trans mtd.geo.writesize_dvd_erasesize aligned) hin chip ram n buffer
  rcases h with ⟨hsome, few⟩ | ⟨enough, spares⟩
  · obtain ⟨m, o, skipped, hskip⟩ := exists_skippedTo hleft aligned hsome
      (n * mtd.geo.writesize) buffer chip ram
    obtain ⟨fuel, ram', hrun⟩ := writeLoop_noGood buffer chip ram hleft many
      (skipped.noGood aligned few) hsome
    refine ⟨m + fuel, _, (hloop _).trans ((hskip fuel).trans hrun),
      .inl ⟨(fun h => nomatch h), rfl, ?_⟩⟩
    have := blocksNeeded_pos mtd pos
    omega
  · rw [enough_iff aligned] at enough
    have hpos := mtd.geo.erasesize_pos
    have hsome : SomeGood mtd := someGood_of_rank (lt_of_lt_of_le (by omega) enough)
    obtain ⟨m, o, skipped, hskip⟩ := exists_skippedTo hleft aligned hsome
      (n * mtd.geo.writesize) buffer chip ram
    rcases skipped.room with ⟨hinside, hrank, pages⟩ | ⟨-, hnone⟩
    · have hroom : n * mtd.geo.writesize ≤ rank (goodByte mtd) o mtd.geo.size := by omega
      obtain ⟨out, hrun, hstored⟩ := imageLoop_fits yaffs many (mtd.geo.size + 1) o
        (n * mtd.geo.writesize) buffer (n * mtd.geo.writesize) chip ram hinside hroom
        (fun _ => skipped.aligned) (Nat.dvd_mul_left _ _) (Nat.le_mul_of_pos_right _ hpos) (by omega)
      exact ⟨m + (mtd.geo.size + 1), _, (hloop _).trans ((hskip _).trans hrun), .inr ⟨rfl,
        imageProgrammed_of_stored pages skipped.aligned hroom spares hstored⟩⟩
    · omega

lemma handled_of_outcome (yaffs : mtd.rwOob = some true) (aligned : mtd.geo.erasesize ∣ offset)
    (pos : 0 < n) (hin : offset < mtd.geo.size) {fuel : Nat} {r : Result}
    (hrun : nandWriteSkipBad fuel mtd true chip ram offset (n * stride mtd) buffer = some r)
    (outcome : Outcome mtd chip ram offset n buffer r) :
    100 ≤ n * mtd.geo.writesize ∧
      ((SomeGood mtd ∧ goodBlocks mtd offset ≤ 1) ∨
        (blocksNeeded mtd n + 1 ≤ goodBlocks mtd offset ∧ SparesRight mtd chip ram n buffer)) := by
  have hwpos := mtd.geo.writesize_pos
  have hpos := mtd.geo.erasesize_pos
  have hleft : n * mtd.geo.writesize ≠ 0 := Nat.ne_of_gt (Nat.mul_pos pos hwpos)
  rw [nandWriteSkipBad_loop yaffs (Nat.dvd_trans mtd.geo.writesize_dvd_erasesize aligned) hin]
    at hrun
  have hsome : SomeGood mtd := by
    by_contra hnone
    rw [writeLoop_never hnone hleft] at hrun
    exact nomatch hrun
  obtain ⟨m, o, skipped, hskip⟩ := exists_skippedTo hleft aligned hsome
    (n * mtd.geo.writesize) buffer chip ram
  have hpages : mtd.geo.writesize ∣ o :=
    Nat.dvd_trans mtd.geo.writesize_dvd_erasesize skipped.aligned
  have hafter : writeLoop mtd (n * mtd.geo.writesize) fuel o (n * mtd.geo.writesize) buffer false chip
      ram = some r := by
    rw [← hskip, Nat.add_comm]
    exact writeLoop_mono m hrun
  have many := many_of_returns hleft hafter
  refine ⟨many, ?_⟩
  by_cases few : goodBlocks mtd offset ≤ 1
  · exact .inl ⟨hsome, few⟩
  have hbytes := rank_goodBlocks aligned
  have hmany : 2 * mtd.geo.erasesize ≤ goodBlocks mtd offset * mtd.geo.erasesize :=
    Nat.mul_le_mul_right _ (by omega)
  rcases skipped.room with ⟨hinside, hrank, pages⟩ | ⟨-, hnone⟩
  swap
  · omega
  right
  by_cases enough : blocksNeeded mtd n + 1 ≤ goodBlocks mtd offset
  · refine ⟨enough, fun k hk i hi => ?_⟩
    rw [enough_iff aligned] at enough
    obtain ⟨out, hfits, hstored⟩ := imageLoop_fits yaffs many (mtd.geo.size + 1) o
      (n * mtd.geo.writesize) buffer (n * mtd.geo.writesize) chip ram hinside (by omega)
      (fun _ => skipped.aligned) (Nat.dvd_mul_left _ _) (Nat.le_mul_of_pos_right _ hpos) (by omega)
    obtain rfl := writeLoop_unique hfits hafter
    rcases outcome with ⟨hrval, -⟩ | ⟨-, programmed⟩
    · exact absurd rfl hrval
    obtain ⟨q, hpage, -, hspare⟩ := programmed.chunks k hk
    have hlt : k * mtd.geo.writesize < n * mtd.geo.writesize :=
      Nat.mul_lt_mul_of_pos_right hk hwpos
    exact (hstored.spare k q hlt ((pages k q).mp hpage) i hi).symm.trans (hspare i hi)
  · exfalso
    rcases outcome with ⟨-, untouched, -⟩ | ⟨-, programmed⟩
    · obtain ⟨hnone, -⟩ := noGood_of_untouched hleft hpages (Nat.dvd_mul_left _ _) hafter
        (congrArg List.length untouched)
      rw [NoGood] at hnone
      omega
    · obtain ⟨q, hpage, -⟩ := programmed.chunks (n - 1) (by omega)
      have hroom := hpage.room
      rw [Nat.sub_add_cancel pos] at hroom
      exact enough ((enough_iff aligned n).mpr hroom)

lemma outcome_iff (yaffs : mtd.rwOob = some true) (aligned : mtd.geo.erasesize ∣ offset) :
    (∃ fuel r, nandWriteSkipBad fuel mtd true chip ram offset (n * stride mtd) buffer = some r ∧
      Outcome mtd chip ram offset n buffer r) ↔ Handled mtd chip ram offset n buffer := by
  have hpages : mtd.geo.writesize ∣ offset :=
    Nat.dvd_trans mtd.geo.writesize_dvd_erasesize aligned
  rcases Nat.eq_zero_or_pos n with rfl | pos
  · exact iff_of_true (outcome_empty yaffs hpages) (.inl rfl)
  by_cases hin : offset < mtd.geo.size
  · constructor
    · rintro ⟨fuel, r, hrun, outcome⟩
      exact .inr (.inr (handled_of_outcome yaffs aligned pos hin hrun outcome))
    · rintro (hzero | hout | ⟨many, h⟩)
      · exact absurd hzero (Nat.ne_of_gt pos)
      · exact absurd hin (not_lt.mpr hout)
      · exact outcome_of_handled yaffs aligned pos hin many h
  · exact iff_of_true (outcome_outside yaffs hpages pos (not_lt.mp hin))
      (.inr (.inl (not_lt.mp hin)))

end

section

variable {mtd : Mtd} {rwOob : Option Bool}

lemma pageAfterFirst_rwOob {k q : Nat} :
    PageAfterFirst { mtd with rwOob := rwOob } offset k q ↔ PageAfterFirst mtd offset k q :=
  ⟨fun h => ⟨h.behind, h.inside, h.good, h.place⟩, fun h => ⟨h.behind, h.inside, h.good, h.place⟩⟩

lemma imageProgrammed_rwOob {chip out : Chip} {ram : Mem} {n buffer : Nat} :
    ImageProgrammed { mtd with rwOob := rwOob } chip ram offset n buffer out ↔
      ImageProgrammed mtd chip ram offset n buffer out := by
  constructor
  · rintro ⟨hchunks, honly⟩
    simp only [pageAfterFirst_rwOob] at hchunks honly
    exact ⟨hchunks, honly⟩
  · rintro ⟨hchunks, honly⟩
    constructor
    · simp only [pageAfterFirst_rwOob]
      exact hchunks
    · simp only [pageAfterFirst_rwOob]
      exact honly

lemma outcome_rwOob {chip : Chip} {ram : Mem} {n buffer : Nat} {r : Result} :
    Outcome { mtd with rwOob := rwOob } chip ram offset n buffer r ↔
      Outcome mtd chip ram offset n buffer r :=
  or_congr Iff.rfl (and_congr Iff.rfl imageProgrammed_rwOob)

end

/-- 'nand write.yaffs2' refuses or writes the image exactly if enough good blocks are there or at
most one is, and the spare bytes are put together from byte 0. -/
theorem writeYaffs2_iff {mtd : Mtd} (chip : Chip) (ram : Mem) {offset : Nat} (n buffer : Nat)
    (aligned : mtd.geo.erasesize ∣ offset) :
    (∃ fuel r, nandWriteYaffs2 fuel mtd chip ram offset (n * stride mtd) buffer = some r ∧
      Outcome mtd chip ram offset n buffer r) ↔ Handled mtd chip ram offset n buffer := by
  have hcall : (∃ fuel r, nandWriteYaffs2 fuel mtd chip ram offset (n * stride mtd) buffer = some r ∧
      Outcome { mtd with rwOob := some true } chip ram offset n buffer r) ↔
      Handled { mtd with rwOob := some true } chip ram offset n buffer := outcome_iff rfl aligned
  simp only [outcome_rwOob] at hcall
  exact hcall

def threeGood : Mtd where
  geo := .smallPage 3
  size_le := by decide
  bad _ := false
  flips _ := false
  subpageSft := 2
  subpageSft_le := by decide
  subpageRead := none
  subpageRead_pos := no_subpages
  writeEcc _ oob := oob
  rwOob := some false

theorem writeYaffs2_iff_one_chunk :
    (∃ fuel r, nandWriteYaffs2 fuel threeGood blankChip (fun _ => 0) 0 (1 * stride threeGood) 0 =
        some r ∧ Outcome threeGood blankChip (fun _ => 0) 0 1 0 r) ↔
      Handled threeGood blankChip (fun _ => 0) 0 1 0 :=
  writeYaffs2_iff _ _ _ _ (Nat.dvd_zero _)

/-- An image of 65 chunks takes three blocks, and with the one skipped there are two. -/
theorem image_runs_out : ¬ ∃ fuel r, nandWriteYaffs2 fuel threeGood blankChip (fun _ => 0) 0
    (65 * stride threeGood) 0 = some r ∧ Outcome threeGood blankChip (fun _ => 0) 0 65 0 r := by
  rintro ⟨fuel, r, hrun, outcome⟩
  have hhandled : Handled { threeGood with rwOob := some true } blankChip (fun _ => 0) 0 65 0 :=
    (outcome_iff rfl (Nat.dvd_zero _)).mp ⟨fuel, r, hrun, outcome_rwOob.mpr outcome⟩
  rcases hhandled with hzero | hout | ⟨-, ⟨-, few⟩ | ⟨enough, -⟩⟩
  · exact nomatch hzero
  · exact absurd hout (by decide)
  · exact absurd few (by decide)
  · exact absurd enough (by decide)

end Yaffs2Write
