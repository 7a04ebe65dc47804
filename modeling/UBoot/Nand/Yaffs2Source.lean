import UBoot.Nand.Yaffs2Write

/-!
# What a YAFFS2 write leaves of its source

Each block of the image is de-interleaved where it lies, also the one that then does
not fit the device. The image survives only if every such block reads the same
before and after.
-/

namespace Yaffs2Source

open Nand ByteMemory NandBase NandUtil PageOps GoodSpace WriteSkipBad Shuffle ImageWrite Yaffs2Write
open Rank

/-- `m` chunks read the same by turns and as all the data and then all the spare bytes. -/
def GroupInOrder (mtd : Mtd) (ram : Mem) (base m : Nat) : Prop :=
  ∀ k, k < m →
    (∀ c, c < mtd.geo.writesize →
      ram (base + k * stride mtd + c) = ram (base + k * mtd.geo.writesize + c)) ∧
    ∀ i, i < mtd.geo.oobsize → ram (base + k * stride mtd + mtd.geo.writesize + i) =
      ram (base + m * mtd.geo.writesize + k * mtd.geo.oobsize + i)

section

variable {mtd : Mtd} {ram : Mem} {base m : Nat}

lemma arranged_of_inOrder (h : GroupInOrder mtd ram base m) :
    arranged mtd.geo.writesize mtd.geo.oobsize m m base ram = ram := by
  have htotal : m * (mtd.geo.writesize + mtd.geo.oobsize) =
      m * mtd.geo.writesize + m * mtd.geo.oobsize := Nat.mul_add _ _ _
  funext a
  by_cases hin : base ≤ a ∧ a < base + m * (mtd.geo.writesize + mtd.geo.oobsize)
  swap
  · exact arranged_outside (by omega) ram
  obtain ⟨x, rfl⟩ := Nat.exists_eq_add_of_le hin.1
  by_cases hdata : x < m * mtd.geo.writesize
  · have hpos := mtd.geo.writesize_pos
    have hk := (Nat.div_lt_iff_lt_mul hpos).mpr hdata
    have hc := Nat.mod_lt x hpos
    have hcell := (h _ hk).1 _ hc
    rw [add_assoc, add_assoc, Nat.div_add_mod'] at hcell
    have hmoved := arranged_data mtd.geo.oobsize hk hc base ram
    rw [Nat.div_add_mod'] at hmoved
    exact hmoved.trans hcell
  · obtain ⟨y, rfl⟩ := Nat.exists_eq_add_of_le (not_lt.mp hdata)
    have hpos : 0 < mtd.geo.oobsize := by
      by_contra hzero
      have hnone : m * mtd.geo.oobsize = 0 := by rw [Nat.eq_zero_of_not_pos hzero, mul_zero]
      omega
    have hk : y / mtd.geo.oobsize < m := (Nat.div_lt_iff_lt_mul hpos).mpr (by omega)
    have hi := Nat.mod_lt y hpos
    have hcell := (h _ hk).2 _ hi
    have hspare := arranged_spare mtd.geo.writesize hk hi base ram
    rw [Nat.div_add_mod'] at hspare
    rw [add_assoc _ (_ * mtd.geo.oobsize), Nat.div_add_mod'] at hcell
    rw [← add_assoc, hspare, ← hcell]
    congr 1
    rw [stride]
    omega

lemma inOrder_of_arranged
    (h : arranged mtd.geo.writesize mtd.geo.oobsize m m base ram = ram) :
    GroupInOrder mtd ram base m := by
  intro k hk
  constructor
  · intro c hc
    have hcell := arranged_data mtd.geo.oobsize hk hc base ram
    rw [h] at hcell
    rw [add_assoc, add_assoc, hcell]
    rfl
  · intro i hi
    have hcell := arranged_spare mtd.geo.writesize hk hi base ram
    rw [h] at hcell
    rw [add_assoc _ (k * mtd.geo.oobsize), hcell, stride]
    congr 1
    omega

end

def pagesPerBlock (mtd : Mtd) : Nat := mtd.geo.erasesize / mtd.geo.writesize

lemma erasesize_eq (mtd : Mtd) : mtd.geo.erasesize = pagesPerBlock mtd * mtd.geo.writesize :=
  (Nat.div_mul_cancel mtd.geo.writesize_dvd_erasesize).symm

section

variable {mtd : Mtd}

lemma shuffleGroups_before (yaffs : mtd.rwOob = some true) (count left : Nat) {pbuf a : Nat}
    (ram : Mem) (h : a < pbuf) : shuffleGroups mtd count left pbuf ram a = ram a := by
  induction count generalizing left pbuf ram with
  | zero => rfl
  | succ count ih =>
    rw [shuffleGroups]
    split_ifs
    · rfl
    · dsimp only
      rw [ih _ _ (lt_of_lt_of_le h (Nat.le_add_right _ _)), shuffled_eq yaffs]
      exact arranged_outside (.inl h) ram

lemma shuffleGroups_succ (yaffs : mtd.rwOob = some true) (count : Nat) {n : Nat} (pos : 0 < n)
    (pbuf : Nat) (ram : Mem) :
    shuffleGroups mtd (count + 1) (n * mtd.geo.writesize) pbuf ram =
      shuffleGroups mtd count ((n - min n (pagesPerBlock mtd)) * mtd.geo.writesize)
        (pbuf + min n (pagesPerBlock mtd) * stride mtd)
        (arranged mtd.geo.writesize mtd.geo.oobsize (min n (pagesPerBlock mtd))
          (min n (pagesPerBlock mtd)) pbuf ram) := by
  have hleft : n * mtd.geo.writesize ≠ 0 := Nat.ne_of_gt (Nat.mul_pos pos mtd.geo.writesize_pos)
  have hmin : min (n * mtd.geo.writesize) mtd.geo.erasesize =
      min n (pagesPerBlock mtd) * mtd.geo.writesize := by
    rw [erasesize_eq, Nat.mul_min_mul_right]
  rw [shuffleGroups, if_neg hleft]
  dsimp only
  rw [hmin, shuffled_eq yaffs, Nat.mul_div_cancel _ mtd.geo.writesize_pos, Nat.sub_mul]

lemma shuffleGroups_eq_iff (yaffs : mtd.rwOob = some true) (count n pbuf : Nat) (ram : Mem) :
    shuffleGroups mtd count (n * mtd.geo.writesize) pbuf ram = ram ↔
      ∀ g, g < count → g * pagesPerBlock mtd < n →
        GroupInOrder mtd ram (pbuf + g * pagesPerBlock mtd * stride mtd)
          (min (n - g * pagesPerBlock mtd) (pagesPerBlock mtd)) := by
  induction count generalizing n pbuf ram with
  | zero => exact iff_of_true rfl fun g hg => absurd hg (Nat.not_lt_zero g)
  | succ count ih =>
    rcases Nat.eq_zero_or_pos n with rfl | pos
    · refine iff_of_true ?_ fun g _ hn => absurd hn (Nat.not_lt_zero _)
      rw [zero_mul, shuffleGroups, if_pos rfl]
    rw [shuffleGroups_succ yaffs count pos]
    -- the first group, and the later ones as groups of the rest
    have hfirst : pbuf + 0 * pagesPerBlock mtd * stride mtd = pbuf := by
      rw [zero_mul, zero_mul, add_zero]
    have hcount : n - 0 * pagesPerBlock mtd = n := by rw [zero_mul, Nat.sub_zero]
    have hlater : (∀ g, g < count → g * pagesPerBlock mtd < n - min n (pagesPerBlock mtd) →
        GroupInOrder mtd ram
          (pbuf + min n (pagesPerBlock mtd) * stride mtd + g * pagesPerBlock mtd * stride mtd)
          (min (n - min n (pagesPerBlock mtd) - g * pagesPerBlock mtd) (pagesPerBlock mtd))) ↔
        ∀ g, g < count → (g + 1) * pagesPerBlock mtd < n →
          GroupInOrder mtd ram (pbuf + (g + 1) * pagesPerBlock mtd * stride mtd)
            (min (n - (g + 1) * pagesPerBlock mtd) (pagesPerBlock mtd)) := by
      refine forall_congr' fun g => forall_congr' fun _ => ?_
      have hsucc : (g + 1) * pagesPerBlock mtd = g * pagesPerBlock mtd + pagesPerBlock mtd :=
        Nat.succ_mul _ _
      by_cases hmore : (g + 1) * pagesPerBlock mtd < n
      · have hmin : min n (pagesPerBlock mtd) = pagesPerBlock mtd := min_eq_right (by omega)
        have hplace : pbuf + pagesPerBlock mtd * stride mtd + g * pagesPerBlock mtd * stride mtd =
            pbuf + (g + 1) * pagesPerBlock mtd * stride mtd := by
          rw [hsucc, Nat.add_mul]
          omega
        have hrest : n - pagesPerBlock mtd - g * pagesPerBlock mtd =
            n - (g + 1) * pagesPerBlock mtd := by omega
        rw [hmin, hplace, hrest]
        exact ⟨fun h _ => h (by omega), fun h _ => h hmore⟩
      · exact iff_of_true (fun h => absurd h (by omega)) fun h => absurd h hmore
    constructor
    · intro h
      have hsame : arranged mtd.geo.writesize mtd.geo.oobsize (min n (pagesPerBlock mtd))
          (min n (pagesPerBlock mtd)) pbuf ram = ram := by
        funext a
        by_cases hbefore : a < pbuf + min n (pagesPerBlock mtd) * stride mtd
        · exact (shuffleGroups_before yaffs count _ _ hbefore).symm.trans (congrFun h a)
        · exact arranged_outside (.inr (not_lt.mp hbefore)) ram
      rw [hsame, ih, hlater] at h
      rintro (_ | g) hg hn
      · rw [hfirst, hcount]
        exact inOrder_of_arranged hsame
      · exact h g (Nat.lt_of_succ_lt_succ hg) hn
    · intro h
      have hzero := h 0 (Nat.succ_pos count) (by rwa [zero_mul])
      rw [hfirst, hcount] at hzero
      rw [arranged_of_inOrder hzero, ih, hlater]
      exact fun g hg hn => h (g + 1) (Nat.succ_lt_succ hg) hn

end

section

variable {mtd : Mtd}

lemma imageLoop_short (yaffs : mtd.rwOob = some true) {length : Nat} (many : 100 ≤ length)
    (some_good : SomeGood mtd) (count o left pbuf : Nat) (chip : Chip) (ram : Mem)
    (aligned : mtd.geo.erasesize ∣ o) (whole : mtd.geo.writesize ∣ left)
    (good : goodBlocks mtd o = count) (short : count * mtd.geo.erasesize < left) :
    ∃ fuel r, writeLoop mtd length fuel o left pbuf false chip ram = some r ∧
      r.ram = shuffleGroups mtd (count + 1) left pbuf ram := by
  induction count generalizing o left pbuf chip ram with
  | zero =>
    have hleft : left ≠ 0 := by omega
    have hnone : NoGood mtd o := by rw [NoGood, rank_goodBlocks aligned, good, zero_mul]
    obtain ⟨t, hot, ht⟩ := exists_isGood some_good o
    obtain ⟨n, first, hof, -, hfirst, -, hblock, hrun⟩ := seek_first
      (fun fuel o => writeLoop mtd length fuel o left pbuf false chip ram)
      (fun fuel _ => writeLoop_bad fuel hleft) hot ht
    have hdvd : mtd.geo.erasesize ∣ first := by
      rcases hblock with rfl | hdvd
      · exact aligned
      · exact hdvd
    have hsize := size_le_of_noGood hnone hof hfirst
    have hpos := blockLeft_pos mtd first
    refine ⟨n + 1, ⟨-EINVAL, length - left, chip, shuffled mtd ram (min left (blockLeft mtd first)) pbuf⟩,
      (hrun 1).trans ?_, ?_⟩
    · rw [writeLoop_write 0 hleft hfirst many (nandWrite_past (by omega) _ _ _), if_pos (by decide)]
    · rw [shuffleGroups, if_neg hleft, blockLeft_of_dvd hdvd]
      rfl
  | succ count ih =>
    have hpos := mtd.geo.erasesize_pos
    have hsucc : (count + 1) * mtd.geo.erasesize = count * mtd.geo.erasesize + mtd.geo.erasesize :=
      Nat.succ_mul _ _
    have hleft : left ≠ 0 := by omega
    have hrank := rank_goodBlocks aligned
    rw [good] at hrank
    obtain ⟨t, hot, hin, hgoodt, -⟩ := exists_rank (show 0 < rank (goodByte mtd) o mtd.geo.size by omega)
    obtain ⟨n, first, hof, hft, hfirst, hbefore, hblock, hrun⟩ := seek_first
      (fun fuel o => writeLoop mtd length fuel o left pbuf false chip ram)
      (fun fuel _ => writeLoop_bad fuel hleft) hot ((isGood_eq hin).trans hgoodt)
    have hdvd : mtd.geo.erasesize ∣ first := by
      rcases hblock with rfl | hdvd
      · exact aligned
      · exact hdvd
    have hinside : first < mtd.geo.size := by omega
    have hleftBlock := blockLeft_of_dvd hdvd
    have hend := blockEnd_le hinside
    have hgood : goodByte mtd first = true := (isGood_eq hinside).symm.trans hfirst
    have hnone : rank (goodByte mtd) o first = 0 :=
      rank_none hof fun i hi hlt => (isGood_eq (by omega)).symm.trans (hbefore i hi hlt)
    have hnext : mtd.geo.erasesize ∣ first + mtd.geo.erasesize := Nat.dvd_add_self_right.mpr hdvd
    have hrest : goodBlocks mtd (first + mtd.geo.erasesize) = count := by
      have hsplit : rank (goodByte mtd) o mtd.geo.size = rank (goodByte mtd) o first +
          (rank (goodByte mtd) first (first + mtd.geo.erasesize) +
            rank (goodByte mtd) (first + mtd.geo.erasesize) mtd.geo.size) := by
        rw [rank_add hof (le_of_lt hinside),
          rank_add (show first ≤ first + mtd.geo.erasesize by omega) (by omega)]
      rw [hnone, rank_good hgood (Nat.le_add_right _ _) (by omega), rank_goodBlocks hnext, hrank,
        hsucc] at hsplit
      exact Nat.eq_of_mul_eq_mul_right hpos (by omega)
    have hmin : min left (blockLeft mtd first) = mtd.geo.erasesize := by
      rw [hleftBlock, Nat.min_eq_right (by omega)]
    obtain ⟨mid, hmid, hwrite⟩ := nandWrite_range chip ram pbuf (by omega)
      (Nat.dvd_trans mtd.geo.writesize_dvd_erasesize hdvd) mtd.geo.writesize_dvd_erasesize hpos
      mtd.geo.erasesize_lt
    obtain ⟨fuel, r, hafter, hram⟩ := ih (first + mtd.geo.erasesize) (left - mtd.geo.erasesize)
      (pbuf + mtd.geo.erasesize / mtd.geo.writesize * stride mtd) mid
      (shuffled mtd ram mtd.geo.erasesize pbuf) hnext
      (Nat.dvd_sub whole mtd.geo.writesize_dvd_erasesize) hrest (by omega)
    refine ⟨n + (fuel + 1), r, (hrun (fuel + 1)).trans ?_, ?_⟩
    · have hstep : bufferStep mtd mtd.geo.erasesize =
          mtd.geo.erasesize / mtd.geo.writesize * stride mtd := by
        have hpages := bufferStep_pages yaffs (pagesPerBlock mtd)
        rwa [← erasesize_eq] at hpages
      rw [← hmin] at hmid
      rw [writeLoop_write fuel hleft hfirst many hmid, if_neg (by decide), hmin, hstep, hafter]
    · conv_rhs => rw [shuffleGroups, if_neg hleft]
      rw [min_eq_right (by omega), hram]

lemma goodBlocks_after {offset first : Nat} (hof : offset ≤ first)
    (good : isGood mtd first = true) (before : ∀ i, offset ≤ i → i < first → isGood mtd i = false) :
    goodBlocks mtd (first + blockLeft mtd first) = goodBlocks mtd offset - 1 := by
  have hpos := mtd.geo.erasesize_pos
  have hle : offset / mtd.geo.erasesize ≤ first / mtd.geo.erasesize := Nat.div_le_div_right hof
  have hnext : (first + blockLeft mtd first) / mtd.geo.erasesize =
      first / mtd.geo.erasesize + 1 := by
    rw [blockEnd_eq, Nat.mul_div_cancel _ hpos]
  -- a block before that of `first` has a byte before `first`
  have hbad : ∀ b, offset / mtd.geo.erasesize ≤ b → b < first / mtd.geo.erasesize →
      b < mtd.geo.blocks → (!mtd.bad b) = false := by
    intro b hb hlt hin
    have hbstart : max offset (b * mtd.geo.erasesize) / mtd.geo.erasesize = b := by
      rcases Nat.le_total offset (b * mtd.geo.erasesize) with h | h
      · rw [Nat.max_eq_right h, Nat.mul_div_cancel _ hpos]
      · rw [Nat.max_eq_left h]
        exact le_antisymm hb ((Nat.le_div_iff_mul_le hpos).mpr h)
    have hfirst : max offset (b * mtd.geo.erasesize) < first := by
      by_contra hge
      have hdiv : first / mtd.geo.erasesize ≤
          max offset (b * mtd.geo.erasesize) / mtd.geo.erasesize :=
        Nat.div_le_div_right (not_lt.mp hge)
      rw [hbstart] at hdiv
      omega
    have hsize : max offset (b * mtd.geo.erasesize) < mtd.geo.size :=
      (Nat.div_lt_iff_lt_mul hpos).mp (by rwa [hbstart])
    have hgood := before _ (Nat.le_max_left _ _) hfirst
    rwa [isGood_eq hsize, goodByte, hbstart] at hgood
  rw [goodBlocks, goodBlocks, hnext]
  by_cases hin : first / mtd.geo.erasesize < mtd.geo.blocks
  · have hnone : rank (fun b => !mtd.bad b) (offset / mtd.geo.erasesize)
        (first / mtd.geo.erasesize) = 0 := rank_none hle fun b hb hlt => hbad b hb hlt (by omega)
    have hgood : (!mtd.bad (first / mtd.geo.erasesize)) = true :=
      (isGood_eq ((Nat.div_lt_iff_lt_mul hpos).mp hin)).symm.trans good
    have hsucc : rank (fun b => !mtd.bad b) (offset / mtd.geo.erasesize)
        (first / mtd.geo.erasesize + 1) = 1 := by
      rw [rank_succ hle, hnone, if_pos hgood]
    have hsplit : rank (fun b => !mtd.bad b) (offset / mtd.geo.erasesize) mtd.geo.blocks = _ :=
      rank_add (Nat.le_succ_of_le hle) hin
    rw [hsplit, hsucc]
    exact (Nat.add_sub_cancel_left 1 _).symm
  · have hend := rank_le (fun b => !mtd.bad b) (first / mtd.geo.erasesize + 1) mtd.geo.blocks
    have hnone : rank (fun b => !mtd.bad b) (offset / mtd.geo.erasesize) mtd.geo.blocks = 0 := by
      by_cases hoff : offset / mtd.geo.erasesize ≤ mtd.geo.blocks
      · exact rank_none hoff fun b hb hlt => hbad b hb (by omega) hlt
      · have := rank_le (fun b => !mtd.bad b) (offset / mtd.geo.erasesize) mtd.geo.blocks
        omega
    omega

end

def SourceInOrder (mtd : Mtd) (ram : Mem) (offset n buffer : Nat) : Prop :=
  ¬ mtd.geo.writesize ∣ offset ∨ mtd.geo.size ≤ offset ∨ ¬ SomeGood mtd ∨
    n * mtd.geo.writesize < 100 ∨
    ∀ g, g < max (goodBlocks mtd offset) 1 → g * pagesPerBlock mtd < n →
      GroupInOrder mtd ram (buffer + g * pagesPerBlock mtd * stride mtd)
        (min (n - g * pagesPerBlock mtd) (pagesPerBlock mtd))

section

variable {mtd : Mtd} {chip : Chip} {ram : Mem} {offset n buffer : Nat}

lemma nandWriteSkipBad_ragged (yaffs : mtd.rwOob = some true)
    (ragged : ¬ mtd.geo.writesize ∣ offset) (fuel : Nat) :
    nandWriteSkipBad fuel mtd true chip ram offset (n * stride mtd) buffer =
      some ⟨-EINVAL, n * mtd.geo.writesize, chip, ram⟩ := by
  have hchunk : n * stride mtd = n * (mtd.geo.oobsize + mtd.geo.writesize) := by
    rw [stride, add_comm]
  have hpos : 0 < mtd.geo.oobsize + mtd.geo.writesize :=
    Nat.add_pos_right _ mtd.geo.writesize_pos
  unfold nandWriteSkipBad
  dsimp only
  rw [hchunk, Nat.mul_mod_left, Nat.mul_div_cancel _ hpos, if_neg (fun h => h.2 rfl), if_pos yaffs,
    if_pos (.inl fun h => ragged (Nat.dvd_of_mod_eq_zero h))]

lemma ram_of_empty {length fuel o pbuf : Nat} {skip : Bool} {r : Result}
    (h : writeLoop mtd length fuel o 0 pbuf skip chip ram = some r) : r.ram = ram := by
  cases fuel with
  | zero => exact nomatch h
  | succ fuel =>
    rw [writeLoop_done] at h
    cases h
    rfl

lemma ram_of_outside (yaffs : mtd.rwOob = some true) (aligned : mtd.geo.writesize ∣ offset)
    (outside : mtd.geo.size ≤ offset) {fuel : Nat} {r : Result}
    (h : nandWriteSkipBad fuel mtd true chip ram offset (n * stride mtd) buffer = some r) :
    r.ram = ram := by
  rcases Nat.eq_zero_or_pos n with rfl | pos
  · have hlen : getLenInclBad mtd offset (0 * mtd.geo.writesize) = some 0 := by
      rw [zero_mul]
      exact getLenInclBad_zero mtd offset
    rw [nandWriteSkipBad_image yaffs aligned hlen] at h
    split_ifs at h
    · cases h
      rfl
    · rw [zero_mul] at h
      exact ram_of_empty h
  · obtain ⟨len, hlen, hlenpos⟩ :=
      getLenInclBad_outside outside (Nat.mul_pos pos mtd.geo.writesize_pos)
    rw [nandWriteSkipBad_image yaffs aligned hlen, if_pos (by omega)] at h
    cases h
    rfl

lemma exists_run (yaffs : mtd.rwOob = some true) (aligned : mtd.geo.writesize ∣ offset)
    (hin : offset < mtd.geo.size) (some_good : SomeGood mtd) (many : 100 ≤ n * mtd.geo.writesize)
    (chip : Chip) (ram : Mem) (buffer : Nat) :
    ∃ fuel r, nandWriteSkipBad fuel mtd true chip ram offset (n * stride mtd) buffer = some r ∧
      r.ram = shuffleGroups mtd (max (goodBlocks mtd offset) 1) (n * mtd.geo.writesize) buffer
        ram := by
  have hleft : n * mtd.geo.writesize ≠ 0 := by omega
  have hloop := nandWriteSkipBad_loop yaffs aligned hin chip ram n buffer
  obtain ⟨m, first, hof, hfirst, hbefore, -, hskip⟩ :=
    exists_first hleft some_good (n * mtd.geo.writesize) offset buffer chip ram
  have hafter := goodBlocks_after hof hfirst hbefore
  have hdvd := dvd_blockEnd mtd first
  have hrank := rank_goodBlocks hdvd
  rw [hafter] at hrank
  by_cases hroom : n * mtd.geo.writesize ≤ (goodBlocks mtd offset - 1) * mtd.geo.erasesize
  · have hle := rank_le (goodByte mtd) (first + blockLeft mtd first) mtd.geo.size
    have hgroups : (goodBlocks mtd offset - 1) * mtd.geo.erasesize ≤
        max (goodBlocks mtd offset) 1 * mtd.geo.erasesize := Nat.mul_le_mul_right _ (by omega)
    obtain ⟨out, hrun, -⟩ := imageLoop_fits yaffs many (mtd.geo.size + 1)
      (first + blockLeft mtd first) (n * mtd.geo.writesize) buffer (max (goodBlocks mtd offset) 1)
      chip ram (by omega) (by omega) (fun _ => hdvd) (Nat.dvd_mul_left _ _) (by omega) (by omega)
    exact ⟨m + (mtd.geo.size + 1), _, (hloop _).trans ((hskip _).trans hrun), rfl⟩
  · obtain ⟨fuel, r, hrun, hram⟩ := imageLoop_short yaffs many some_good
      (goodBlocks mtd offset - 1) (first + blockLeft mtd first) (n * mtd.geo.writesize) buffer chip ram
      hdvd (Nat.dvd_mul_left _ _) hafter (by omega)
    have hcount : goodBlocks mtd offset - 1 + 1 = max (goodBlocks mtd offset) 1 := by omega
    rw [hcount] at hram
    exact ⟨m + fuel, r, (hloop _).trans ((hskip _).trans hrun), hram⟩

lemma ram_kept_iff (yaffs : mtd.rwOob = some true) :
    (∀ fuel r, nandWriteSkipBad fuel mtd true chip ram offset (n * stride mtd) buffer = some r →
      r.ram = ram) ↔ SourceInOrder mtd ram offset n buffer := by
  by_cases aligned : mtd.geo.writesize ∣ offset
  swap
  · refine iff_of_true (fun fuel r h => ?_) (.inl aligned)
    rw [nandWriteSkipBad_ragged yaffs aligned] at h
    cases h
    rfl
  by_cases hin : offset < mtd.geo.size
  swap
  · exact iff_of_true (fun fuel r h => ram_of_outside yaffs aligned (not_lt.mp hin) h)
      (.inr (.inl (not_lt.mp hin)))
  have hloop := nandWriteSkipBad_loop yaffs aligned hin chip ram n buffer
  rcases Nat.eq_zero_or_pos n with rfl | pos
  · refine iff_of_true (fun fuel r h => ?_)
      (.inr (.inr (.inr (.inl (by rw [zero_mul]; exact Nat.succ_pos _)))))
    rw [hloop, zero_mul] at h
    exact ram_of_empty h
  have hleft : n * mtd.geo.writesize ≠ 0 := Nat.ne_of_gt (Nat.mul_pos pos mtd.geo.writesize_pos)
  by_cases hsome : SomeGood mtd
  swap
  · refine iff_of_true (fun fuel r h => ?_) (.inr (.inr (.inl hsome)))
    rw [hloop, writeLoop_never hsome hleft] at h
    exact nomatch h
  by_cases many : 100 ≤ n * mtd.geo.writesize
  swap
  · refine iff_of_true (fun fuel r h => ?_)
      (.inr (.inr (.inr (.inl (not_le.mp many)))))
    obtain ⟨m, first, -, -, -, -, hskip⟩ :=
      exists_first hleft hsome (n * mtd.geo.writesize) offset buffer chip ram
    rw [hloop] at h
    have hmore := writeLoop_mono m h
    rw [add_comm, hskip] at hmore
    exact absurd (many_of_returns hleft hmore) many
  obtain ⟨fuel, r, hrun, hram⟩ := exists_run yaffs aligned hin hsome many chip ram buffer
  have hkept : (∀ fuel r, nandWriteSkipBad fuel mtd true chip ram offset (n * stride mtd) buffer =
      some r → r.ram = ram) ↔ r.ram = ram := by
    refine ⟨fun h => h fuel r hrun, fun h fuel' r' hrun' => ?_⟩
    rw [hloop] at hrun hrun'
    rw [writeLoop_unique hrun' hrun]
    exact h
  rw [hkept, hram, shuffleGroups_eq_iff yaffs]
  constructor
  · intro h
    exact .inr (.inr (.inr (.inr h)))
  · rintro (hragged | hout | hnone | hfew | h)
    · exact absurd aligned hragged
    · exact absurd hin (not_lt.mpr hout)
    · exact absurd hsome hnone
    · exact absurd many (not_le.mpr hfew)
    · exact h

end

def SourceKept (mtd : Mtd) (chip : Chip) (ram : Mem) (offset n buffer : Nat) : Prop :=
  ∀ fuel r, nandWriteYaffs2 fuel mtd chip ram offset (n * stride mtd) buffer = some r →
    r.ram = ram ∧ ∀ fuel' chip' offset',
      nandWriteYaffs2 fuel' mtd chip' r.ram offset' (n * stride mtd) buffer =
        nandWriteYaffs2 fuel' mtd chip' ram offset' (n * stride mtd) buffer

lemma sourceKept_iff_ram {mtd : Mtd} {chip : Chip} {ram : Mem} {offset n buffer : Nat} :
    SourceKept mtd chip ram offset n buffer ↔
      ∀ fuel r, nandWriteYaffs2 fuel mtd chip ram offset (n * stride mtd) buffer = some r →
        r.ram = ram := by
  constructor
  · intro h fuel r hrun
    exact (h fuel r hrun).1
  · intro h fuel r hrun
    have hram := h fuel r hrun
    refine ⟨hram, fun fuel' chip' offset' => ?_⟩
    rw [hram]

/-- The source image survives exactly if the blocks of it that are shuffled are in order. -/
theorem sourceKept_iff (mtd : Mtd) (chip : Chip) (ram : Mem) (offset n buffer : Nat) :
    SourceKept mtd chip ram offset n buffer ↔ SourceInOrder mtd ram offset n buffer := by
  have hcall : (∀ fuel r, nandWriteYaffs2 fuel mtd chip ram offset (n * stride mtd) buffer = some r →
      r.ram = ram) ↔ SourceInOrder { mtd with rwOob := some true } ram offset n buffer :=
    ram_kept_iff rfl
  exact sourceKept_iff_ram.trans hcall

def markedImage : Mem := fun a => if a = 512 then 1 else 0

/-- The spare bytes of the first chunk move behind the data of the second. -/
theorem two_chunks_moved : ¬ SourceKept threeGood blankChip markedImage 0 2 0 := by
  intro h
  have horder : SourceInOrder { threeGood with rwOob := some true } markedImage 0 2 0 :=
    (ram_kept_iff rfl).mp fun fuel r hrun => (h fuel r hrun).1
  rcases horder with hragged | hout | hnone | hfew | hgroups
  · exact hragged (Nat.dvd_zero _)
  · exact absurd hout (by decide)
  · exact hnone ⟨0, Nat.zero_le _, rfl⟩
  · exact absurd hfew (by decide)
  · have hgroup := hgroups 0 (by decide) (by decide)
    have hspare := (hgroup 0 (by decide)).2 0 (by decide)
    exact absurd hspare (by decide)

end Yaffs2Source
