import UBoot.Nand.GoodSpace
import UBoot.Nand.PageOps

/-!
# The loop that writes around bad blocks
-/

namespace WriteSkipBad

open Nand ByteMemory NandBase NandUtil PageOps GoodSpace Rank

section

variable {mtd : Mtd} {length o left pbuf : Nat} {skip : Bool} {chip : Chip} {ram : Mem}

lemma writeLoop_done (fuel : Nat) :
    writeLoop mtd length (fuel + 1) o 0 pbuf skip chip ram = some ⟨0, length, chip, ram⟩ := by
  rw [writeLoop, if_pos rfl]

lemma writeLoop_bad (fuel : Nat) (hleft : left ≠ 0) (bad : isGood mtd o = false) :
    writeLoop mtd length (fuel + 1) o left pbuf skip chip ram =
      writeLoop mtd length fuel (o + blockLeft mtd o) left pbuf skip chip ram := by
  rw [writeLoop, if_neg hleft, if_pos (by simp [bad])]

lemma writeLoop_skip (fuel : Nat) (hleft : left ≠ 0) (good : isGood mtd o = true) :
    writeLoop mtd length (fuel + 1) o left pbuf true chip ram =
      writeLoop mtd length fuel (o + blockLeft mtd o) left pbuf false chip ram := by
  rw [writeLoop, if_neg hleft, if_neg (by simp [good]), if_pos rfl]

lemma writeLoop_hang (fuel : Nat) (hleft : left ≠ 0) (good : isGood mtd o = true)
    (few : length < 100) : writeLoop mtd length (fuel + 1) o left pbuf false chip ram = none := by
  rw [writeLoop, if_neg hleft, if_neg (by simp [good]), if_neg (by decide),
    if_pos (Nat.div_eq_of_lt few)]

def bufferStep (mtd : Mtd) (writeSize : Nat) : Nat :=
  if mtd.rwOob = some true then
    writeSize + writeSize / mtd.geo.writesize * mtd.geo.oobsize else writeSize

lemma writeLoop_write (fuel : Nat) (hleft : left ≠ 0) (good : isGood mtd o = true)
    (many : 100 ≤ length) {rval : Int} {chip' : Chip} {ram' : Mem}
    (h : nandWrite mtd chip ram o (min left (blockLeft mtd o)) pbuf = some (rval, chip', ram')) :
    writeLoop mtd length (fuel + 1) o left pbuf false chip ram =
      if rval ≠ 0 then some ⟨rval, length - left, chip', ram'⟩
      else writeLoop mtd length fuel (o + min left (blockLeft mtd o))
        (left - min left (blockLeft mtd o))
        (pbuf + bufferStep mtd (min left (blockLeft mtd o))) false chip' ram' := by
  have hdiv : ¬ length / 100 = 0 := by omega
  rw [writeLoop, if_neg hleft, if_neg (by simp [good]), if_neg (by decide), if_neg hdiv]
  simp only [h]
  rfl

end

variable {mtd : Mtd} {length fuel o left pbuf : Nat} {chip : Chip} {ram : Mem} {r : Result}

lemma writeLoop_mono {skip : Bool} (k : Nat)
    (h : writeLoop mtd length fuel o left pbuf skip chip ram = some r) :
    writeLoop mtd length (fuel + k) o left pbuf skip chip ram = some r := by
  induction fuel generalizing o left pbuf skip chip ram with
  | zero => exact nomatch h
  | succ fuel ih =>
    have hadd : fuel + 1 + k = fuel + k + 1 := by omega
    rw [hadd]
    rw [writeLoop] at h ⊢
    by_cases hleft : left = 0
    · rwa [if_pos hleft] at h ⊢
    by_cases hbad : ¬ isGood mtd o = true
    · rw [if_neg hleft, if_pos hbad] at h ⊢
      exact ih h
    cases skip with
    | true =>
      rw [if_neg hleft, if_neg hbad, if_pos rfl] at h ⊢
      exact ih h
    | false =>
      rw [if_neg hleft, if_neg hbad, if_neg (by decide)] at h ⊢
      by_cases hhang : length / 100 = 0
      · rw [if_pos hhang] at h
        exact nomatch h
      rw [if_neg hhang] at h ⊢
      dsimp only at h ⊢
      cases hwrite : nandWrite mtd chip ram o (min left (blockLeft mtd o)) pbuf with
      | none =>
        rw [hwrite] at h
        exact nomatch h
      | some w =>
        obtain ⟨rval, chip', ram'⟩ := w
        rw [hwrite] at h
        dsimp only at h ⊢
        by_cases hrval : rval ≠ 0
        · rwa [if_pos hrval] at h ⊢
        · rw [if_neg hrval] at h ⊢
          exact ih h

lemma writeLoop_unique {fuel' : Nat} {skip : Bool} {r' : Result}
    (h : writeLoop mtd length fuel o left pbuf skip chip ram = some r)
    (h' : writeLoop mtd length fuel' o left pbuf skip chip ram = some r') : r = r' := by
  have hmore := writeLoop_mono fuel' h
  rw [add_comm, writeLoop_mono fuel h'] at hmore
  exact (Option.some.inj hmore).symm

lemma writeLoop_never (none_good : ¬ SomeGood mtd) {skip : Bool} (hleft : left ≠ 0) (fuel o : Nat)
    :
    writeLoop mtd length fuel o left pbuf skip chip ram = none :=
  never_returns (fun fuel o => writeLoop mtd length fuel o left pbuf skip chip ram) (fun _ => rfl)
    (fun fuel _ => writeLoop_bad fuel hleft) none_good fuel o

lemma writeLoop_of_seek {n first : Nat} {skip : Bool}
    (seek : ∀ fuel, writeLoop mtd length (n + fuel) o left pbuf skip chip ram =
      writeLoop mtd length fuel first left pbuf skip chip ram)
    (h : writeLoop mtd length fuel o left pbuf skip chip ram = some r) :
    writeLoop mtd length fuel first left pbuf skip chip ram = some r := by
  rw [← seek fuel, add_comm]
  exact writeLoop_mono n h

/-- From `o` on the good bytes of rank below `left` hold the buffer, and nothing else is changed. -/
structure Stores (mtd : Mtd) (chip : Chip) (ram : Mem) (o left pbuf : Nat) (out : Chip) : Prop where
  data : ∀ a, out.data a =
    if o ≤ a ∧ a < mtd.geo.size ∧ goodByte mtd a = true ∧ rank (goodByte mtd) o a < left then
      ram (pbuf + rank (goodByte mtd) o a) else chip.data a
  pages : ∀ q, q ∈ out.programmed → q ∈ chip.programmed ∨
    o ≤ q * mtd.geo.writesize ∧ (q + 1) * mtd.geo.writesize ≤ mtd.geo.size ∧
      goodByte mtd (q * mtd.geo.writesize) = true
  read : out.read = chip.read
  coherent : Coherent mtd out

lemma stores_nothing (coherent : Coherent mtd chip) (ram : Mem) (o pbuf : Nat) :
    Stores mtd chip ram o 0 pbuf chip := by
  refine ⟨fun a => ?_, fun q hq => .inl hq, rfl, coherent⟩
  rw [if_neg (by omega)]

lemma Stores.skip {out : Chip} (bad : goodByte mtd o = false)
    (h : Stores mtd chip ram (o + blockLeft mtd o) left pbuf out) :
    Stores mtd chip ram o left pbuf out := by
  refine ⟨fun a => ?_, fun q hq => ?_, h.read, h.coherent⟩
  · rw [h.data]
    by_cases hin : o ≤ a ∧ a < o + blockLeft mtd o
    · have hbad : goodByte mtd a = false := (goodByte_block hin.1 hin.2).trans bad
      rw [if_neg (by omega), if_neg (by simp [hbad])]
    by_cases hle : o ≤ a
    · have hsplit : rank (goodByte mtd) o a = rank (goodByte mtd) o (o + blockLeft mtd o) +
          rank (goodByte mtd) (o + blockLeft mtd o) a :=
        rank_add (Nat.le_add_right _ _) (by omega)
      rw [rank_bad bad (Nat.le_add_right _ _) le_rfl, zero_add] at hsplit
      rw [hsplit]
      have hiff : o + blockLeft mtd o ≤ a ↔ o ≤ a := by omega
      simp only [hiff]
    · rw [if_neg (by omega), if_neg (by omega)]
  · rcases h.pages q hq with hq | ⟨ho, hrest⟩
    · exact .inl hq
    · exact .inr ⟨by omega, hrest⟩

lemma page_inside {q a n : Nat} (aligned : mtd.geo.writesize ∣ a) (low : a / mtd.geo.writesize ≤ q)
    (high : q < (a + n) / mtd.geo.writesize) : a ≤ q * mtd.geo.writesize ∧
      (q + 1) * mtd.geo.writesize ≤ a + n ∧ q * mtd.geo.writesize < a + n := by
  have next := (Nat.mul_le_mul_right mtd.geo.writesize high).trans (Nat.div_mul_le_self _ _)
  have pos := mtd.geo.writesize_pos
  refine ⟨?_, next, ?_⟩
  · rw [← Nat.div_mul_cancel aligned]
    exact Nat.mul_le_mul_right _ low
  · rw [Nat.succ_mul] at next
    omega

lemma Stores.block {mid out : Chip} {w : Nat} (good : goodByte mtd o = true)
    (hw : w ≤ blockLeft mtd o) (hleft : w ≤ left) (inside : o < mtd.geo.size)
    (aligned : mtd.geo.writesize ∣ o) (write : RangeWritten mtd chip ram o w pbuf mid)
    (h : Stores mtd mid ram (o + w) (left - w) (pbuf + w) out) :
    Stores mtd chip ram o left pbuf out := by
  have hend := blockEnd_le inside
  refine ⟨fun a => ?_, fun q hq => ?_, h.read.trans write.read, h.coherent⟩
  · rw [h.data, write.data]
    by_cases hin : o ≤ a ∧ a < o + w
    · have hgood : goodByte mtd a = true := (goodByte_block hin.1 (by omega)).trans good
      have hrank := rank_good good hin.1 (by omega)
      rw [if_neg (by omega), if_pos hin, if_pos ⟨hin.1, by omega, hgood, by omega⟩, hrank]
    rw [if_neg hin]
    by_cases hle : o + w ≤ a
    · have hsplit : rank (goodByte mtd) o a = rank (goodByte mtd) o (o + w) +
          rank (goodByte mtd) (o + w) a := rank_add (Nat.le_add_right _ _) hle
      rw [rank_good good (Nat.le_add_right _ _) (by omega)] at hsplit
      have hrank : rank (goodByte mtd) o a = w + rank (goodByte mtd) (o + w) a := by omega
      have hiff : (o + w ≤ a ∧ a < mtd.geo.size ∧ goodByte mtd a = true ∧
            rank (goodByte mtd) (o + w) a < left - w) ↔
          (o ≤ a ∧ a < mtd.geo.size ∧ goodByte mtd a = true ∧
            w + rank (goodByte mtd) (o + w) a < left) :=
        ⟨fun ⟨_, hsize, hgood, hlt⟩ => ⟨by omega, hsize, hgood, by omega⟩,
          fun ⟨_, hsize, hgood, hlt⟩ => ⟨hle, hsize, hgood, by omega⟩⟩
      rw [hrank, ← add_assoc]
      simp only [hiff]
    · rw [if_neg (by omega), if_neg (by omega)]
  · rcases h.pages q hq with hq | ⟨ho, hrest⟩
    · rcases (write.programmed q).mp hq with hq | ⟨hlow, hhigh⟩
      · exact .inl hq
      obtain ⟨hlow', hnext, hhigh'⟩ := page_inside aligned hlow hhigh
      exact .inr ⟨hlow', by omega, (goodByte_block hlow' (by omega)).trans good⟩
    · exact .inr ⟨by omega, hrest⟩

lemma writesize_dvd_blockLeft (aligned : mtd.geo.writesize ∣ o) :
    mtd.geo.writesize ∣ blockLeft mtd o :=
  (Nat.dvd_add_right aligned).mp
    (Nat.dvd_trans mtd.geo.writesize_dvd_erasesize (dvd_blockEnd mtd o))

lemma writesize_dvd_min (aligned : mtd.geo.writesize ∣ o) (whole : mtd.geo.writesize ∣ left) :
    mtd.geo.writesize ∣ min left (blockLeft mtd o) := by
  rcases Nat.le_total left (blockLeft mtd o) with h | h
  · rwa [min_eq_left h]
  · rw [min_eq_right h]
    exact writesize_dvd_blockLeft aligned

lemma writeLoop_fits (plain : mtd.rwOob ≠ some true) (many : 100 ≤ length) (ram : Mem)
    (fuel o left pbuf : Nat) (coherent : Coherent mtd chip) (inside : o ≤ mtd.geo.size)
    (room : left ≤ rank (goodByte mtd) o mtd.geo.size) (aligned : mtd.geo.writesize ∣ o)
    (whole : mtd.geo.writesize ∣ left) (enough : mtd.geo.size < fuel + o) :
    ∃ out, writeLoop mtd length fuel o left pbuf false chip ram = some ⟨0, length, out, ram⟩ ∧
      Stores mtd chip ram o left pbuf out := by
  induction fuel generalizing o left pbuf chip with
  | zero => omega
  | succ fuel ih =>
    have hwidth := mtd.size_le
    by_cases hleft : left = 0
    · subst hleft
      exact ⟨chip, writeLoop_done fuel, stores_nothing coherent ram o pbuf⟩
    have hin : o < mtd.geo.size := by
      by_contra hout
      have := rank_le (goodByte mtd) o mtd.geo.size
      omega
    have hpos := blockLeft_pos mtd o
    have hend := blockEnd_le hin
    have hsplit : rank (goodByte mtd) o mtd.geo.size =
        rank (goodByte mtd) o (o + blockLeft mtd o) +
          rank (goodByte mtd) (o + blockLeft mtd o) mtd.geo.size :=
      rank_add (Nat.le_add_right _ _) hend
    have hblock := writesize_dvd_blockLeft aligned
    have hisgood := isGood_eq hin
    cases hgood : goodByte mtd o with
    | false =>
      rw [rank_bad hgood (Nat.le_add_right _ _) le_rfl] at hsplit
      obtain ⟨out, hout, hstores⟩ := ih (o + blockLeft mtd o) left pbuf coherent hend (by omega)
        ((Nat.dvd_add_right aligned).mpr hblock) whole (by omega)
      exact ⟨out, (writeLoop_bad fuel hleft (hisgood.trans hgood)).trans hout, hstores.skip hgood⟩
    | true =>
      rw [rank_good hgood (Nat.le_add_right _ _) le_rfl] at hsplit
      have hw := writesize_dvd_min aligned whole
      obtain ⟨mid, hmid, hwrite⟩ := nandWrite_range chip ram pbuf (by omega) aligned hw (by omega)
        (by omega)
      have hplain : shuffled mtd ram (min left (blockLeft mtd o)) pbuf = ram := if_neg plain
      have hstep : bufferStep mtd (min left (blockLeft mtd o)) = min left (blockLeft mtd o) :=
        if_neg plain
      have hroom : left - min left (blockLeft mtd o) ≤
          rank (goodByte mtd) (o + min left (blockLeft mtd o)) mtd.geo.size := by
        by_cases hlast : left ≤ blockLeft mtd o
        · omega
        · rw [min_eq_right (by omega)]
          omega
      rw [hplain] at hmid hwrite
      obtain ⟨out, hout, hstores⟩ := ih (o + min left (blockLeft mtd o))
        (left - min left (blockLeft mtd o)) (pbuf + min left (blockLeft mtd o))
        (hwrite.coherent coherent aligned hw) (by omega) hroom
        ((Nat.dvd_add_right aligned).mpr hw) (Nat.dvd_sub whole hw) (by omega)
      refine ⟨out, ?_, hstores.block hgood (min_le_right _ _) (min_le_left _ _) hin aligned
        hwrite⟩
      rw [writeLoop_write fuel hleft (hisgood.trans hgood) many hmid, if_neg (by decide), hstep,
        hout]

lemma writeLoop_count {skip : Bool} (aligned : mtd.geo.writesize ∣ o)
    (whole : mtd.geo.writesize ∣ left)
    (h : writeLoop mtd length fuel o left pbuf skip chip ram = some r) :
    chip.programmed.length ≤ r.chip.programmed.length := by
  induction fuel generalizing o left pbuf skip chip ram with
  | zero => exact nomatch h
  | succ fuel ih =>
    have hblock := (Nat.dvd_add_right aligned).mpr (writesize_dvd_blockLeft aligned)
    by_cases hleft : left = 0
    · subst hleft
      rw [writeLoop_done] at h
      cases h
      exact le_rfl
    cases hgood : isGood mtd o with
    | false =>
      rw [writeLoop_bad fuel hleft hgood] at h
      exact ih hblock whole h
    | true =>
      cases skip with
      | true =>
        rw [writeLoop_skip fuel hleft hgood] at h
        exact ih hblock whole h
      | false =>
        by_cases many : 100 ≤ length
        · have hw := writesize_dvd_min aligned whole
          have hpos := blockLeft_pos mtd o
          have hle := blockLeft_le mtd o
          have hlt := mtd.geo.erasesize_lt
          by_cases hin : o + min left (blockLeft mtd o) ≤ mtd.geo.size
          · obtain ⟨mid, hmid, hwrite⟩ := nandWrite_range chip ram pbuf hin aligned hw (by omega)
              (by omega)
            rw [writeLoop_write fuel hleft hgood many hmid, if_neg (by decide)] at h
            have hrest := ih ((Nat.dvd_add_right aligned).mpr hw) (Nat.dvd_sub whole hw) h
            rw [hwrite.count] at hrest
            exact Nat.le_of_add_right_le hrest
          · rw [writeLoop_write fuel hleft hgood many (nandWrite_past (not_le.mp hin) _ _ _),
              if_pos (by decide)] at h
            cases h
            exact le_rfl
        · rw [writeLoop_hang fuel hleft hgood (not_le.mp many)] at h
          exact nomatch h

lemma writeLoop_noGood (pbuf : Nat) (chip : Chip) (ram : Mem) (hleft : left ≠ 0)
    (many : 100 ≤ length) (noGood : NoGood mtd o) (some_good : SomeGood mtd) :
    ∃ fuel ram', writeLoop mtd length fuel o left pbuf false chip ram =
      some ⟨-EINVAL, length - left, chip, ram'⟩ := by
  obtain ⟨t, hot, ht⟩ := exists_isGood some_good o
  obtain ⟨n, first, hof, -, hfirst, -, -, hrun⟩ := seek_first
    (fun fuel o => writeLoop mtd length fuel o left pbuf false chip ram)
    (fun fuel _ => writeLoop_bad fuel hleft) hot ht
  have hsize := size_le_of_noGood noGood hof hfirst
  have hpos := blockLeft_pos mtd first
  refine ⟨n + 1, shuffled mtd ram (min left (blockLeft mtd first)) pbuf, ?_⟩
  rw [hrun 1, writeLoop_write 0 hleft hfirst many (nandWrite_past (by omega) _ _ _),
    if_pos (by decide)]

lemma many_of_returns (hleft : left ≠ 0)
    (h : writeLoop mtd length fuel o left pbuf false chip ram = some r) : 100 ≤ length := by
  induction fuel generalizing o with
  | zero => exact nomatch h
  | succ fuel ih =>
    cases hgood : isGood mtd o with
    | false =>
      rw [writeLoop_bad fuel hleft hgood] at h
      exact ih h
    | true =>
      by_contra few
      rw [writeLoop_hang fuel hleft hgood (not_le.mp few)] at h
      exact nomatch h

lemma noGood_of_untouched (hleft : left ≠ 0) (aligned : mtd.geo.writesize ∣ o)
    (whole : mtd.geo.writesize ∣ left)
    (h : writeLoop mtd length fuel o left pbuf false chip ram = some r)
    (untouched : r.chip.programmed.length = chip.programmed.length) :
    NoGood mtd o ∧ SomeGood mtd := by
  have many := many_of_returns hleft h
  have hsome : SomeGood mtd := by
    by_contra hnone
    rw [writeLoop_never hnone hleft] at h
    exact nomatch h
  refine ⟨?_, hsome⟩
  by_contra hgood
  obtain ⟨t, hot, hin, hgoodt, -⟩ := exists_rank (Nat.pos_of_ne_zero hgood)
  -- from the first good block on, the run writes
  obtain ⟨n, first, hof, hft, hfirst, -, hblock, hrun⟩ := seek_first
    (fun fuel o => writeLoop mtd length fuel o left pbuf false chip ram)
    (fun fuel _ => writeLoop_bad fuel hleft) hot ((isGood_eq hin).trans hgoodt)
  have hfirstRun := writeLoop_of_seek hrun h
  have hdvd : mtd.geo.writesize ∣ first := by
    rcases hblock with rfl | hblock
    · exact aligned
    · exact Nat.dvd_trans mtd.geo.writesize_dvd_erasesize hblock
  cases fuel with
  | zero => exact nomatch hfirstRun
  | succ fuel =>
    have hw := writesize_dvd_min hdvd whole
    have hpos := blockLeft_pos mtd first
    have hle := blockLeft_le mtd first
    have hlt := mtd.geo.erasesize_lt
    have hend : first + blockLeft mtd first ≤ mtd.geo.size := blockEnd_le (by omega)
    obtain ⟨mid, hmid, hwrite⟩ := nandWrite_range chip ram pbuf (by omega) hdvd hw (by omega)
      (by omega)
    rw [writeLoop_write fuel hleft hfirst many hmid, if_neg (by decide)] at hfirstRun
    have hrest := writeLoop_count ((Nat.dvd_add_right hdvd).mpr hw) (Nat.dvd_sub whole hw) hfirstRun
    have hcount := hwrite.count
    have hpage : 0 < min left (blockLeft mtd first) / mtd.geo.writesize :=
      Nat.div_pos (Nat.le_of_dvd (by omega) hw) mtd.geo.writesize_pos
    omega

end WriteSkipBad
