import UBoot.Nand.Chip

/-!
# What writing and reading whole ranges does

Writes are page aligned. A read may begin and end inside a page, and goes through
the cached page if it can.
-/

namespace PageOps

open Nand ByteMemory NandBase

variable {mtd : Mtd} {chip out : Chip} {ofs len : Nat}

/-- Pages `p` to `p + n - 1`, and the main area they cover, hold what lies at `buf`. -/
structure PagesWritten (mtd : Mtd) (chip : Chip) (ram : Mem) (buf : Nat) (oob : Option Nat)
    (p n : Nat) (out : Chip) : Prop where
  data : ∀ i, out.data i =
    if p * mtd.geo.writesize ≤ i ∧ i < (p + n) * mtd.geo.writesize then
      ram (buf + (i - p * mtd.geo.writesize)) else chip.data i
  programmed : ∀ q, q ∈ out.programmed ↔ q ∈ chip.programmed ∨ p ≤ q ∧ q < p + n
  count : out.programmed.length = chip.programmed.length + n
  spareOther : ∀ q, ¬ (p ≤ q ∧ q < p + n) → out.spare q = chip.spare q
  spareRaw : chip.raw = true → ∀ a, oob = some a → ∀ k, k < n → ∀ i, out.spare (p + k) i =
    if chip.ooboffs ≤ i ∧ i < chip.ooboffs + mtd.geo.oobsize then
      ram (a + k * mtd.geo.oobsize + (i - chip.ooboffs)) else chip.oobPoi i
  oobPoi : chip.raw = true → ∀ a, oob = some a →
    ∀ i, ¬ (chip.ooboffs ≤ i ∧ i < chip.ooboffs + mtd.geo.oobsize) → out.oobPoi i = chip.oobPoi i
  pagebuf : out.pagebuf = chip.pagebuf
  databuf : out.databuf = chip.databuf
  ooboffs : out.ooboffs = chip.ooboffs
  raw : out.raw = chip.raw
  read : out.read = chip.read

def fillNext (mtd : Mtd) (ram : Mem) (oob : Option Nat) (chip : Chip) : Chip :=
  match oob with
  | none => chip
  | some a => { chip with oobPoi := nandFillOob chip (slice ram a mtd.geo.oobsize) }

lemma writeOpsLoop_page (mtd : Mtd) (ram : Mem) (fuel buf : Nat) (oob : Option Nat)
    (realpage : Nat) {writelen : Nat} (chip : Chip) (full : mtd.geo.writesize ≤ writelen)
    (width : writelen < 2 ^ 32) :
    writeOpsLoop mtd ram (fuel + 1) buf oob realpage 0 writelen chip =
      if writelen = mtd.geo.writesize then
        some (nandWritePage mtd (fillNext mtd ram oob chip) (slice ram buf mtd.geo.writesize)
          realpage)
      else writeOpsLoop mtd ram fuel (buf + mtd.geo.writesize)
        (oob.map (· + mtd.geo.oobsize)) (realpage + 1) 0 (writelen - mtd.geo.writesize)
        (nandWritePage mtd (fillNext mtd ram oob chip) (slice ram buf mtd.geo.writesize)
          realpage) := by
  have hshort : ¬ ((0 : Nat) ≠ 0 ∨ writelen < mtd.geo.writesize - 1) := by omega
  have hleft : (writelen + 2 ^ 32 - mtd.geo.writesize) % 2 ^ 32 =
      writelen - mtd.geo.writesize := by omega
  have hzero : writelen - mtd.geo.writesize = 0 ↔ writelen = mtd.geo.writesize := by omega
  simp only [writeOpsLoop, if_neg hshort, hleft, hzero]
  rfl

lemma nandWritePage_one (mtd : Mtd) (chip : Chip) (ram : Mem) (buf : Nat) (oob : Option Nat)
    (p : Nat) :
    PagesWritten mtd chip ram buf oob p 1
      (nandWritePage mtd (fillNext mtd ram oob chip) (slice ram buf mtd.geo.writesize) p) := by
  have hsame : fillNext mtd ram oob chip =
      { chip with oobPoi := (fillNext mtd ram oob chip).oobPoi } := by cases oob <;> rfl
  have hend : p * mtd.geo.writesize + mtd.geo.writesize = (p + 1) * mtd.geo.writesize :=
    (Nat.succ_mul _ _).symm
  have hpoi : ∀ a, oob = some a → ∀ i, (fillNext mtd ram oob chip).oobPoi i =
      if chip.ooboffs ≤ i ∧ i < chip.ooboffs + mtd.geo.oobsize then
        ram (a + (i - chip.ooboffs)) else chip.oobPoi i := by
    rintro a rfl i
    exact blit_slice_apply _ _ _ _ _ _
  rw [hsame]
  refine ⟨fun i => ?_, fun q => ?_, rfl, fun q hq => ?_, fun hraw a ha k hk i => ?_,
    fun hraw a ha i hi => ?_, rfl, rfl, rfl, rfl, rfl⟩
  · simp only [nandWritePage]
    rw [blit_slice_apply, hend]
  · have hone : q = p ↔ p ≤ q ∧ q < p + 1 := by omega
    simp only [nandWritePage, List.mem_cons]
    rw [or_comm, hone]
  · simp only [nandWritePage]
    rw [if_neg (by omega)]
  · obtain rfl : k = 0 := by omega
    simp only [nandWritePage, hraw, if_true, add_zero, zero_mul]
    exact hpoi a ha i
  · simp only [nandWritePage, hraw, if_true]
    rw [hpoi a ha, if_neg hi]

lemma PagesWritten.trans {mid : Chip} {ram : Mem} {buf p n : Nat} {oob : Option Nat}
    (first : PagesWritten mtd chip ram buf oob p 1 mid)
    (rest : PagesWritten mtd mid ram (buf + mtd.geo.writesize)
      (oob.map (· + mtd.geo.oobsize)) (p + 1) n out) :
    PagesWritten mtd chip ram buf oob p (n + 1) out := by
  have hnext : (p + 1) * mtd.geo.writesize = p * mtd.geo.writesize + mtd.geo.writesize :=
    Nat.succ_mul _ _
  have hcomm : p + 1 + n = p + (n + 1) := by omega
  have hle : (p + 1) * mtd.geo.writesize ≤ (p + 1 + n) * mtd.geo.writesize :=
    Nat.mul_le_mul_right _ (Nat.le_add_right _ _)
  refine ⟨fun i => ?_, fun q => ?_, ?_, fun q hq => ?_, fun hraw a ha k hk i => ?_,
    fun hraw a ha i hi => ?_, ?_, ?_, ?_, ?_, ?_⟩
  · rw [rest.data, first.data, ← hcomm]
    by_cases hlater : (p + 1) * mtd.geo.writesize ≤ i
    · by_cases hin : i < (p + 1 + n) * mtd.geo.writesize
      · rw [if_pos ⟨hlater, hin⟩, if_pos ⟨by omega, hin⟩]
        congr 1
        omega
      · rw [if_neg (by omega), if_neg (by omega), if_neg (by omega)]
    · rw [if_neg (by omega)]
      by_cases hin : p * mtd.geo.writesize ≤ i
      · rw [if_pos ⟨hin, by omega⟩, if_pos ⟨hin, by omega⟩]
      · rw [if_neg (by omega), if_neg (by omega)]
  · rw [rest.programmed, first.programmed, or_assoc]
    exact or_congr_right (by omega)
  · rw [rest.count, first.count]
    omega
  · rw [rest.spareOther q (by omega), first.spareOther q (by omega)]
  · have hrawmid : mid.raw = true := first.raw.trans hraw
    have hamid : oob.map (· + mtd.geo.oobsize) = some (a + mtd.geo.oobsize) := by rw [ha]; rfl
    cases k with
    | zero =>
      rw [add_zero, rest.spareOther p (by omega)]
      exact first.spareRaw hraw a ha 0 (by omega) i
    | succ k =>
      have hpk : p + (k + 1) = p + 1 + k := by omega
      rw [hpk, rest.spareRaw hrawmid _ hamid k (by omega) i, first.ooboffs]
      split_ifs with hin
      · congr 1
        rw [Nat.succ_mul]
        omega
      · exact first.oobPoi hraw a ha i hin
  · have hrawmid : mid.raw = true := first.raw.trans hraw
    have hamid : oob.map (· + mtd.geo.oobsize) = some (a + mtd.geo.oobsize) := by rw [ha]; rfl
    rw [rest.oobPoi hrawmid _ hamid i (by rw [first.ooboffs]; exact hi)]
    exact first.oobPoi hraw a ha i hi
  · exact rest.pagebuf.trans first.pagebuf
  · exact rest.databuf.trans first.databuf
  · exact rest.ooboffs.trans first.ooboffs
  · exact rest.raw.trans first.raw
  · exact rest.read.trans first.read

lemma writeOpsLoop_pages (mtd : Mtd) (ram : Mem) (fuel n buf : Nat) (oob : Option Nat)
    (realpage : Nat) (chip : Chip) (enough : n ≤ fuel)
    (width : (n + 1) * mtd.geo.writesize < 2 ^ 32) :
    ∃ out, writeOpsLoop mtd ram (fuel + 1) buf oob realpage 0 ((n + 1) * mtd.geo.writesize) chip =
      some out ∧ PagesWritten mtd chip ram buf oob realpage (n + 1) out := by
  have hpos := mtd.geo.writesize_pos
  induction n generalizing fuel buf oob realpage chip with
  | zero =>
    refine ⟨_, ?_, nandWritePage_one mtd chip ram buf oob realpage⟩
    rw [writeOpsLoop_page mtd ram fuel buf oob realpage chip (by omega) width, if_pos (by omega)]
  | succ n ih =>
    have hsucc : (n + 1 + 1) * mtd.geo.writesize =
        (n + 1) * mtd.geo.writesize + mtd.geo.writesize := Nat.succ_mul _ _
    have hone : mtd.geo.writesize ≤ (n + 1) * mtd.geo.writesize :=
      Nat.le_mul_of_pos_left _ (Nat.succ_pos n)
    obtain ⟨fuel, rfl⟩ : ∃ f, fuel = f + 1 := ⟨fuel - 1, by omega⟩
    obtain ⟨out, hout, hwritten⟩ := ih fuel (buf + mtd.geo.writesize)
      (oob.map (· + mtd.geo.oobsize)) (realpage + 1)
      (nandWritePage mtd (fillNext mtd ram oob chip) (slice ram buf mtd.geo.writesize) realpage)
      (by omega) (by omega)
    refine ⟨out, ?_, (nandWritePage_one mtd chip ram buf oob realpage).trans hwritten⟩
    rw [writeOpsLoop_page mtd ram (fuel + 1) buf oob realpage chip (by omega) width,
      if_neg (by omega), hsucc, Nat.add_sub_cancel, hout]

/-- What `nand_write` makes of a range of whole pages; `ram` is the buffer after its shuffle. -/
structure RangeWritten (mtd : Mtd) (chip : Chip) (ram : Mem) (ofs len buf : Nat) (out : Chip) :
    Prop where
  data : ∀ i, out.data i =
    if ofs ≤ i ∧ i < ofs + len then ram (buf + (i - ofs)) else chip.data i
  programmed : ∀ q, q ∈ out.programmed ↔ q ∈ chip.programmed ∨
    ofs / mtd.geo.writesize ≤ q ∧ q < (ofs + len) / mtd.geo.writesize
  count : out.programmed.length = chip.programmed.length + len / mtd.geo.writesize
  spare : mtd.rwOob = some true → ∀ k, k < len / mtd.geo.writesize → ∀ i,
    out.spare (ofs / mtd.geo.writesize + k) i =
      if chip.ooboffs ≤ i ∧ i < chip.ooboffs + mtd.geo.oobsize then
        ram (buf + len + k * mtd.geo.oobsize + (i - chip.ooboffs)) else chip.oobPoi i
  spareOther : ∀ q, ¬ (ofs / mtd.geo.writesize ≤ q ∧ q < (ofs + len) / mtd.geo.writesize) →
    out.spare q = chip.spare q
  oobPoi : mtd.rwOob = some true →
    ∀ i, ¬ (chip.ooboffs ≤ i ∧ i < chip.ooboffs + mtd.geo.oobsize) → out.oobPoi i = chip.oobPoi i
  pagebuf : out.pagebuf = (invalidate mtd chip ofs len).pagebuf
  databuf : out.databuf = chip.databuf
  ooboffs : out.ooboffs = chip.ooboffs
  read : out.read = chip.read

lemma subpage_dvd (mtd : Mtd) : mtd.geo.writesize >>> mtd.subpageSft ∣ mtd.geo.writesize := by
  rw [Nat.shiftRight_eq_div_pow]
  exact Nat.div_dvd_of_dvd (Nat.pow_dvd_pow 2 mtd.subpageSft_le)

lemma invalidate_eq (mtd : Mtd) (chip : Chip) (ofs len : Nat) :
    invalidate mtd chip ofs len =
      { chip with pagebuf := (invalidate mtd chip ofs len).pagebuf } := by
  unfold invalidate
  split
  · rfl
  dsimp only
  split_ifs
  · rfl
  · rfl

lemma invalidate_raw (mtd : Mtd) (chip : Chip) (raw : Bool) (ofs len : Nat) :
    invalidate mtd { chip with raw := raw } ofs len =
      { chip with pagebuf := (invalidate mtd chip ofs len).pagebuf, raw := raw } := by
  unfold invalidate
  dsimp only
  split
  · rfl
  · split_ifs
    · rfl
    · rfl

lemma nandDoWriteOps_pages (chip : Chip) (ram : Mem) (buf : Nat) (oob : Option Nat)
    (ofsAligned : mtd.geo.writesize ∣ ofs) (lenAligned : mtd.geo.writesize ∣ len) (pos : 0 < len)
    (width : len < 2 ^ 32) :
    ∃ out, nandDoWriteOps mtd chip ram ofs len buf oob = some (0, out) ∧
      PagesWritten mtd (defaultOob oob (invalidate mtd chip ofs len)) ram buf oob
        (ofs / mtd.geo.writesize) (len / mtd.geo.writesize) out := by
  have hwpos := mtd.geo.writesize_pos
  have hsome : 0 < len / mtd.geo.writesize := Nat.div_pos (Nat.le_of_dvd pos lenAligned) hwpos
  obtain ⟨n, hn⟩ : ∃ n, len / mtd.geo.writesize = n + 1 := ⟨len / mtd.geo.writesize - 1, by omega⟩
  obtain ⟨fuel, hfuel⟩ : ∃ f, 2 ^ 32 = f + 1 := ⟨2 ^ 32 - 1, rfl⟩
  have hlen : (n + 1) * mtd.geo.writesize = len := by
    rw [← hn]
    exact Nat.div_mul_cancel lenAligned
  have hfew : n + 1 ≤ (n + 1) * mtd.geo.writesize := Nat.le_mul_of_pos_right _ hwpos
  obtain ⟨out, hout, hwritten⟩ := writeOpsLoop_pages mtd ram fuel n buf oob
    (ofs / mtd.geo.writesize) (defaultOob oob (invalidate mtd chip ofs len)) (by omega) (by omega)
  rw [hlen] at hout
  rw [← hn] at hwritten
  have hofs := Nat.mod_eq_zero_of_dvd (Nat.dvd_trans (subpage_dvd mtd) ofsAligned)
  have hlensub := Nat.mod_eq_zero_of_dvd (Nat.dvd_trans (subpage_dvd mtd) lenAligned)
  have hcol := Nat.mod_eq_zero_of_dvd ofsAligned
  have hlencol := Nat.mod_eq_zero_of_dvd lenAligned
  refine ⟨out, ?_, hwritten⟩
  unfold nandDoWriteOps
  simp only [hofs, hlensub, hcol, hlencol, ne_eq, not_true_eq_false, or_self, false_and, if_false,
    if_neg (Nat.pos_iff_ne_zero.mp pos), hfuel, hout, Option.map_some]

lemma nandWrite_past (h : mtd.geo.size < ofs + len) (chip : Chip) (ram : Mem) (buf : Nat) :
    nandWrite mtd chip ram ofs len buf = some (-EINVAL, chip, shuffled mtd ram len buf) :=
  if_pos h

lemma PagesWritten.range {start mid : Chip} {ram : Mem} {buf : Nat} {oob : Option Nat}
    {raw : Bool} (ofsAligned : mtd.geo.writesize ∣ ofs) (lenAligned : mtd.geo.writesize ∣ len)
    (hstart : start = { chip with
      pagebuf := (invalidate mtd chip ofs len).pagebuf
      oobPoi := start.oobPoi
      raw := start.raw }) (hyaffs : mtd.rwOob = some true →
      start.oobPoi = chip.oobPoi ∧ start.raw = true ∧ oob = some (buf + len))
    (h : PagesWritten mtd start ram buf oob (ofs / mtd.geo.writesize) (len / mtd.geo.writesize) mid)
    (hout : out = { mid with raw := raw }) : RangeWritten mtd chip ram ofs len buf out := by
  have hofs : ofs / mtd.geo.writesize * mtd.geo.writesize = ofs := Nat.div_mul_cancel ofsAligned
  have hsum : (ofs + len) / mtd.geo.writesize =
      ofs / mtd.geo.writesize + len / mtd.geo.writesize := by
    obtain ⟨q, rfl⟩ := ofsAligned
    rw [Nat.mul_add_div mtd.geo.writesize_pos, Nat.mul_div_cancel_left _ mtd.geo.writesize_pos]
  have hend : (ofs / mtd.geo.writesize + len / mtd.geo.writesize) * mtd.geo.writesize =
      ofs + len := by
    rw [Nat.add_mul, hofs, Nat.div_mul_cancel lenAligned]
  have hdata : start.data = chip.data := by rw [hstart]
  have hspare : start.spare = chip.spare := by rw [hstart]
  have hprog : start.programmed = chip.programmed := by rw [hstart]
  have hoffs : start.ooboffs = chip.ooboffs := by rw [hstart]
  have hread : start.read = chip.read := by rw [hstart]
  have hdatabuf : start.databuf = chip.databuf := by rw [hstart]
  have hpagebuf : start.pagebuf = (invalidate mtd chip ofs len).pagebuf := by rw [hstart]
  subst hout
  refine ⟨fun i => ?_, fun q => ?_, ?_, fun hy k hk i => ?_, fun q hq => ?_, fun hy i hi => ?_, ?_,
    ?_, ?_, ?_⟩
  · have := h.data i
    rwa [hend, hofs, hdata] at this
  · have := h.programmed q
    rwa [← hsum, hprog] at this
  · exact h.count.trans (by rw [hprog])
  · obtain ⟨hpoi, hraw, hoob⟩ := hyaffs hy
    have := h.spareRaw hraw _ hoob k hk i
    rwa [hoffs, hpoi] at this
  · rw [hsum] at hq
    exact (h.spareOther q hq).trans (by rw [hspare])
  · obtain ⟨hpoi, hraw, hoob⟩ := hyaffs hy
    rw [← hoffs] at hi
    exact (h.oobPoi hraw _ hoob i hi).trans (by rw [hpoi])
  · exact h.pagebuf.trans hpagebuf
  · exact h.databuf.trans hdatabuf
  · exact h.ooboffs.trans hoffs
  · exact h.read.trans hread

lemma nandWrite_range (chip : Chip) (ram : Mem) (buf : Nat) (inside : ofs + len ≤ mtd.geo.size)
    (ofsAligned : mtd.geo.writesize ∣ ofs) (lenAligned : mtd.geo.writesize ∣ len) (pos : 0 < len)
    (width : len < 2 ^ 32) :
    ∃ out, nandWrite mtd chip ram ofs len buf = some (0, out, shuffled mtd ram len buf) ∧
      RangeWritten mtd chip (shuffled mtd ram len buf) ofs len buf out := by
  unfold nandWrite
  rw [if_neg (by omega), if_neg (by omega)]
  by_cases hyaffs : mtd.rwOob = some true
  · obtain ⟨mid, hmid, hwritten⟩ := nandDoWriteOps_pages { chip with raw := true }
      (shuffled mtd ram len buf) buf (some (buf + len)) ofsAligned lenAligned pos width
    simp only [hyaffs, if_true, hmid, Option.map_some]
    refine ⟨_, rfl, hwritten.range ofsAligned lenAligned ?_ (fun _ => ?_) rfl⟩
    · rw [invalidate_raw]
      rfl
    · rw [invalidate_raw]
      exact ⟨rfl, rfl, rfl⟩
  · obtain ⟨mid, hmid, hwritten⟩ := nandDoWriteOps_pages chip
      (shuffled mtd ram len buf) buf none ofsAligned lenAligned pos width
    simp only [hyaffs, if_false, hmid, Option.map_some]
    refine ⟨_, rfl, hwritten.range ofsAligned lenAligned ?_ (fun h => absurd h hyaffs) rfl⟩
    rw [invalidate_eq]
    rfl

/-- The cached page is on the device and holds what its cells hold; with subpage reads nothing is
cached. -/
def Coherent (mtd : Mtd) (chip : Chip) : Prop :=
  ∀ p, chip.pagebuf = some p → mtd.subpageRead = none ∧ (p + 1) * mtd.geo.writesize ≤ mtd.geo.size ∧
    ∀ c, c < mtd.geo.writesize → chip.databuf c = chip.data (p * mtd.geo.writesize + c)

lemma wrapInt_eq {x : Nat} (h : x < 2 ^ 31) : wrapInt x = x := by
  have hmod : x % 2 ^ 32 = x := Nat.mod_eq_of_lt (by omega)
  rw [wrapInt, hmod, if_pos h]

lemma RangeWritten.coherent {ram : Mem} {buf : Nat}
    (h : RangeWritten mtd chip ram ofs len buf out) (coherent : Coherent mtd chip)
    (ofsAligned : mtd.geo.writesize ∣ ofs) (lenAligned : mtd.geo.writesize ∣ len) :
    Coherent mtd out := by
  intro p hp
  have hwidth := mtd.size_le
  have hwpos := mtd.geo.writesize_pos
  rw [h.pagebuf] at hp
  have hcached : chip.pagebuf = some p ∧
      ¬ (ofs ≤ p * mtd.geo.writesize ∧ p * mtd.geo.writesize < ofs + len) := by
    unfold invalidate at hp
    split at hp
    · rename_i hnone
      rw [hnone] at hp
      exact nomatch hp
    rename_i q hq
    dsimp only at hp
    split_ifs at hp with hin
    rw [hq] at hp
    obtain rfl : q = p := Option.some.inj hp
    have hpage := (coherent q hq).2.1
    have hsucc : (q + 1) * mtd.geo.writesize = q * mtd.geo.writesize + mtd.geo.writesize :=
      Nat.succ_mul _ _
    rw [wrapInt_eq (by omega)] at hin
    exact ⟨hq, by omega⟩
  obtain ⟨hsub, hpage, hcells⟩ := coherent p hcached.1
  refine ⟨hsub, hpage, fun c hc => ?_⟩
  -- the range begins and ends at page boundaries
  have hout : ¬ (ofs ≤ p * mtd.geo.writesize + c ∧ p * mtd.geo.writesize + c < ofs + len) := by
    obtain ⟨a, rfl⟩ := ofsAligned
    obtain ⟨b, rfl⟩ := lenAligned
    have hnot := hcached.2
    rintro ⟨hle, hlt⟩
    apply hnot
    rw [← Nat.mul_add] at hlt ⊢
    have hap : a ≤ p := by
      by_contra hgt
      have : mtd.geo.writesize * (p + 1) ≤ mtd.geo.writesize * a := Nat.mul_le_mul_left _ (by omega)
      rw [Nat.mul_succ, mul_comm _ p] at this
      omega
    have hpb : p < a + b := by
      by_contra hge
      have : mtd.geo.writesize * (a + b) ≤ mtd.geo.writesize * p :=
        Nat.mul_le_mul_left _ (by omega)
      rw [mul_comm _ p] at this
      omega
    rw [mul_comm p]
    exact ⟨Nat.mul_le_mul_left _ hap, Nat.mul_lt_mul_of_pos_left hpb hwpos⟩
  rw [h.databuf, h.data, if_neg hout]
  exact hcells c hc

/-- What a read of `len` bytes at `ofs` leaves. -/
structure RangeRead (mtd : Mtd) (chip : Chip) (ram : Mem) (ofs len buf : Nat) (out : Chip)
    (ram' : Mem) : Prop where
  ram : ∀ i, ram' i = if buf ≤ i ∧ i < buf + len then chip.data (ofs + (i - buf)) else ram i
  coherent : Coherent mtd out
  data : out.data = chip.data
  programmed : out.programmed = chip.programmed
  read : chip.read.length < out.read.length

structure PageRead (mtd : Mtd) (chip : Chip) (p col bytes : Nat) (out : Chip) (bs : List UInt8) :
    Prop where
  bytes : bs = slice chip.data (p * mtd.geo.writesize + col) bytes
  coherent : Coherent mtd out
  data : out.data = chip.data
  programmed : out.programmed = chip.programmed
  read : out.read = p :: chip.read

lemma slice_eq_of_cells {m m' : Mem} {a b n : Nat} (h : ∀ i, i < n → m (a + i) = m' (b + i)) :
    slice m a n = slice m' b n := by
  induction n generalizing a b with
  | zero => rfl
  | succ n ih =>
    rw [slice, slice]
    congr 1
    · simpa using h 0 (Nat.succ_pos n)
    · refine ih fun i hi => ?_
      have := h (i + 1) (by omega)
      rwa [add_assoc, add_comm 1 i, add_assoc, add_comm 1 i]

lemma readSubpage_cell {eccsize p col bytes c : Nat} (pos : 0 < eccsize) (hc : col ≤ c)
    (hlt : c < col + bytes) :
    readSubpage mtd chip eccsize p col bytes c = chip.data (p * mtd.geo.writesize + c) := by
  have hstart : col / eccsize * eccsize ≤ col := Nat.div_mul_le_self col eccsize
  have hstop : col + bytes - 1 < ((col + bytes - 1) / eccsize + 1) * eccsize := by
    have hdiv := Nat.div_add_mod (col + bytes - 1) eccsize
    have hmod := Nat.mod_lt (col + bytes - 1) pos
    rw [Nat.succ_mul, mul_comm _ eccsize]
    omega
  unfold readSubpage
  rw [blit_slice_apply, if_pos ⟨by omega, by omega⟩]
  congr 1
  omega

lemma readPage_read (coherent : Coherent mtd chip) (realpage col bytes : Nat)
    (inside : (realpage + 1) * mtd.geo.writesize ≤ mtd.geo.size)
    (hcol : col + bytes ≤ mtd.geo.writesize) :
    PageRead mtd chip realpage col bytes (readPage mtd chip realpage col bytes).1
      (readPage mtd chip realpage col bytes).2.1 := by
  unfold readPage
  by_cases hcache : chip.pagebuf = some realpage
  · simp only [if_pos hcache]
    refine ⟨slice_eq_of_cells fun i hi => ?_, coherent, rfl, rfl, rfl⟩
    rw [add_assoc]
    exact (coherent realpage hcache).2.2 _ (by omega)
  by_cases hwhole : bytes = mtd.geo.writesize
  · simp only [if_neg hcache, if_pos hwhole]
    have hzero : col = 0 := by omega
    refine ⟨?_, coherent, rfl, rfl, rfl⟩
    rw [hwhole, hzero, add_zero]
  simp only [if_neg hcache, if_neg hwhole]
  cases hsub : mtd.subpageRead with
  | some eccsize =>
    refine ⟨slice_eq_of_cells fun i hi => ?_, fun p hp => ?_, rfl, rfl, rfl⟩
    · rw [add_assoc]
      exact readSubpage_cell (mtd.subpageRead_pos _ hsub) (Nat.le_add_right _ _) (by omega)
    · exact absurd (coherent p hp).1 (by rw [hsub]; exact nofun)
  | none =>
    refine ⟨slice_eq_of_cells fun i hi => ?_, fun p hp => ?_, rfl, rfl, rfl⟩
    · rw [blit_slice_apply, if_pos (by omega)]
      congr 1
      omega
    · obtain rfl : realpage = p := Option.some.inj hp
      refine ⟨hsub, inside, fun c hc => ?_⟩
      dsimp only
      rw [blit_slice_apply, if_pos (by omega), Nat.sub_zero]

lemma RangeRead.cons {mtd : Mtd} {chip mid out : Chip} {ram ram' : Mem}
    {p col bytes len buf : Nat} {bs : List UInt8} (hcol : col < mtd.geo.writesize)
    (hbytes : bytes = mtd.geo.writesize - col) (page : PageRead mtd chip p col bytes mid bs)
    (rest : RangeRead mtd mid (blit ram buf bs) ((p + 1) * mtd.geo.writesize) len (buf + bytes) out
      ram') : RangeRead mtd chip ram (p * mtd.geo.writesize + col) (bytes + len) buf out ram' := by
  have hsucc : (p + 1) * mtd.geo.writesize = p * mtd.geo.writesize + mtd.geo.writesize :=
    Nat.succ_mul _ _
  refine ⟨fun i => ?_, rest.coherent, rest.data.trans page.data,
    rest.programmed.trans page.programmed, ?_⟩
  · rw [rest.ram, page.data, page.bytes, blit_slice_apply]
    by_cases hlater : buf + bytes ≤ i
    · by_cases hin : i < buf + bytes + len
      · rw [if_pos ⟨hlater, hin⟩, if_pos (by omega)]
        congr 1
        omega
      · rw [if_neg (by omega), if_neg (by omega), if_neg (by omega)]
    · rw [if_neg (by omega)]
      by_cases hin : buf ≤ i
      · rw [if_pos (by omega), if_pos (by omega)]
      · rw [if_neg (by omega), if_neg (by omega)]
  · have hread := rest.read
    rw [page.read, List.length_cons] at hread
    omega

lemma PageRead.range {p col bytes : Nat} {bs : List UInt8}
    (page : PageRead mtd chip p col bytes out bs) (ram : Mem) (buf : Nat) :
    RangeRead mtd chip ram (p * mtd.geo.writesize + col) bytes buf out (blit ram buf bs) := by
  refine ⟨fun i => ?_, page.coherent, page.data, page.programmed, ?_⟩
  · rw [page.bytes, blit_slice_apply]
  · rw [page.read]
    exact Nat.lt_succ_self _

lemma readOpsLoop_range (coherent : Coherent mtd chip) (ram : Mem)
    (fuel buf realpage col readlen : Nat) (flipped : Bool) (pos : 0 < readlen)
    (inside : realpage * mtd.geo.writesize + col + readlen ≤ mtd.geo.size)
    (hcol : col < mtd.geo.writesize) (enough : readlen ≤ fuel) :
    ∃ ret out ram', readOpsLoop mtd fuel buf realpage col readlen flipped chip ram =
        some (ret, out, ram') ∧ (ret = 0 ∨ ret = -EUCLEAN) ∧
      RangeRead mtd chip ram (realpage * mtd.geo.writesize + col) readlen buf out ram' := by
  induction fuel generalizing buf realpage col readlen flipped chip ram with
  | zero => omega
  | succ fuel ih =>
    have hpage := readPage_read coherent realpage col (min (mtd.geo.writesize - col) readlen)
      (mtd.geo.page_inside (by omega)) (by omega)
    have hsucc : (realpage + 1) * mtd.geo.writesize =
        realpage * mtd.geo.writesize + mtd.geo.writesize := Nat.succ_mul _ _
    simp only [readOpsLoop]
    by_cases hlast : readlen - min (mtd.geo.writesize - col) readlen = 0
    · have hbytes : min (mtd.geo.writesize - col) readlen = readlen := by omega
      rw [if_pos hlast]
      rw [hbytes] at hpage ⊢
      refine ⟨_, _, _, rfl, ?_, hpage.range ram buf⟩
      split_ifs
      · exact .inr rfl
      · exact .inl rfl
    have hbytes : min (mtd.geo.writesize - col) readlen = mtd.geo.writesize - col := by omega
    rw [if_neg hlast]
    obtain ⟨ret, out, ram', hrun, hret, hrest⟩ := ih hpage.coherent
      (blit ram buf (readPage mtd chip realpage col
        (min (mtd.geo.writesize - col) readlen)).2.1)
      (buf + min (mtd.geo.writesize - col) readlen) (realpage + 1) 0
      (readlen - min (mtd.geo.writesize - col) readlen)
      (flipped || (readPage mtd chip realpage col (min (mtd.geo.writesize - col) readlen)).2.2)
      (by omega) (by omega) mtd.geo.writesize_pos (by omega)
    refine ⟨ret, out, ram', hrun, hret, ?_⟩
    rw [add_zero] at hrest
    have hall := RangeRead.cons hcol hbytes hpage hrest
    have hlen : min (mtd.geo.writesize - col) readlen +
        (readlen - min (mtd.geo.writesize - col) readlen) = readlen := by omega
    rwa [hlen] at hall

lemma nandRead_past (h : mtd.geo.size < ofs + len) (chip : Chip) (ram : Mem) (buf : Nat) :
    nandRead mtd chip ram ofs len buf = some (-EINVAL, chip, ram) :=
  if_pos h

lemma nandRead_range (coherent : Coherent mtd chip) (ram : Mem) (buf : Nat)
    (inside : ofs + len ≤ mtd.geo.size) (pos : 0 < len) (width : len < 2 ^ 32) :
    ∃ ret out ram', nandRead mtd chip ram ofs len buf = some (ret, out, ram') ∧
      (ret = 0 ∨ ret = -EUCLEAN) ∧ RangeRead mtd chip ram ofs len buf out ram' := by
  have hdiv : ofs / mtd.geo.writesize * mtd.geo.writesize + ofs % mtd.geo.writesize = ofs :=
    Nat.div_add_mod' _ _
  obtain ⟨ret, out, ram', hrun, hret, hrange⟩ := readOpsLoop_range coherent ram (2 ^ 32) buf
    (ofs / mtd.geo.writesize) (ofs % mtd.geo.writesize) len false pos (by omega)
    (Nat.mod_lt _ mtd.geo.writesize_pos) (Nat.le_of_lt width)
  rw [hdiv] at hrange
  refine ⟨ret, out, ram', ?_, hret, hrange⟩
  rw [nandRead, if_neg (by omega), if_neg (by omega), hrun]

end PageOps
