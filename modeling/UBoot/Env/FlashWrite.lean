import UBoot.Env.FlashBlocks

/-!
# Replacing part of a flash device

A write within erase blocks reads them, replaces its bytes and writes the blocks back.
On NAND that keeps everything else; on NOR the whole rest of the range is erased, but
only the blocks that were read are written back.
-/

namespace FwFlash

open ByteMemory Rank

variable {dev : EnvDev} {mtdType : MtdType} {bad : Nat → Bool} {mem behind out : Mem}
  {buf : List UInt8} {offset : Nat}

def eraseOffset (dev : EnvDev) (offset : Nat) : Nat := offset / dev.erasesize * dev.erasesize

def blockSeek (dev : EnvDev) (offset : Nat) : Nat := offset - eraseOffset dev offset

def writeTotal (dev : EnvDev) (offset count : Nat) : Nat :=
  (blockSeek dev offset + count + dev.erasesize - 1) / dev.erasesize * dev.erasesize

/-- Byte `j` of the buffer belongs at `a`: counted over the good blocks from that of `offset` on. -/
structure InPlace (dev : EnvDev) (mtdType : MtdType) (bad : Nat → Bool) (offset a j : Nat) :
    Prop where
  above : eraseOffset dev offset ≤ a
  inside : a < dev.topOfRange
  good : usable dev mtdType bad a = true
  place : rank (usable dev mtdType bad) (eraseOffset dev offset) a = blockSeek dev offset + j

structure Written (dev : EnvDev) (mtdType : MtdType) (bad : Nat → Bool) (mem : Mem)
    (buf : List UInt8) (offset : Nat) (out : Mem) : Prop where
  stored : ∀ j (h : j < buf.length), ∃ a, InPlace dev mtdType bad offset a j ∧ out a = buf[j]
  kept : ∀ a, (∀ j, j < buf.length → ¬ InPlace dev mtdType bad offset a j) → out a = mem a

/-- A read of the same bytes returns the buffer, unless an operation fails. -/
structure ReadsBack (dev : EnvDev) (mtdType : MtdType) (bad : Nat → Bool) (out : Mem)
    (buf : List UInt8) (offset : Nat) : Prop where
  same : ∀ fails fuel ops bytes ops',
    flashReadBuf fuel dev ⟨bad, fails⟩ mtdType out ops buf.length offset = some (some bytes, ops') →
      bytes = buf
  returns : ∀ ops, ∃ fuel ops',
    flashReadBuf fuel dev (working bad) mtdType out ops buf.length offset = some (some buf, ops')

def EnoughGood (dev : EnvDev) (mtdType : MtdType) (bad : Nat → Bool) (count offset : Nat) : Prop :=
  blockSeek dev offset + count ≤
    rank (usable dev mtdType bad) (eraseOffset dev offset) dev.topOfRange

/-- What `flash_write_buf` is for, whichever operations fail. -/
structure WriteCorrect (dev : EnvDev) (mtdType : MtdType) (bad : Nat → Bool) (mem behind : Mem)
    (buf : List UInt8) (offset : Nat) : Prop where
  success : ∀ fails fuel ops rval out ops',
    flashWriteBuf fuel dev ⟨bad, fails⟩ mtdType mem ops buf behind offset = some (rval, out, ops') →
      0 ≤ rval →
        Written dev mtdType bad mem buf offset out ∧ ReadsBack dev mtdType bad out buf offset
  succeeds : EnoughGood dev mtdType bad buf.length offset → ∀ ops, ∃ fuel rval out ops',
    flashWriteBuf fuel dev (working bad) mtdType mem ops buf behind offset = some (rval, out, ops') ∧
      0 ≤ rval

variable {o count : Nat}

lemma eraseOffset_le (dev : EnvDev) (offset : Nat) : eraseOffset dev offset ≤ offset :=
  Nat.div_mul_le_self _ _

lemma dvd_eraseOffset (dev : EnvDev) (offset : Nat) :
    dev.erasesize ∣ eraseOffset dev offset := Nat.dvd_mul_left _ _

lemma eraseOffset_add (dev : EnvDev) (offset : Nat) :
    eraseOffset dev offset + blockSeek dev offset = offset :=
  Nat.add_sub_cancel' (eraseOffset_le dev offset)

lemma blockSeek_lt (dev : EnvDev) (offset : Nat) : blockSeek dev offset < dev.erasesize := by
  have hdiv := Nat.div_add_mod' offset dev.erasesize
  have hmod := Nat.mod_lt offset dev.erasesize_pos
  unfold blockSeek eraseOffset
  omega

lemma eraseOffset_aligned (h : dev.erasesize ∣ o) : eraseOffset dev o = o :=
  Nat.div_mul_cancel h

lemma dvd_writeTotal (dev : EnvDev) (offset count : Nat) :
    dev.erasesize ∣ writeTotal dev offset count := Nat.dvd_mul_left _ _

lemma le_writeTotal (dev : EnvDev) (offset count : Nat) :
    blockSeek dev offset + count ≤ writeTotal dev offset count := by
  have hpos := dev.erasesize_pos
  have hdiv := Nat.div_add_mod' (blockSeek dev offset + count + dev.erasesize - 1) dev.erasesize
  have hmod := Nat.mod_lt (blockSeek dev offset + count + dev.erasesize - 1) hpos
  unfold writeTotal
  omega

lemma writeTotal_le {offset n : Nat} (h : dev.erasesize ∣ n)
    (hle : blockSeek dev offset + count ≤ n) : writeTotal dev offset count ≤ n := by
  obtain ⟨q, rfl⟩ := h
  have hpos := dev.erasesize_pos
  have hq : (blockSeek dev offset + count + dev.erasesize - 1) / dev.erasesize ≤ q := by
    rw [← Nat.lt_succ_iff, Nat.div_lt_iff_lt_mul hpos, Nat.succ_mul, mul_comm q]
    omega
  calc writeTotal dev offset count ≤ q * dev.erasesize := Nat.mul_le_mul_right _ hq
    _ = dev.erasesize * q := mul_comm _ _

lemma writeTotal_whole (h : ¬ count < writeTotal dev offset count) :
    blockSeek dev offset = 0 ∧ writeTotal dev offset count = count := by
  have := le_writeTotal dev offset count
  omega

lemma written_of_cells (data : Mem) (left : Nat)
    (cells : ∀ a, out a = if eraseOffset dev offset ≤ a ∧ a < dev.topOfRange ∧
        usable dev mtdType bad a = true ∧
        rank (usable dev mtdType bad) (eraseOffset dev offset) a < left then
      data (rank (usable dev mtdType bad) (eraseOffset dev offset) a) else mem a)
    (enough : blockSeek dev offset + buf.length ≤ left)
    (room : EnoughGood dev mtdType bad buf.length offset)
    (new : ∀ j (h : j < buf.length), data (blockSeek dev offset + j) = buf[j])
    (old : ∀ a, eraseOffset dev offset ≤ a → a < dev.topOfRange →
      usable dev mtdType bad a = true →
      rank (usable dev mtdType bad) (eraseOffset dev offset) a < left →
      (∀ j, j < buf.length → rank (usable dev mtdType bad) (eraseOffset dev offset) a ≠
        blockSeek dev offset + j) →
      data (rank (usable dev mtdType bad) (eraseOffset dev offset) a) = mem a) :
    Written dev mtdType bad mem buf offset out := by
  refine ⟨fun j hj => ?_, fun a hnone => ?_⟩
  · have hlt : blockSeek dev offset + j <
        rank (usable dev mtdType bad) (eraseOffset dev offset) dev.topOfRange := by
      unfold EnoughGood at room
      omega
    obtain ⟨a, ha, htop, hgood, hrank⟩ := exists_rank hlt
    refine ⟨a, ⟨ha, htop, hgood, hrank⟩, ?_⟩
    rw [cells, if_pos ⟨ha, htop, hgood, by omega⟩, hrank, new j hj]
  · rw [cells]
    split_ifs with hin
    · obtain ⟨ha, htop, hgood, hlt⟩ := hin
      exact old a ha htop hgood hlt fun j hj hrank => hnone j hj ⟨ha, htop, hgood, hrank⟩
    · rfl

lemma merged_new (old : List UInt8) (s : Nat) {j : Nat} (h : j < buf.length) :
    blit (blit behind 0 old) s buf (s + j) = buf[j] := blit_inside _ buf h

lemma merged_old {old : List UInt8} {s i : Nat}
    (hout : ∀ j, j < buf.length → i ≠ s + j) (h : i < old.length) :
    blit (blit behind 0 old) s buf i = old[i] := by
  have houtside : i < s ∨ s + buf.length ≤ i := by
    by_contra hin
    exact hout (i - s) (by omega) (by omega)
  have hinside := blit_inside behind (a := 0) old h
  rw [zero_add] at hinside
  rw [blit_outside _ buf houtside, hinside]

lemma merged_behind {old : List UInt8} {s i : Nat} (hbuf : s + buf.length ≤ i)
    (hold : old.length ≤ i) : blit (blit behind 0 old) s buf i = behind i := by
  rw [blit_after _ buf hbuf, blit_after behind old (by omega)]

variable {fuel ops ops' : Nat} {file : DevFile}

def eraseLength (dev : EnvDev) (mtdType : MtdType) (offset : Nat) : Nat :=
  match mtdType with
  | .nand => dev.erasesize
  | .nor => dev.topOfRange - eraseOffset dev offset

lemma flashWriteBuf_eq (fuel : Nat) (file : DevFile) (ops : Nat) :
    flashWriteBuf fuel dev file mtdType mem ops buf behind offset =
      if buf.length < writeTotal dev offset buf.length then
        (flashReadBuf fuel dev file mtdType mem ops (writeTotal dev offset buf.length)
          (eraseOffset dev offset)).bind fun r =>
          match r.1 with
          | none => some (-1, mem, r.2)
          | some old =>
            writeLoop dev file mtdType (blit (blit behind 0 old) (blockSeek dev offset) buf)
              dev.topOfRange (eraseLength dev mtdType offset) (writeTotal dev offset buf.length) fuel
              (eraseOffset dev offset) 0 mem r.2
      else writeLoop dev file mtdType (blit behind 0 buf) dev.topOfRange
        (eraseLength dev mtdType offset) (writeTotal dev offset buf.length) fuel
        (eraseOffset dev offset) 0 mem ops := by
  cases mtdType <;> rfl

lemma flashWriteBuf_success {rval : Int}
    (h : flashWriteBuf fuel dev file mtdType mem ops buf behind offset = some (rval, out, ops'))
    (success : 0 ≤ rval) :
    ∃ old ops1, writeLoop dev file mtdType (blit (blit behind 0 old) (blockSeek dev offset) buf)
        dev.topOfRange (eraseLength dev mtdType offset) (writeTotal dev offset buf.length) fuel
        (eraseOffset dev offset) 0 mem ops1 = some (rval, out, ops') ∧
      (flashReadBuf fuel dev file mtdType mem ops (writeTotal dev offset buf.length)
          (eraseOffset dev offset) = some (some old, ops1) ∨
        old = [] ∧ blockSeek dev offset = 0 ∧ writeTotal dev offset buf.length = buf.length) := by
  rw [flashWriteBuf_eq] at h
  by_cases hread : buf.length < writeTotal dev offset buf.length
  · rw [if_pos hread] at h
    obtain ⟨⟨r, ops1⟩, hr, h⟩ := Option.bind_eq_some_iff.mp h
    cases r with
    | none =>
      cases h
      exact absurd success (by decide)
    | some old => exact ⟨old, ops1, h, .inl hr⟩
  · rw [if_neg hread] at h
    obtain ⟨hseek, hwhole⟩ := writeTotal_whole hread
    refine ⟨[], ops, ?_, .inr ⟨rfl, hseek, hwhole⟩⟩
    rw [blit_nil, hseek]
    exact h

lemma flashWriteBuf_reads (behind : Mem)
    (reads : ∃ old ops1, flashReadBuf fuel dev file mtdType mem ops
      (writeTotal dev offset buf.length) (eraseOffset dev offset) = some (some old, ops1)) :
    ∃ data ops1, flashWriteBuf fuel dev file mtdType mem ops buf behind offset =
      writeLoop dev file mtdType data dev.topOfRange (eraseLength dev mtdType offset)
        (writeTotal dev offset buf.length) fuel (eraseOffset dev offset) 0 mem ops1 := by
  obtain ⟨old, ops1, hread⟩ := reads
  rw [flashWriteBuf_eq]
  split_ifs
  · rw [hread]
    exact ⟨_, ops1, rfl⟩
  · exact ⟨_, ops, rfl⟩

lemma flashReadBuf_nand (fuel : Nat) (file : DevFile) (ops count offset : Nat) :
    flashReadBuf fuel dev file .nand mem ops count offset =
      readLoop dev file .nand mem count dev.topOfRange dev.erasesize fuel (eraseOffset dev offset)
        (blockSeek dev offset) (min (dev.erasesize - blockSeek dev offset)
          (count - ([] : List UInt8).length)) [] ops := by
  rw [Nat.min_comm]
  rfl

lemma nand_reads {bytes : List UInt8}
    (h : flashReadBuf fuel dev file .nand mem ops count offset = some (some bytes, ops')) :
    bytes.length = count ∧ Reads dev file.bad mem (eraseOffset dev offset) dev.topOfRange
      (blockSeek dev offset) bytes := by
  rw [flashReadBuf_nand] at h
  obtain ⟨tail, rfl, hlen, hreads⟩ := readLoop_reads dev.dvd_topOfRange
    (dvd_eraseOffset dev offset) (blockSeek_lt dev offset) h
  exact ⟨hlen, hreads⟩

lemma nand_returns (mem : Mem) (ops : Nat) (room : EnoughGood dev .nand bad count offset)
    (inside : eraseOffset dev offset ≤ dev.topOfRange) :
    ∃ out ops', flashReadBuf (dev.topOfRange + 1) dev (working bad) .nand mem ops count offset =
      some (some out, ops') := by
  rw [flashReadBuf_nand]
  exact readLoop_returns dev.dvd_topOfRange _ _ _ _ (dvd_eraseOffset dev offset)
    (blockSeek_lt dev offset) (fun _ => room) inside (by omega)

lemma nand_readsBack (written : Written dev .nand bad mem buf offset out)
    (room : EnoughGood dev .nand bad buf.length offset)
    (inside : eraseOffset dev offset ≤ dev.topOfRange) :
    ReadsBack dev .nand bad out buf offset := by
  have hsame : ∀ fails fuel ops bytes ops', flashReadBuf fuel dev ⟨bad, fails⟩ .nand out ops buf.length
      offset = some (some bytes, ops') → bytes = buf := by
    intro fails fuel ops bytes ops' h
    obtain ⟨hlen, hreads⟩ := nand_reads h
    refine List.ext_getElem hlen fun j hj hbuf => ?_
    obtain ⟨a, hplace, hcell⟩ := written.stored j hbuf
    exact (hreads.cells a hplace.above hplace.inside hplace.good j hj hplace.place).trans hcell
  refine ⟨hsame, fun ops => ?_⟩
  obtain ⟨bytes, ops', hrun⟩ := nand_returns out ops room inside
  have hbytes := hsame _ _ _ _ _ hrun
  rw [hbytes] at hrun
  exact ⟨dev.topOfRange + 1, ops', hrun⟩

lemma eraseOffset_le_top (fits : offset + buf.length ≤ dev.topOfRange) :
    eraseOffset dev offset ≤ dev.topOfRange :=
  (eraseOffset_le dev offset).trans (Nat.le_of_add_right_le fits)

lemma dvd_rank (dev : EnvDev) (bad : Nat → Bool) (offset : Nat)
    (inside : eraseOffset dev offset ≤ dev.topOfRange) :
    dev.erasesize ∣ rank (usable dev .nand bad) (eraseOffset dev offset) dev.topOfRange := by
  obtain ⟨q, hq⟩ := dvd_eraseOffset dev offset
  obtain ⟨t, ht⟩ := dev.dvd_topOfRange
  rw [mul_comm] at hq ht
  have hle : q ≤ t := by
    rw [hq, ht] at inside
    exact Nat.le_of_mul_le_mul_right inside dev.erasesize_pos
  have hblocks : ∀ c i, i < dev.erasesize →
      usable dev .nand bad (c * dev.erasesize + i) = usable dev .nand bad (c * dev.erasesize) :=
    fun c i hi => usable_block (Nat.dvd_mul_left _ _) hi
  rw [hq, ht, rank_mul hblocks hle]
  exact Nat.dvd_mul_left _ _

lemma nand_correct (fits : offset + buf.length ≤ dev.topOfRange) :
    WriteCorrect dev .nand bad mem behind buf offset := by
  have hinside := eraseOffset_le_top fits
  have halign : eraseOffset dev (eraseOffset dev offset) = eraseOffset dev offset :=
    eraseOffset_aligned (dvd_eraseOffset dev offset)
  have hseek : blockSeek dev (eraseOffset dev offset) = 0 := by
    rw [blockSeek, halign, Nat.sub_self]
  have htotal := le_writeTotal dev offset buf.length
  refine ⟨fun fails fuel ops rval out ops' h success => ?_, fun room ops => ?_⟩
  · obtain ⟨old, ops1, hloop, hdata⟩ := flashWriteBuf_success h success
    have hputs := writeLoop_puts (dvd_eraseOffset dev offset) (Nat.dvd_zero _)
      (dvd_writeTotal dev offset buf.length) success hloop
    rw [Nat.sub_zero] at hputs
    have hroom : EnoughGood dev .nand bad buf.length offset := by
      have henough := hputs.room
      unfold EnoughGood
      by_cases hnone : writeTotal dev offset buf.length = 0
      · omega
      · exact Nat.le_trans htotal (henough (Nat.pos_of_ne_zero hnone))
    have hwritten : Written dev .nand bad mem buf offset out := by
      refine written_of_cells (blit (blit behind 0 old) (blockSeek dev offset) buf)
        (writeTotal dev offset buf.length) (fun a => ?_) htotal hroom
        (fun j hj => merged_new old _ hj) fun a ha htop hgood hlt hnot => ?_
      · rw [hputs.cells, zero_add]
      · rcases hdata with hread | ⟨-, hzero, hwhole⟩
        · obtain ⟨hlen, hreads⟩ := nand_reads hread
          rw [halign, hseek] at hreads
          rw [merged_old hnot (by rwa [hlen])]
          exact hreads.cells a ha htop hgood _ _ (zero_add _).symm
        · exact absurd (by rw [hzero, zero_add]) (hnot _ (by rwa [hwhole] at hlt))
    exact ⟨hwritten, nand_readsBack hwritten hroom hinside⟩
  · have hwhole : writeTotal dev offset buf.length ≤
        rank (usable dev .nand bad) (eraseOffset dev offset) dev.topOfRange :=
      writeTotal_le (dvd_rank dev bad offset hinside) room
    have hblocks : EnoughGood dev .nand bad (writeTotal dev offset buf.length)
        (eraseOffset dev offset) := by
      rw [EnoughGood, halign, hseek, zero_add]
      exact hwhole
    have hreads := nand_returns mem ops hblocks (by rwa [halign])
    obtain ⟨data, ops1, hcall⟩ := flashWriteBuf_reads behind hreads
    obtain ⟨rval, out, ops', hrun, hsuccess⟩ := writeLoop_returns dev.dvd_topOfRange data
      (dev.topOfRange + 1) 0 mem ops1 (dvd_eraseOffset dev offset) (Nat.dvd_zero _) hwhole hinside
      (by omega)
    exact ⟨dev.topOfRange + 1, rval, out, ops', hcall.trans hrun, hsuccess⟩

variable {top : Nat}

lemma nor_readLoop {blockstart seek : Nat} (more : ¬ count ≤ 0)
    (inside : blockstart + seek + count ≤ top) :
    readLoop dev file .nor mem count top 0 (fuel + 1) blockstart seek count [] ops =
      if file.fails ops then some (none, ops + 1)
      else readLoop dev file .nor mem count top 0 fuel blockstart 0 0
        (slice mem (blockstart + seek) count) (ops + 1) := by
  rw [readLoop, List.length_nil, if_neg more]
  dsimp only [flashBadBlock]
  rw [if_neg (by decide), if_neg (not_lt.mpr inside), if_neg (by decide), List.nil_append,
    Nat.zero_min]
  rfl

lemma nor_reads {bytes : List UInt8}
    (h : flashReadBuf fuel dev file .nor mem ops count offset = some (some bytes, ops')) :
    bytes = slice mem offset count := by
  have hplace : offset / dev.erasesize * dev.erasesize +
      (offset - offset / dev.erasesize * dev.erasesize) = offset := eraseOffset_add dev offset
  cases fuel with
  | zero => cases h
  | succ fuel =>
    unfold flashReadBuf at h
    dsimp only at h
    by_cases hzero : count ≤ 0
    · rw [readLoop, List.length_nil, if_pos hzero] at h
      cases h
      rw [Nat.le_zero.mp hzero]
      rfl
    rw [nor_readLoop hzero (by omega), hplace] at h
    split_ifs at h
    · cases h
    cases fuel with
    | zero => cases h
    | succ fuel =>
      rw [readLoop, slice_length, if_pos (Nat.le_refl count)] at h
      cases h
      rfl

lemma nor_returns (dev : EnvDev) (bad : Nat → Bool) (mem : Mem) (ops count offset fuel : Nat) :
    ∃ ops', flashReadBuf (fuel + 2) dev (working bad) .nor mem ops count offset =
      some (some (slice mem offset count), ops') := by
  have hplace : offset / dev.erasesize * dev.erasesize +
      (offset - offset / dev.erasesize * dev.erasesize) = offset := eraseOffset_add dev offset
  unfold flashReadBuf
  dsimp only
  by_cases hzero : count ≤ 0
  · rw [readLoop, List.length_nil, if_pos hzero, Nat.le_zero.mp hzero]
    exact ⟨ops, rfl⟩
  · rw [nor_readLoop hzero (by omega), hplace, if_neg (by exact Bool.false_ne_true), readLoop,
      slice_length, if_pos (Nat.le_refl count)]
    exact ⟨ops + 1, rfl⟩

lemma nor_writeLoop {data : Mem} {len total p : Nat} (more : ¬ total ≤ p) :
    writeLoop dev file .nor data top len total (fuel + 1) o p mem ops =
      if top < o + len then some (-1, mem, ops)
      else if file.fails (ops + 1) then some (-1, mem, ops + 2)
      else if file.fails (ops + 2) then some (-1, eraseCells mem o len, ops + 3)
      else writeLoop dev file .nor data top len total fuel (o + dev.erasesize) (p + dev.erasesize)
        (programCells (eraseCells mem o len) o (slice data p len)) (ops + 4) := by
  rw [writeLoop, if_neg more]
  dsimp only [flashBadBlock]
  rw [if_neg (by decide)]
  by_cases hrange : top < o + len
  · rw [if_pos hrange, if_pos hrange]
  · rw [if_neg hrange, if_neg hrange, if_neg (by decide)]

lemma nor_success {data : Mem} {len total : Nat} {rval : Int} (range : o + len = top)
    (success : 0 ≤ rval)
    (h : writeLoop dev file .nor data top len total fuel o 0 mem ops = some (rval, out, ops')) :
    (total = 0 ∧ out = mem) ∨ (0 < total ∧ total ≤ dev.erasesize ∧
      out = programCells (eraseCells mem o len) o (slice data 0 len)) := by
  have hpos := dev.erasesize_pos
  cases fuel with
  | zero => cases h
  | succ fuel =>
    by_cases hdone : total ≤ 0
    · rw [writeLoop, if_pos hdone] at h
      cases h
      exact .inl ⟨Nat.le_zero.mp hdone, rfl⟩
    rw [nor_writeLoop hdone, if_neg (by omega)] at h
    split_ifs at h
    · cases h
      exact absurd success (by decide)
    · cases h
      exact absurd success (by decide)
    · cases fuel with
      | zero => cases h
      | succ fuel =>
        by_cases hone : total ≤ 0 + dev.erasesize
        · rw [writeLoop, if_pos hone] at h
          cases h
          exact .inr ⟨by omega, by omega, rfl⟩
        · rw [nor_writeLoop hone, if_pos (by omega)] at h
          cases h
          exact absurd success (by decide)

lemma nor_writes (bad : Nat → Bool) (mem data : Mem) (ops : Nat) {len total : Nat}
    (range : o + len = top) (one : total ≤ dev.erasesize) :
    ∃ rval out ops', writeLoop dev (working bad) .nor data top len total 2 o 0 mem ops =
      some (rval, out, ops') ∧ 0 ≤ rval := by
  by_cases hdone : total ≤ 0
  · exact ⟨0, mem, ops, by rw [writeLoop, if_pos hdone]; rfl, Int.le_refl 0⟩
  · rw [nor_writeLoop hdone, if_neg (by omega), if_neg (by exact Bool.false_ne_true),
      if_neg (by exact Bool.false_ne_true), writeLoop, if_pos (by omega)]
    exact ⟨_, _, _, rfl, Int.natCast_nonneg _⟩

lemma nor_rank (dev : EnvDev) (bad : Nat → Bool) {a : Nat} (h : o ≤ a) :
    rank (usable dev .nor bad) o a = a - o :=
  rank_all h fun _ _ _ => rfl

lemma nor_readsBack (written : Written dev .nor bad mem buf offset out) :
    ReadsBack dev .nor bad out buf offset := by
  have hplace := eraseOffset_add dev offset
  have hbuf : slice out offset buf.length = buf := by
    refine List.ext_getElem (slice_length _ _ _) fun j hj hlt => ?_
    obtain ⟨a, hin, hcell⟩ := written.stored j hlt
    have hrank := hin.place
    rw [nor_rank dev bad hin.above] at hrank
    have habove := hin.above
    rw [slice_get, ← hcell]
    congr 1
    omega
  refine ⟨fun fails fuel ops bytes ops' h => (nor_reads h).trans hbuf, fun ops => ?_⟩
  obtain ⟨ops', hrun⟩ := nor_returns dev bad out ops buf.length offset 0
  rw [hbuf] at hrun
  exact ⟨2, ops', hrun⟩

lemma nor_room (fits : offset + buf.length ≤ dev.topOfRange) :
    EnoughGood dev .nor bad buf.length offset := by
  have hplace := eraseOffset_add dev offset
  rw [EnoughGood, nor_rank dev bad (eraseOffset_le_top fits)]
  omega

lemma nor_correct_iff (fits : offset + buf.length ≤ dev.topOfRange) :
    WriteCorrect dev .nor bad mem behind buf offset ↔
      writeTotal dev offset buf.length = 0 ∨
        (writeTotal dev offset buf.length = dev.erasesize ∧
          ∀ a, eraseOffset dev offset + dev.erasesize ≤ a → a < dev.topOfRange →
            behind (a - eraseOffset dev offset) = mem a) := by
  have hinside := eraseOffset_le_top fits
  have hplace := eraseOffset_add dev offset
  have htotal := le_writeTotal dev offset buf.length
  have hrange : eraseOffset dev offset + eraseLength dev .nor offset = dev.topOfRange :=
    Nat.add_sub_cancel' hinside
  constructor
  · intro correct
    by_cases hnone : writeTotal dev offset buf.length = 0
    · exact .inl hnone
    obtain ⟨fuel, rval, out, ops', hcall, hsuccess⟩ := correct.succeeds (nor_room fits) 0
    have hwritten := (correct.success _ _ _ _ _ _ hcall hsuccess).1
    obtain ⟨old, ops1, hloop, hdata⟩ := flashWriteBuf_success hcall hsuccess
    rcases nor_success hrange hsuccess hloop with ⟨hzero, -⟩ | ⟨hpos, hone, rfl⟩
    · exact absurd hzero hnone
    have hsize : writeTotal dev offset buf.length = dev.erasesize :=
      le_antisymm hone (Nat.le_of_dvd hpos (dvd_writeTotal dev offset buf.length))
    refine .inr ⟨hsize, fun a ha htop => ?_⟩
    have hkept := hwritten.kept a fun j hj hin => by
      have hrank := hin.place
      rw [nor_rank dev bad hin.above] at hrank
      omega
    have hold : old.length ≤ writeTotal dev offset buf.length := by
      rcases hdata with hread | ⟨rfl, -⟩
      · rw [nor_reads hread, slice_length]
      · exact Nat.zero_le _
    rw [rewritten, if_pos (by omega), zero_add, merged_behind (by omega) (by omega)] at hkept
    exact hkept
  · intro hcond
    refine ⟨fun fails fuel ops rval out ops' h success => ?_, fun _ ops => ?_⟩
    · obtain ⟨old, ops1, hloop, hdata⟩ := flashWriteBuf_success h success
      have hwritten : Written dev .nor bad mem buf offset out := by
        rcases nor_success hrange success hloop with ⟨hzero, rfl⟩ | ⟨hpos, hone, rfl⟩
        · exact ⟨fun j hj => absurd hj (by omega), fun _ _ => rfl⟩
        obtain hzero | ⟨hsize, hbehind⟩ := hcond
        · omega
        refine written_of_cells (blit (blit behind 0 old) (blockSeek dev offset) buf)
          (eraseLength dev .nor offset) (fun a => ?_) ?_ (nor_room fits)
          (fun j hj => merged_new old _ hj) fun a ha htop _ _ hnot => ?_
        · rw [rewritten]
          by_cases hin : eraseOffset dev offset ≤ a ∧ a < dev.topOfRange
          · have hrank := nor_rank dev bad hin.1
            rw [if_pos (by omega), hrank, zero_add,
              if_pos ⟨hin.1, hin.2, rfl, by omega⟩]
          · rw [if_neg (by omega), if_neg fun h => hin ⟨h.1, h.2.1⟩]
        · omega
        · rw [nor_rank dev bad ha] at hnot ⊢
          rcases hdata with hread | ⟨rfl, hzero, hwhole⟩
          · have hslice := nor_reads hread
            by_cases hfirst : a < eraseOffset dev offset + dev.erasesize
            · have hlt : a - eraseOffset dev offset < old.length := by
                rw [hslice, slice_length]
                omega
              rw [merged_old hnot hlt]
              subst hslice
              rw [slice_get]
              congr 1
              omega
            · have hlen : old.length = dev.erasesize := by rw [hslice, slice_length, hsize]
              rw [merged_behind (by omega) (by omega)]
              exact hbehind a (by omega) htop
          · by_cases hfirst : a < eraseOffset dev offset + dev.erasesize
            · exact absurd (by omega) (hnot (a - eraseOffset dev offset) (by omega))
            · rw [merged_behind (by omega) (Nat.zero_le _)]
              exact hbehind a (by omega) htop
      exact ⟨hwritten, nor_readsBack hwritten⟩
    · have hone : writeTotal dev offset buf.length ≤ dev.erasesize := by
        rcases hcond with hzero | ⟨hsize, -⟩ <;> omega
      obtain ⟨ops1, hread⟩ := nor_returns dev bad mem ops
        (writeTotal dev offset buf.length) (eraseOffset dev offset) 0
      obtain ⟨data, ops2, hcall⟩ := flashWriteBuf_reads behind ⟨_, ops1, hread⟩
      obtain ⟨rval, out, ops', hrun, hsuccess⟩ := nor_writes bad mem data ops2 hrange hone
      exact ⟨2, rval, out, ops', hcall.trans hrun, hsuccess⟩

/-- A write is correct on NAND, and on NOR if it is about one block behind which nothing is lost. -/
theorem writeCorrect_iff (mtdType : MtdType) (bad : Nat → Bool) (mem behind : Mem)
    (fits : offset + buf.length ≤ dev.topOfRange) :
    WriteCorrect dev mtdType bad mem behind buf offset ↔
      mtdType = .nand ∨ writeTotal dev offset buf.length = 0 ∨
        (writeTotal dev offset buf.length = dev.erasesize ∧
          ∀ a, eraseOffset dev offset + dev.erasesize ≤ a → a < dev.topOfRange →
            behind (a - eraseOffset dev offset) = mem a) := by
  cases mtdType with
  | nand => exact iff_of_true (nand_correct fits) (Or.inl rfl)
  | nor =>
    rw [nor_correct_iff fits]
    constructor
    · intro h
      exact Or.inr h
    · rintro (h | h)
      · exact nomatch h
      · exact h

def twoSectors : EnvDev := ⟨0, 16, 2⟩

theorem writeCorrect_iff_one_byte :
    WriteCorrect twoSectors .nor (fun _ => false) (fun _ => 0) (fun _ => 0) [1] 0 ↔
      MtdType.nor = .nand ∨ writeTotal twoSectors 0 1 = 0 ∨
        (writeTotal twoSectors 0 1 = twoSectors.erasesize ∧
          ∀ a, eraseOffset twoSectors 0 + twoSectors.erasesize ≤ a → a < twoSectors.topOfRange →
            (0 : UInt8) = 0) :=
  writeCorrect_iff .nor _ _ _ (by decide)

/-- Two sectors of NOR are erased and written in the first round, and the second one fails. -/
theorem nor_two_sectors_fail :
    ¬ WriteCorrect twoSectors .nor (fun _ => false) (fun _ => 0) (fun _ => 0)
      (List.replicate 131072 0) 0 := by
  have hlen : (List.replicate 131072 (0 : UInt8)).length = 131072 := List.length_replicate
  have htotal : writeTotal twoSectors 0 131072 = 131072 := by decide
  rw [nor_correct_iff (by rw [hlen]; decide), hlen, htotal]
  rintro (hnone | ⟨hone, -⟩)
  · exact nomatch hnone
  · exact absurd hone (by decide)

end FwFlash
