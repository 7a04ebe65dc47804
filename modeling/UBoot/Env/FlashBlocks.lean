import UBoot.Lib.ByteMemory
import UBoot.Lib.Rank

/-!
# The flash device files of the Linux tool (tools/env/fw_env.c)

Every operation on the device file may fail; a failed one ends the call. Seeking to an
address on the device does not fail, and memory is always to be had.
-/

namespace FwFlash

open ByteMemory

inductive MtdType where
  | nor
  | nand
deriving DecidableEq

/-- `struct envdev_s`; the erase size is a power of two. -/
structure EnvDev where
  devoff : Nat
  eraseShift : Nat
  envSectors : Nat

def EnvDev.erasesize (dev : EnvDev) : Nat := 2 ^ dev.eraseShift

/-- The device file: the bad blocks, and which operations fail, numbered in the order they are
made. -/
structure DevFile where
  bad : Nat → Bool
  fails : Nat → Bool

def eraseCells (mem : Mem) (start length : Nat) : Mem := fun a =>
  if start ≤ a ∧ a < start + length then 0xff else mem a

def programCells (mem : Mem) (start : Nat) (bytes : List UInt8) : Mem := fun a =>
  if start ≤ a ∧ a < start + bytes.length then mem a &&& bytes.getD (a - start) 0xff else mem a

/-- `flash_bad_block`, and the operations made so far. -/
def flashBadBlock (dev : EnvDev) (file : DevFile) (mtdType : MtdType) (blockstart ops : Nat) :
    Int × Nat :=
  match mtdType with
  | .nor => (0, ops)
  | .nand =>
    if file.fails ops then (-1, ops + 1)
    else (if file.bad (blockstart / dev.erasesize) then 1 else 0, ops + 1)

/-- The loop of `flash_read_buf`; `processed` is the length of what was read. -/
def readLoop (dev : EnvDev) (file : DevFile) (mtdType : MtdType) (mem : Mem)
    (count topOfRange blocklen : Nat) :
    Nat → (blockstart blockSeek readlen : Nat) → (buf : List UInt8) → (ops : Nat) →
      Option (Option (List UInt8) × Nat)
  | 0, _, _, _, _, _ => none
  | fuel + 1, blockstart, blockSeek, readlen, buf, ops =>
    if count ≤ buf.length then some (some buf, ops)
    else
      let rc := flashBadBlock dev file mtdType blockstart ops
      if rc.1 < 0 then some (none, rc.2)
      else if topOfRange < blockstart + blockSeek + readlen then some (none, rc.2)
      else if rc.1 ≠ 0 then
        readLoop dev file mtdType mem count topOfRange blocklen fuel (blockstart + blocklen) blockSeek
          readlen buf rc.2
      else if file.fails rc.2 then some (none, rc.2 + 1)
      else
        let buf := buf ++ slice mem (blockstart + blockSeek) readlen
        readLoop dev file mtdType mem count topOfRange blocklen fuel (blockstart + blocklen) 0
          (min blocklen (count - buf.length)) buf (rc.2 + 1)

/-- `DEVOFFSET & ~(blocklen - 1)` and ENVSECTORS blocks from there. -/
def EnvDev.topOfRange (dev : EnvDev) : Nat :=
  dev.devoff / dev.erasesize * dev.erasesize + dev.envSectors * dev.erasesize

/-- `flash_read_buf`: the bytes read, or -1, and the operations made. -/
def flashReadBuf (fuel : Nat) (dev : EnvDev) (file : DevFile) (mtdType : MtdType) (mem : Mem)
    (ops count offset : Nat) : Option (Option (List UInt8) × Nat) :=
  let blockstart := offset / dev.erasesize * dev.erasesize
  let blockSeek := offset - blockstart
  match mtdType with
  | .nand =>
    let blocklen := dev.erasesize
    readLoop dev file .nand mem count dev.topOfRange blocklen fuel blockstart blockSeek
      (min count (blocklen - blockSeek)) [] ops
  | .nor => readLoop dev file .nor mem count (offset + count) 0 fuel blockstart blockSeek count [] ops

/-- The loop of `flash_write_buf`. The results of MEMUNLOCK and MEMLOCK are not looked at. -/
def writeLoop (dev : EnvDev) (file : DevFile) (mtdType : MtdType) (data : Mem)
    (topOfRange erasesize writeTotal : Nat) :
    Nat → (blockstart processed : Nat) → (mem : Mem) → (ops : Nat) → Option (Int × Mem × Nat)
  | 0, _, _, _, _ => none
  | fuel + 1, blockstart, processed, mem, ops =>
    if writeTotal ≤ processed then some (processed, mem, ops)
    else
      let rc := flashBadBlock dev file mtdType blockstart ops
      if rc.1 < 0 then some (rc.1, mem, rc.2)
      else if topOfRange < blockstart + erasesize then some (-1, mem, rc.2)
      else if rc.1 ≠ 0 then
        writeLoop dev file mtdType data topOfRange erasesize writeTotal fuel
          (blockstart + dev.erasesize) processed mem rc.2
      else if file.fails (rc.2 + 1) then some (-1, mem, rc.2 + 2)
      else
        let mem := eraseCells mem blockstart erasesize
        if file.fails (rc.2 + 2) then some (-1, mem, rc.2 + 3)
        else
          let mem := programCells mem blockstart (slice data processed erasesize)
          writeLoop dev file mtdType data topOfRange erasesize writeTotal fuel
            (blockstart + dev.erasesize) (processed + dev.erasesize) mem (rc.2 + 4)

/-- `flash_write_buf`: the result, the cells and the operations made. `behind` is what is in memory
at `data` where the call does not put anything. -/
def flashWriteBuf (fuel : Nat) (dev : EnvDev) (file : DevFile) (mtdType : MtdType) (mem : Mem)
    (ops : Nat) (buf : List UInt8) (behind : Mem) (offset : Nat) : Option (Int × Mem × Nat) :=
  let blocklen := dev.erasesize
  let count := buf.length
  let eraseOffset := offset / blocklen * blocklen
  let eraseLen := dev.topOfRange - eraseOffset
  let blockSeek := offset - eraseOffset
  let writeTotal := (blockSeek + count + blocklen - 1) / blocklen * blocklen
  let erasesize := match mtdType with
    | .nand => blocklen
    | .nor => eraseLen
  if count < writeTotal then
    (flashReadBuf fuel dev file mtdType mem ops writeTotal eraseOffset).bind fun r =>
      match r.1 with
      | none => some (-1, mem, r.2)
      | some old =>
        writeLoop dev file mtdType (blit (blit behind 0 old) blockSeek buf) dev.topOfRange erasesize
          writeTotal fuel eraseOffset 0 mem r.2
  else
    writeLoop dev file mtdType (blit behind 0 buf) dev.topOfRange erasesize writeTotal fuel eraseOffset
      0 mem ops

/-!
## Block by block over the good blocks of a NAND device

The good bytes from a block boundary on are numbered by their rank, and both loops
go along the numbers.
-/

open Rank

/-- The bytes the tool may use; on NOR no block is bad. -/
def usable (dev : EnvDev) (mtdType : MtdType) (bad : Nat → Bool) (a : Nat) : Bool :=
  match mtdType with
  | .nor => true
  | .nand => !bad (a / dev.erasesize)

def working (bad : Nat → Bool) : DevFile := ⟨bad, fun _ => false⟩

section

variable {dev : EnvDev} {file : DevFile} {mem : Mem} {o top : Nat}

variable {blocks bad : Nat → Bool}

lemma EnvDev.erasesize_pos (dev : EnvDev) : 0 < dev.erasesize := Nat.two_pow_pos _

lemma EnvDev.dvd_topOfRange (dev : EnvDev) : dev.erasesize ∣ dev.topOfRange :=
  Nat.dvd_add (Nat.dvd_mul_left _ _) (Nat.dvd_mul_left _ _)

lemma usable_block (aligned : dev.erasesize ∣ o) {i : Nat} (hi : i < dev.erasesize) :
    usable dev .nand blocks (o + i) = usable dev .nand blocks o := by
  obtain ⟨q, rfl⟩ := aligned
  simp only [usable]
  rw [Nat.mul_add_div dev.erasesize_pos, Nat.div_eq_of_lt hi, add_zero,
    Nat.mul_div_cancel_left _ dev.erasesize_pos]

lemma rank_block (aligned : dev.erasesize ∣ o) {v : Bool} (hv : usable dev .nand blocks o = v)
    {x : Nat} (hx : x ≤ dev.erasesize) :
    rank (usable dev .nand blocks) o (o + x) = if v then x else 0 :=
  rank_stretch (fun _ hi => (usable_block aligned hi).trans hv) hx

lemma rank_next (aligned : dev.erasesize ∣ o) (inside : o + dev.erasesize ≤ top) :
    rank (usable dev .nand bad) o top = (if usable dev .nand bad o then dev.erasesize else 0) +
      rank (usable dev .nand bad) (o + dev.erasesize) top := by
  rw [rank_add (Nat.le_add_right o dev.erasesize) inside,
    rank_block aligned rfl le_rfl]

lemma behind_bad_block (aligned : dev.erasesize ∣ o) (bad : usable dev .nand blocks o = false)
    {a : Nat} (ha : o ≤ a) (good : usable dev .nand blocks a = true) : o + dev.erasesize ≤ a := by
  refine Nat.le_of_not_lt fun hin => ?_
  have hsame : usable dev .nand blocks (o + (a - o)) = usable dev .nand blocks o :=
    usable_block aligned (by omega)
  rw [Nat.add_sub_cancel' ha, good, bad] at hsame
  cases hsame

lemma rank_behind_bad (aligned : dev.erasesize ∣ o) (bad : usable dev .nand blocks o = false)
    {a : Nat} (behind : o + dev.erasesize ≤ a) :
    rank (usable dev .nand blocks) o a = rank (usable dev .nand blocks) (o + dev.erasesize) a := by
  rw [rank_next aligned behind, bad, if_neg (by decide), zero_add]

lemma rank_behind_good (aligned : dev.erasesize ∣ o) (good : usable dev .nand blocks o = true)
    {a : Nat} (behind : o + dev.erasesize ≤ a) :
    rank (usable dev .nand blocks) o a =
      dev.erasesize + rank (usable dev .nand blocks) (o + dev.erasesize) a := by
  rw [rank_next aligned behind, good, if_pos rfl]

lemma lt_of_rank_pos (left : 0 < rank (usable dev .nand blocks) o top) : o < top := by
  have most := rank_le (usable dev .nand blocks) o top
  omega

lemma block_end_le (aligned : dev.erasesize ∣ o) (hend : dev.erasesize ∣ top) (h : o < top) :
    o + dev.erasesize ≤ top := by
  obtain ⟨q, rfl⟩ := aligned
  obtain ⟨t, rfl⟩ := hend
  have hq : q + 1 ≤ t := Nat.lt_of_mul_lt_mul_left h
  calc dev.erasesize * q + dev.erasesize = dev.erasesize * (q + 1) := (Nat.mul_succ _ _).symm
    _ ≤ dev.erasesize * t := Nat.mul_le_mul_left _ hq

lemma flashBadBlock_cases (dev : EnvDev) (file : DevFile) (blockstart ops : Nat) :
    (flashBadBlock dev file .nand blockstart ops).1 < 0 ∨
      (flashBadBlock dev file .nand blockstart ops).1 =
        if usable dev .nand file.bad blockstart then 0 else 1 := by
  by_cases hfails : file.fails ops = true
  · left
    simp [flashBadBlock, hfails]
  right
  cases hbad : file.bad (blockstart / dev.erasesize) with
  | true => simp [flashBadBlock, usable, hfails, hbad]
  | false => simp [flashBadBlock, usable, hfails, hbad]

lemma flashBadBlock_working (dev : EnvDev) (bad : Nat → Bool) (blockstart ops : Nat) :
    flashBadBlock dev (working bad) .nand blockstart ops =
      (if usable dev .nand bad blockstart then 0 else 1, ops + 1) := by
  cases hbad : bad (blockstart / dev.erasesize) with
  | true => simp [flashBadBlock, usable, working, hbad]
  | false => simp [flashBadBlock, usable, working, hbad]

variable {s count fuel ops ops' : Nat} {buf : List UInt8}

/-- What a run reads from number `s` of the good bytes behind `o` on. -/
structure Reads (dev : EnvDev) (bad : Nat → Bool) (mem : Mem) (o top s : Nat)
    (bytes : List UInt8) : Prop where
  room : bytes ≠ [] → s + bytes.length ≤ rank (usable dev .nand bad) o top
  cells : ∀ a, o ≤ a → a < top → usable dev .nand bad a = true →
    ∀ j (h : j < bytes.length), rank (usable dev .nand bad) o a = s + j → bytes[j] = mem a

lemma reads_nothing (dev : EnvDev) (bad : Nat → Bool) (mem : Mem) (o top s : Nat) :
    Reads dev bad mem o top s [] :=
  ⟨fun h => absurd rfl h, fun _ _ _ _ j h => absurd h (Nat.not_lt_zero j)⟩

lemma Reads.skip {bytes : List UInt8} (aligned : dev.erasesize ∣ o)
    (bad : usable dev .nand file.bad o = false) (inside : o + dev.erasesize ≤ top)
    (h : Reads dev file.bad mem (o + dev.erasesize) top s bytes) :
    Reads dev file.bad mem o top s bytes := by
  refine ⟨fun hne => ?_, fun a ha hlt hgood j hj hrank => ?_⟩
  · rw [rank_behind_bad aligned bad inside]
    exact h.room hne
  · have hnext := behind_bad_block aligned bad ha hgood
    exact h.cells a hnext hlt hgood j hj ((rank_behind_bad aligned bad hnext).symm.trans hrank)

lemma Reads.block {n : Nat} {bytes : List UInt8} (aligned : dev.erasesize ∣ o)
    (good : usable dev .nand file.bad o = true) (inside : o + dev.erasesize ≤ top)
    (hn : s + n ≤ dev.erasesize) (full : bytes ≠ [] → s + n = dev.erasesize)
    (h : Reads dev file.bad mem (o + dev.erasesize) top 0 bytes) :
    Reads dev file.bad mem o top s (slice mem (o + s) n ++ bytes) := by
  have hblock : ∀ x, x ≤ dev.erasesize →
      rank (usable dev .nand file.bad) o (o + x) = x := fun x hx => rank_block aligned good hx
  refine ⟨fun _ => ?_, fun a ha hlt hgood j hj hrank => ?_⟩
  · rw [List.length_append, slice_length, rank_behind_good aligned good inside]
    by_cases hmore : bytes = []
    · rw [hmore, List.length_nil]
      omega
    · have hroom := h.room hmore
      omega
  · rw [List.length_append, slice_length] at hj
    by_cases hhere : a < o + dev.erasesize
    · have hplace := hblock (a - o) (by omega)
      rw [Nat.add_sub_cancel' ha, hrank] at hplace
      by_cases hfirst : j < n
      · rw [List.getElem_append_left (by rwa [slice_length]), slice_get]
        congr 1
        omega
      have hmore : bytes ≠ [] := by
        rintro rfl
        rw [List.length_nil] at hj
        omega
      have hfull := full hmore
      omega
    · have hrest := rank_behind_good aligned good (not_lt.mp hhere)
      have hlast : n ≤ j := by omega
      have hmore : bytes ≠ [] := by
        rintro rfl
        rw [List.length_nil] at hj
        omega
      have hfull := full hmore
      rw [List.getElem_append_right (by rwa [slice_length])]
      refine h.cells a (not_lt.mp hhere) hlt hgood _ _ ?_
      rw [slice_length]
      omega

lemma readLoop_round {readlen : Nat} {out : List UInt8} (more : ¬ count ≤ buf.length)
    (h : readLoop dev file .nand mem count top dev.erasesize (fuel + 1) o s readlen buf ops =
      some (some out, ops')) :
    o + s + readlen ≤ top ∧
      ((usable dev .nand file.bad o = false ∧ ∃ ops,
          readLoop dev file .nand mem count top dev.erasesize fuel (o + dev.erasesize) s readlen buf
            ops = some (some out, ops')) ∨
        (usable dev .nand file.bad o = true ∧ ∃ ops,
          readLoop dev file .nand mem count top dev.erasesize fuel (o + dev.erasesize) 0
            (min dev.erasesize (count - (buf ++ slice mem (o + s) readlen).length))
            (buf ++ slice mem (o + s) readlen) ops = some (some out, ops'))) := by
  rw [readLoop, if_neg more] at h
  rcases flashBadBlock_cases dev file o ops with hneg | hrc
  · rw [if_pos hneg] at h
    cases h
  have hnonneg : ¬ (flashBadBlock dev file .nand o ops).1 < 0 := by
    rw [hrc]
    split_ifs
    · decide
    · decide
  rw [if_neg hnonneg] at h
  by_cases hrange : top < o + s + readlen
  · rw [if_pos hrange] at h
    cases h
  rw [if_neg hrange, hrc] at h
  refine ⟨not_lt.mp hrange, ?_⟩
  cases hgood : usable dev .nand file.bad o with
  | false =>
    rw [hgood, if_pos (by decide)] at h
    exact .inl ⟨rfl, _, h⟩
  | true =>
    rw [hgood, if_neg (by decide)] at h
    by_cases hfails : file.fails (flashBadBlock dev file .nand o ops).2 = true
    · rw [if_pos hfails] at h
      cases h
    · rw [if_neg hfails] at h
      exact .inr ⟨rfl, _, h⟩

lemma readLoop_reads (hend : dev.erasesize ∣ top) {out : List UInt8} (aligned : dev.erasesize ∣ o)
    (hs : s < dev.erasesize) (h : readLoop dev file .nand mem count top dev.erasesize fuel o s
      (min (dev.erasesize - s) (count - buf.length)) buf ops = some (some out, ops')) :
    ∃ bytes, out = buf ++ bytes ∧ bytes.length = count - buf.length ∧
      Reads dev file.bad mem o top s bytes := by
  induction fuel generalizing o s buf ops with
  | zero => exact nomatch h
  | succ fuel ih =>
    by_cases hdone : count ≤ buf.length
    · rw [readLoop, if_pos hdone] at h
      cases h
      refine ⟨[], (List.append_nil _).symm, ?_, reads_nothing dev file.bad mem o top s⟩
      rw [List.length_nil]
      omega
    have hnext : dev.erasesize ∣ o + dev.erasesize := Nat.dvd_add_self_right.mpr aligned
    obtain ⟨hrange, ⟨hbad, ops1, hrest⟩ | ⟨hgood, ops1, hrest⟩⟩ := readLoop_round hdone h
    · obtain ⟨bytes, hout, hlen, hreads⟩ := ih hnext hs hrest
      exact ⟨bytes, hout, hlen, hreads.skip aligned hbad (block_end_le aligned hend (by omega))⟩
    have hlength : (buf ++ slice mem (o + s) (min (dev.erasesize - s)
        (count - buf.length))).length = buf.length + min (dev.erasesize - s)
          (count - buf.length) := by rw [List.length_append, slice_length]
    obtain ⟨bytes, hout, hlen, hreads⟩ := ih hnext dev.erasesize_pos hrest
    rw [hlength] at hlen
    refine ⟨slice mem (o + s) (min (dev.erasesize - s) (count - buf.length)) ++ bytes, ?_, ?_,
      hreads.block aligned hgood (block_end_le aligned hend (by omega)) (by omega) fun hmore => ?_⟩
    · rw [hout, List.append_assoc]
    · rw [List.length_append, slice_length]
      omega
    · have hpos := List.length_pos_iff.mpr hmore
      omega

lemma readLoop_working {readlen : Nat} (ops : Nat) (more : ¬ count ≤ buf.length)
    (inside : o + s + readlen ≤ top) :
    readLoop dev (working bad) .nand mem count top dev.erasesize (fuel + 1) o s readlen buf ops =
      if usable dev .nand bad o then
        readLoop dev (working bad) .nand mem count top dev.erasesize fuel (o + dev.erasesize) 0
          (min dev.erasesize (count - (buf ++ slice mem (o + s) readlen).length))
          (buf ++ slice mem (o + s) readlen) (ops + 2)
      else readLoop dev (working bad) .nand mem count top dev.erasesize fuel (o + dev.erasesize) s
        readlen buf (ops + 1) := by
  rw [readLoop, if_neg more, flashBadBlock_working]
  dsimp only
  cases usable dev .nand bad o with
  | true =>
    rw [if_pos rfl, if_neg (by decide), if_neg (not_lt.mpr inside), if_neg (by decide),
      if_pos rfl]
    exact if_neg Bool.false_ne_true
  | false =>
    rw [if_neg (by decide), if_neg (not_lt.mpr inside), if_pos (by decide), if_neg (by decide)]

lemma readLoop_returns (hend : dev.erasesize ∣ top) (fuel s : Nat) (buf : List UInt8) (ops : Nat)
    (aligned : dev.erasesize ∣ o) (hs : s < dev.erasesize) (room : ¬ count ≤ buf.length →
      s + (count - buf.length) ≤ rank (usable dev .nand bad) o top) (inside : o ≤ top)
    (enough : top < fuel + o) :
    ∃ out ops', readLoop dev (working bad) .nand mem count top dev.erasesize fuel o s
      (min (dev.erasesize - s) (count - buf.length)) buf ops = some (some out, ops') := by
  induction fuel generalizing o s buf ops with
  | zero => omega
  | succ fuel ih =>
    by_cases hdone : count ≤ buf.length
    · exact ⟨buf, ops, by rw [readLoop, if_pos hdone]⟩
    have hroom := room hdone
    have hin : o < top := lt_of_rank_pos (show 0 < rank (usable dev .nand bad) o top by omega)
    have hpos := dev.erasesize_pos
    have hblock := block_end_le aligned hend hin
    have hnext : dev.erasesize ∣ o + dev.erasesize := Nat.dvd_add_self_right.mpr aligned
    rw [rank_next aligned hblock] at hroom
    rw [readLoop_working ops hdone (by omega)]
    cases hgood : usable dev .nand bad o with
    | false =>
      rw [hgood, if_neg (by decide), zero_add] at hroom
      rw [if_neg (by decide)]
      exact ih s buf _ hnext hs (fun _ => hroom) hblock (by omega)
    | true =>
      have hlength : (buf ++ slice mem (o + s) (min (dev.erasesize - s)
          (count - buf.length))).length = buf.length + min (dev.erasesize - s)
            (count - buf.length) := by rw [List.length_append, slice_length]
      rw [hgood, if_pos rfl] at hroom
      rw [if_pos rfl]
      refine ih 0 _ _ hnext hpos (fun hmore => ?_) hblock (by omega)
      rw [hlength] at hmore ⊢
      omega

variable {out data : Mem} {writeTotal : Nat}

lemma rewritten (data : Mem) (p n a : Nat) :
    programCells (eraseCells mem o n) o (slice data p n) a =
      if o ≤ a ∧ a < o + n then data (p + (a - o)) else mem a := by
  have hall : ∀ x : UInt8, 0xff &&& x = x := fun x => by
    rw [UInt8.and_comm]
    exact UInt8.and_neg_one
  rw [programCells, slice_length]
  by_cases hin : o ≤ a ∧ a < o + n
  · have hlt : a - o < (slice data p n).length := by
      rw [slice_length]
      omega
    rw [if_pos hin, if_pos hin, eraseCells, if_pos hin, List.getD_eq_getElem?_getD,
      List.getElem?_eq_getElem hlt, Option.getD_some, slice_get, hall]
  · rw [if_neg hin, if_neg hin, eraseCells, if_neg hin]

/-- The `left` bytes of `data` from `p` on are in the good blocks behind `o`, and nothing else is
changed. -/
structure Puts (dev : EnvDev) (bad : Nat → Bool) (data mem : Mem) (o top p left : Nat)
    (out : Mem) : Prop where
  room : 0 < left → left ≤ rank (usable dev .nand bad) o top
  cells : ∀ a, out a =
    if o ≤ a ∧ a < top ∧ usable dev .nand bad a = true ∧ rank (usable dev .nand bad) o a < left then
      data (p + rank (usable dev .nand bad) o a) else mem a

lemma puts_nothing (dev : EnvDev) (bad : Nat → Bool) (data mem : Mem) (o top p : Nat) :
    Puts dev bad data mem o top p 0 mem :=
  ⟨fun h => absurd h (lt_irrefl 0), fun _ => (if_neg (by omega)).symm⟩

lemma Puts.skip {p left : Nat} (aligned : dev.erasesize ∣ o)
    (bad : usable dev .nand file.bad o = false) (inside : o + dev.erasesize ≤ top)
    (h : Puts dev file.bad data mem (o + dev.erasesize) top p left out) :
    Puts dev file.bad data mem o top p left out := by
  refine ⟨fun hleft => ?_, fun a => ?_⟩
  · rw [rank_behind_bad aligned bad inside]
    exact h.room hleft
  · rw [h.cells]
    by_cases hnext : o + dev.erasesize ≤ a
    · have hiff : o + dev.erasesize ≤ a ↔ o ≤ a := by omega
      rw [rank_behind_bad aligned bad hnext]
      simp only [hiff]
    · rw [if_neg fun hin => hnext hin.1, if_neg]
      rintro ⟨ha, -, hgood, -⟩
      exact hnext (behind_bad_block aligned bad ha hgood)

lemma Puts.block {p left : Nat} (aligned : dev.erasesize ∣ o)
    (good : usable dev .nand file.bad o = true) (inside : o + dev.erasesize ≤ top)
    (full : dev.erasesize ≤ left) (h : Puts dev file.bad data
      (programCells (eraseCells mem o dev.erasesize) o (slice data p dev.erasesize))
      (o + dev.erasesize) top (p + dev.erasesize) (left - dev.erasesize) out) :
    Puts dev file.bad data mem o top p left out := by
  have hblock : ∀ x, x ≤ dev.erasesize →
      rank (usable dev .nand file.bad) o (o + x) = x := fun x hx => rank_block aligned good hx
  refine ⟨fun _ => ?_, fun a => ?_⟩
  · rw [rank_behind_good aligned good inside]
    have hroom := h.room
    omega
  · rw [h.cells, rewritten]
    by_cases hnext : o + dev.erasesize ≤ a
    · have hout : ¬ (o ≤ a ∧ a < o + dev.erasesize) := by omega
      have hiff : (o + dev.erasesize ≤ a ∧ a < top ∧ usable dev .nand file.bad a = true ∧
            rank (usable dev .nand file.bad) (o + dev.erasesize) a < left - dev.erasesize) ↔
          (o ≤ a ∧ a < top ∧ usable dev .nand file.bad a = true ∧
            dev.erasesize + rank (usable dev .nand file.bad) (o + dev.erasesize) a < left) := by
        constructor
        · rintro ⟨-, htop, hgood, hlt⟩
          exact ⟨by omega, htop, hgood, by omega⟩
        · rintro ⟨-, htop, hgood, hlt⟩
          exact ⟨hnext, htop, hgood, by omega⟩
      rw [rank_behind_good aligned good hnext, if_neg hout, ← add_assoc]
      simp only [hiff]
    · rw [if_neg fun hin => hnext hin.1]
      by_cases ha : o ≤ a
      · have hgood : usable dev .nand file.bad (o + (a - o)) = usable dev .nand file.bad o :=
          usable_block aligned (by omega)
        have hrank := hblock (a - o) (by omega)
        rw [Nat.add_sub_cancel' ha] at hgood hrank
        rw [if_pos ⟨ha, not_le.mp hnext⟩, hrank,
          if_pos ⟨ha, by omega, hgood.trans good, by omega⟩]
      · rw [if_neg fun hin => ha hin.1, if_neg fun hin => ha hin.1]

lemma writeLoop_round {p : Nat} {rval : Int} (more : ¬ writeTotal ≤ p) (success : 0 ≤ rval)
    (h : writeLoop dev file .nand data top dev.erasesize writeTotal (fuel + 1) o p mem ops =
      some (rval, out, ops')) :
    o + dev.erasesize ≤ top ∧
      ((usable dev .nand file.bad o = false ∧ ∃ ops,
          writeLoop dev file .nand data top dev.erasesize writeTotal fuel (o + dev.erasesize) p mem
            ops = some (rval, out, ops')) ∨
        (usable dev .nand file.bad o = true ∧ ∃ ops,
          writeLoop dev file .nand data top dev.erasesize writeTotal fuel (o + dev.erasesize)
            (p + dev.erasesize)
            (programCells (eraseCells mem o dev.erasesize) o (slice data p dev.erasesize)) ops =
              some (rval, out, ops'))) := by
  rw [writeLoop, if_neg more] at h
  rcases flashBadBlock_cases dev file o ops with hneg | hrc
  · rw [if_pos hneg] at h
    cases h
    exact absurd hneg (Int.not_lt.mpr success)
  have hnonneg : ¬ (flashBadBlock dev file .nand o ops).1 < 0 := by
    rw [hrc]
    split_ifs
    · decide
    · decide
  rw [if_neg hnonneg] at h
  by_cases hrange : top < o + dev.erasesize
  · rw [if_pos hrange] at h
    cases h
    exact absurd success (by decide)
  rw [if_neg hrange, hrc] at h
  refine ⟨not_lt.mp hrange, ?_⟩
  cases hgood : usable dev .nand file.bad o with
  | false =>
    rw [hgood, if_pos (by decide)] at h
    exact .inl ⟨rfl, _, h⟩
  | true =>
    rw [hgood, if_neg (by decide)] at h
    split_ifs at h
    · cases h
      exact absurd success (by decide)
    · cases h
      exact absurd success (by decide)
    · exact .inr ⟨rfl, _, h⟩

lemma writeLoop_puts {p : Nat} {rval : Int} (aligned : dev.erasesize ∣ o) (hp : dev.erasesize ∣ p)
    (whole : dev.erasesize ∣ writeTotal) (success : 0 ≤ rval)
    (h : writeLoop dev file .nand data top dev.erasesize writeTotal fuel o p mem ops =
      some (rval, out, ops')) :
    Puts dev file.bad data mem o top p (writeTotal - p) out := by
  induction fuel generalizing o p mem ops with
  | zero => exact nomatch h
  | succ fuel ih =>
    by_cases hdone : writeTotal ≤ p
    · rw [writeLoop, if_pos hdone] at h
      cases h
      rw [Nat.sub_eq_zero_of_le hdone]
      exact puts_nothing dev file.bad data _ o top p
    have hnext : dev.erasesize ∣ o + dev.erasesize := Nat.dvd_add_self_right.mpr aligned
    have hstep : dev.erasesize ∣ p + dev.erasesize := Nat.dvd_add_self_right.mpr hp
    have hfull := block_end_le hp whole (not_le.mp hdone)
    obtain ⟨hinside, ⟨hbad, ops1, hrest⟩ | ⟨hgood, ops1, hrest⟩⟩ := writeLoop_round hdone success h
    · exact (ih hnext hp hrest).skip aligned hbad hinside
    · have hputs := ih hnext hstep hrest
      rw [Nat.sub_add_eq] at hputs
      exact hputs.block aligned hgood hinside (by omega)

lemma writeLoop_returns (hend : dev.erasesize ∣ top) (data : Mem) (fuel p : Nat) (mem : Mem)
    (ops : Nat) (aligned : dev.erasesize ∣ o) (hp : dev.erasesize ∣ p)
    (room : writeTotal - p ≤ rank (usable dev .nand bad) o top) (inside : o ≤ top)
    (enough : top < fuel + o) :
    ∃ rval out ops', writeLoop dev (working bad) .nand data top dev.erasesize writeTotal fuel o p mem
      ops = some (rval, out, ops') ∧ 0 ≤ rval := by
  induction fuel generalizing o p mem ops with
  | zero => omega
  | succ fuel ih =>
    rw [writeLoop]
    by_cases hdone : writeTotal ≤ p
    · exact ⟨p, mem, ops, if_pos hdone, Int.natCast_nonneg p⟩
    have hin : o < top := lt_of_rank_pos (show 0 < rank (usable dev .nand bad) o top by omega)
    have hpos := dev.erasesize_pos
    have hblock := block_end_le aligned hend hin
    have hnext : dev.erasesize ∣ o + dev.erasesize := Nat.dvd_add_self_right.mpr aligned
    rw [rank_next aligned hblock] at room
    rw [if_neg hdone, flashBadBlock_working]
    dsimp only
    cases hgood : usable dev .nand bad o with
    | false =>
      rw [hgood, if_neg (by decide), zero_add] at room
      rw [if_neg (by decide), if_neg (not_lt.mpr hblock), if_pos (by decide)]
      exact ih p mem _ hnext hp room hblock (by omega)
    | true =>
      rw [hgood, if_pos rfl] at room
      rw [if_pos rfl, if_neg (by decide), if_neg (not_lt.mpr hblock), if_neg (by decide),
        if_neg (by exact Bool.false_ne_true), if_neg (by exact Bool.false_ne_true)]
      exact ih (p + dev.erasesize) _ _ hnext (Nat.dvd_add_self_right.mpr hp) (by omega) hblock
        (by omega)

end

end FwFlash
