import UBoot.Lib.Memory32

/-!
# Reading blocks of an SD card (drivers/mmc/s3c2440_mmc.c)

`mmc_bread`, `mmc_read` and `mmc_block_read`. Whether a block read fails, and after how many
words, is given for the first read, the second read and so on.
-/

namespace Mmc

open Memory32

def blockSize : UInt32 := 512

def mmcBase : UInt32 := 0xff000000

structure Card where
  sdhc : Bool                    -- `mmc_dev.if_type == IF_TYPE_SDHC`
  block : Nat → Nat → UInt8      -- byte of a block
  ready : Bool                   -- `mmc_ready`
  fails : Nat → Option Nat       -- `some w`: an error status after `w` words

structure State where
  mem : Mem
  mmcBuf : Nat → UInt8
  reads : Nat

def Card.argument (card : Card) (src : UInt32) : UInt32 := if card.sdhc then src >>> 9 else src

/-- The block a card sends: SDHC cards count blocks, the others bytes. -/
def Card.addressed (card : Card) (argument : UInt32) : Nat :=
  if card.sdhc then argument.toNat else argument.toNat / 512

def wordsRead (fails : Option Nat) (len : UInt32) : Nat :=
  let words := (len.toNat + 3) / 4
  match fails with
  | none => words
  | some w => min w (words - 1)

/-- `mmc_block_read` to memory. Words are stored there; for a `dst` that is not aligned this takes the
stores to go where the bytes would. -/
def mmcBlockRead (card : Card) (s : State) (dst src len : UInt32) : Bool × State :=
  if len = 0 then (true, s)
  else
    let fails := card.fails s.reads
    let bytes := card.block (card.addressed (card.argument src))
    (fails.isNone, { s with
      mem := copyBytes bytes (4 * wordsRead fails len) 0 dst s.mem, reads := s.reads + 1 })

def mmcBlockReadBuf (card : Card) (s : State) (src len : UInt32) : Bool × State :=
  if len = 0 then (true, s)
  else
    let fails := card.fails s.reads
    let bytes := card.block (card.addressed (card.argument src))
    (fails.isNone, { s with
      mmcBuf := fun i => if i < 4 * wordsRead fails len then bytes i else s.mmcBuf i
      reads := s.reads + 1 })

def alignedLoop (card : Card) (aligned_end : UInt32) :
    Nat → (src dst : UInt32) → State → Option (Bool × UInt32 × UInt32 × State)
  | 0, _, _, _ => none
  | fuel + 1, src, dst, s =>
    if src < aligned_end then
      let (ok, s) := mmcBlockRead card s dst src blockSize
      if ok then alignedLoop card aligned_end fuel (src + blockSize) (dst + blockSize) s
      else some (false, src, dst, s)
    else some (true, src, dst, s)

def mmcBlockAddress : UInt32 := ~~~(blockSize - 1)

/-- The start of `mmc_read`: a first block of which the end is wanted. -/
def readStart (card : Card) (src dst : UInt32) (s : State) : Bool × UInt32 × UInt32 × State :=
  let part_start := ~~~mmcBlockAddress &&& src
  if part_start = 0 then (true, src, dst, s)
  else
    let part_len := blockSize - part_start
    let (ok, s) := mmcBlockReadBuf card s (mmcBlockAddress &&& src) blockSize
    if ok then (true, src + part_len, dst + part_len,
      { s with mem := copyBytes s.mmcBuf part_len.toNat part_start.toNat dst s.mem })
    else (false, src, dst, s)

/-- The end of `mmc_read`: a last block of which the start is wanted. -/
def readEnd (card : Card) (stop src dst : UInt32) (s : State) : Bool × State :=
  let part_end := ~~~mmcBlockAddress &&& stop
  if part_end ≠ 0 ∧ src < stop then
    let (ok, s) := mmcBlockReadBuf card s (mmcBlockAddress &&& stop) blockSize
    if ok then (true, { s with mem := copyBytes s.mmcBuf part_end.toNat 0 dst s.mem })
    else (false, s)
  else (true, s)

def mmcRead (fuel : Nat) (card : Card) (s : State) (src dst size : UInt32) :
    Option (Int × State) :=
  if size = 0 then some (0, s)
  else if card.ready = false then some (-1, s)
  else
    let src := src - mmcBase
    let stop := src + size
    let (ok, src, dst, s) := readStart card src dst s
    if ok then
      (alignedLoop card (mmcBlockAddress &&& stop) fuel src dst s).map fun (ok, src, dst, s) =>
        if ok then
          let (ok, s) := readEnd card stop src dst s
          (if ok then 0 else -1, s)
        else (-1, s)
    else some (-1, s)

/-- `mmc_bread`: the result of `mmc_read` is not looked at. -/
def mmcBread (fuel : Nat) (card : Card) (s : State) (blknr blkcnt dst : UInt32) :
    Option (UInt32 × State) :=
  let src := blknr * blockSize + mmcBase
  (mmcRead fuel card s src dst (blkcnt * blockSize)).map fun (_, s) => (blkcnt, s)

/-!
## The count `mmc_bread` returns

`mmc_bread` asks `mmc_read` for whole blocks and returns the number it was asked for.
-/

variable {src dst : UInt32} {fuel : Nat} {card : Card} {s : State}

lemma and_not_self {x m : UInt32} (h : m &&& x = 0) : ~~~m &&& x = x := by
  have bits : ~~~m &&& x = (m &&& x) ^^^ x := by
    apply UInt32.toBitVec_inj.mp
    apply BitVec.eq_of_getLsbD_eq
    intro i hi
    simp only [UInt32.toBitVec_and, UInt32.toBitVec_not, UInt32.toBitVec_xor,
      BitVec.getLsbD_and, BitVec.getLsbD_not, BitVec.getLsbD_xor, hi, decide_true, Bool.true_and]
    cases m.toBitVec.getLsbD i <;> simp
  rw [bits, h, UInt32.zero_xor]

lemma low_bits {x : UInt32} (h : x.toNat % 512 = 0) : (511 : UInt32) &&& x = 0 := by
  apply UInt32.toNat_inj.mp
  rw [UInt32.toNat_and, Nat.and_comm]
  exact (Nat.and_two_pow_sub_one_eq_mod x.toNat 9).trans h

lemma toNat_blocks (b : UInt32) : (b * blockSize).toNat = 512 * (b.toNat % 8388608) := by
  have size : blockSize.toNat = 512 := rfl
  rw [UInt32.toNat_mul, size]
  omega

lemma addressed_lt (card : Card) (src : UInt32) :
    card.addressed (card.argument src) = src.toNat / 512 := by
  simp only [Card.addressed, Card.argument]
  split
  · rw [UInt32.toNat_shiftRight]
    exact Nat.shiftRight_eq_div_pow _ _
  · rfl

lemma block_mask : ~~~mmcBlockAddress = 511 := by decide

lemma readStart_aligned (card : Card) (dst : UInt32) (s : State) (aligned : src.toNat % 512 = 0) :
    readStart card src dst s = (true, src, dst, s) := by
  have start : ~~~mmcBlockAddress &&& src = 0 := by rw [block_mask, low_bits aligned]
  rw [readStart]
  exact if_pos start

lemma readEnd_aligned (card : Card) {stop : UInt32} (src dst : UInt32) (s : State)
    (aligned : stop.toNat % 512 = 0) : readEnd card stop src dst s = (true, s) := by
  have rest : ~~~mmcBlockAddress &&& stop = 0 := by rw [block_mask, low_bits aligned]
  rw [readEnd]
  exact if_neg (fun h => h.1 rest)

lemma aligned_end {stop : UInt32} (aligned : stop.toNat % 512 = 0) :
    mmcBlockAddress &&& stop = stop := by
  have mask : mmcBlockAddress = ~~~511 := by decide
  rw [mask, and_not_self (low_bits aligned)]

lemma mmcRead_eq {size : UInt32} (some_bytes : size ≠ 0) (ready : ¬ card.ready = false)
    (starts : (src - mmcBase).toNat % 512 = 0) (stops : (src - mmcBase + size).toNat % 512 = 0) :
    mmcRead fuel card s src dst size =
      (alignedLoop card (src - mmcBase + size) fuel (src - mmcBase) dst s).map
        (fun r => (if r.1 then 0 else -1, r.2.2.2)) := by
  rw [mmcRead, if_neg some_bytes, if_neg ready]
  simp only [readStart_aligned card dst s starts, aligned_end stops, if_true]
  congr 1
  funext r
  obtain ⟨ok, src, dst, s⟩ := r
  cases ok
  · rfl
  · simp only [readEnd_aligned card _ _ _ stops, if_true]

lemma mmcBread_eq {blknr blkcnt : UInt32} (some_bytes : blkcnt * blockSize ≠ 0)
    (ready : card.ready = true) :
    mmcBread fuel card s blknr blkcnt dst =
      (alignedLoop card (blknr * blockSize + blkcnt * blockSize) fuel (blknr * blockSize) dst
        s).map (fun r => (blkcnt, r.2.2.2)) := by
  have from_base : blknr * blockSize + mmcBase - mmcBase = blknr * blockSize :=
    UInt32.add_sub_cancel _ _
  have starts : (blknr * blockSize + mmcBase - mmcBase).toNat % 512 = 0 := by
    rw [from_base, toNat_blocks]
    omega
  have stops : (blknr * blockSize + mmcBase - mmcBase + blkcnt * blockSize).toNat % 512 = 0 := by
    rw [from_base, UInt32.toNat_add, toNat_blocks, toNat_blocks]
    omega
  have other : ¬ card.ready = false := by simp [ready]
  rw [mmcBread, mmcRead_eq some_bytes other starts stops, from_base, Option.map_map]
  rfl

variable {r : Bool × UInt32 × UInt32 × State}

lemma wordsRead_le (fails : Option Nat) : 4 * wordsRead fails blockSize ≤ 512 := by
  have words : (blockSize.toNat + 3) / 4 = 128 := rfl
  cases fails with
  | none => simp [wordsRead, words]
  | some w =>
    simp only [wordsRead, words]
    omega

lemma mmcBlockRead_mem (card : Card) (s : State) (dst src a : UInt32) :
    (mmcBlockRead card s dst src blockSize).2.mem a =
      if (a - dst).toNat < 4 * wordsRead (card.fails s.reads) blockSize then
        card.block (src.toNat / 512) (a - dst).toNat
      else s.mem a := by
  have size : ¬ blockSize = 0 := by decide
  have short := wordsRead_le (card.fails s.reads)
  simp only [mmcBlockRead, if_neg size]
  rw [copyBytes_eq _ _ _ _ _ (by omega), addressed_lt, zero_add]

lemma mmcBlockRead_ok (card : Card) (s : State) (dst src : UInt32) :
    (mmcBlockRead card s dst src blockSize).1 = (card.fails s.reads).isNone := rfl

lemma mmcBlockRead_reads (card : Card) (s : State) (dst src : UInt32) :
    (mmcBlockRead card s dst src blockSize).2.reads = s.reads + 1 := rfl

lemma loop_stores {aligned_end : UInt32} (h : alignedLoop card aligned_end fuel src dst s = some r)
    (a : UInt32) :
    r.2.2.2.mem a = s.mem a ∨ ∃ b off, b < 8388608 ∧ r.2.2.2.mem a = card.block b off := by
  induction fuel generalizing src dst s with
  | zero => exact absurd h (by simp [alignedLoop])
  | succ fuel ih =>
    have one : (mmcBlockRead card s dst src blockSize).2.mem a = s.mem a ∨ ∃ b off, b < 8388608 ∧
        (mmcBlockRead card s dst src blockSize).2.mem a = card.block b off := by
      rw [mmcBlockRead_mem]
      split
      · refine .inr ⟨src.toNat / 512, _, ?_, rfl⟩
        have := src.toNat_lt
        omega
      · exact .inl rfl
    rw [alignedLoop] at h
    split at h
    · cases ok : (mmcBlockRead card s dst src blockSize).1 with
      | false =>
        simp only [ok, Bool.false_eq_true, if_false, Option.some.injEq] at h
        rw [← h]
        exact one
      | true =>
        simp only [ok, if_true] at h
        rcases ih h with same | stored
        · rw [same]
          exact one
        · exact .inr stored
    · rw [← Option.some.inj h]
      exact .inl rfl

lemma loop_empty {aligned_end : UInt32} (ended : ¬ src < aligned_end)
    (h : alignedLoop card aligned_end fuel src dst s = some r) : r.2.2.2 = s := by
  cases fuel with
  | zero => exact absurd h (by simp [alignedLoop])
  | succ fuel =>
    rw [alignedLoop, if_neg ended] at h
    rw [← Option.some.inj h]

lemma loop_good {aligned_end : UInt32} {n : Nat}
    (stop : aligned_end.toNat = src.toNat + 512 * (n + 1))
    (fine : ∀ j < n + 1, card.fails (s.reads + j) = none) (dst : UInt32) :
    let s' := (mmcBlockRead card s dst src blockSize).2
    (src + blockSize).toNat = src.toNat + 512 ∧ (∀ j < n, card.fails (s'.reads + j) = none) ∧
      ∀ fuel, alignedLoop card aligned_end (fuel + 1) src dst s =
        alignedLoop card aligned_end fuel (src + blockSize) (dst + blockSize) s' := by
  have bound := aligned_end.toNat_lt
  have size : blockSize.toNat = 512 := rfl
  have goes_on : src < aligned_end := by
    rw [UInt32.lt_iff_toNat_lt]
    omega
  have good : card.fails s.reads = none := fine 0 (Nat.succ_pos n)
  have ok : (mmcBlockRead card s dst src blockSize).1 = true := by
    rw [mmcBlockRead_ok, good]
    rfl
  refine ⟨?_, fun j j_lt => ?_, fun fuel => ?_⟩
  · rw [UInt32.toNat_add, size]
    omega
  · rw [mmcBlockRead_reads, add_assoc, add_comm 1 j]
    exact fine (j + 1) (Nat.succ_lt_succ j_lt)
  · rw [alignedLoop, if_pos goes_on]
    simp only [ok, if_true]

lemma loop_reads (card : Card) (aligned_end : UInt32) (n : Nat) (src dst : UInt32) (s : State)
    (stop : aligned_end.toNat = src.toNat + 512 * n)
    (fine : ∀ j < n, card.fails (s.reads + j) = none) :
    ∃ r, alignedLoop card aligned_end (n + 1) src dst s = some r ∧ ∀ a,
      r.2.2.2.mem a = if (a - dst).toNat < 512 * n then
        card.block (src.toNat / 512 + (a - dst).toNat / 512) ((a - dst).toNat % 512)
      else s.mem a := by
  induction n generalizing src dst s with
  | zero =>
    have ended : ¬ src < aligned_end := by
      rw [UInt32.lt_iff_toNat_lt]
      omega
    exact ⟨_, by rw [alignedLoop, if_neg ended], fun a => by simp⟩
  | succ n ih =>
    obtain ⟨step, rest, goes_on⟩ := loop_good stop fine dst
    have bound := aligned_end.toNat_lt
    have size : blockSize.toNat = 512 := rfl
    have good : card.fails s.reads = none := fine 0 (Nat.succ_pos n)
    obtain ⟨r, run, content⟩ := ih (src + blockSize) (dst + blockSize)
      (mmcBlockRead card s dst src blockSize).2 (by rw [step]; omega) rest
    refine ⟨r, (goes_on (n + 1)).trans run, fun a => ?_⟩
    have whole : 4 * wordsRead (card.fails s.reads) blockSize = 512 := by
      rw [good]
      rfl
    have moved := toNat_sub_add a dst blockSize
    rw [content, mmcBlockRead_mem, whole, step, moved, size]
    rcases Nat.lt_or_ge (a - dst).toNat 512 with first | later
    · rw [if_neg (Nat.not_le.mpr first), if_neg (by omega), if_pos first, if_pos (by omega),
        Nat.div_eq_of_lt first, Nat.mod_eq_of_lt first, add_zero]
    have row : (src.toNat + 512) / 512 + ((a - dst).toNat - 512) / 512 =
        src.toNat / 512 + (a - dst).toNat / 512 := by omega
    have col : ((a - dst).toNat - 512) % 512 = (a - dst).toNat % 512 := by omega
    rw [if_pos later, row, col, if_neg (Nat.not_lt.mpr later)]
    by_cases inside : (a - dst).toNat - 512 < 512 * n
    · rw [if_pos inside, if_pos (by omega)]
    · rw [if_neg inside, if_neg (by omega)]

lemma loop_stops {aligned_end : UInt32} (n : Nat) (stop : aligned_end.toNat = src.toNat + 512 * n)
    (fine : ∀ j < n, card.fails (s.reads + j) = none)
    (h : alignedLoop card aligned_end fuel src dst s = some r) :
    r.1 = true ∧ r.2.1 = aligned_end ∧ r.2.2.1 = dst + UInt32.ofNat (512 * n) := by
  induction n generalizing fuel src dst s with
  | zero =>
    have ended : ¬ src < aligned_end := by
      rw [UInt32.lt_iff_toNat_lt]
      omega
    cases fuel with
    | zero => exact absurd h (by simp [alignedLoop])
    | succ fuel =>
      rw [alignedLoop, if_neg ended] at h
      rw [← Option.some.inj h]
      exact ⟨rfl, UInt32.toNat_inj.mp stop.symm, (UInt32.add_zero dst).symm⟩
  | succ n ih =>
    obtain ⟨step, rest, goes_on⟩ := loop_good stop fine dst
    cases fuel with
    | zero => exact absurd h (by simp [alignedLoop])
    | succ fuel =>
      rw [goes_on fuel] at h
      obtain ⟨went, stopped, moved⟩ := ih (by rw [step]; omega) rest h
      refine ⟨went, stopped, ?_⟩
      have further : 512 * (n + 1) = 512 + 512 * n := by omega
      rw [moved, further, UInt32.ofNat_add, ← UInt32.add_assoc]
      rfl

lemma loop_fails {aligned_end : UInt32} (j : Nat) (inside : src.toNat + 512 * j < aligned_end.toNat)
    (bad : card.fails (s.reads + j) ≠ none)
    (h : alignedLoop card aligned_end fuel src dst s = some r) {a : UInt32}
    (last : (a - dst).toNat = 512 * j + 511) : r.2.2.2.mem a = s.mem a := by
  have size : blockSize.toNat = 512 := rfl
  have goes_on : src < aligned_end := by
    rw [UInt32.lt_iff_toNat_lt]
    omega
  have bound := aligned_end.toNat_lt
  induction j generalizing fuel src dst s with
  | zero =>
    rw [add_zero] at bad
    obtain ⟨w, fails⟩ := Option.ne_none_iff_exists'.mp bad
    cases fuel with
    | zero => exact absurd h (by simp [alignedLoop])
    | succ fuel =>
      have ok : (mmcBlockRead card s dst src blockSize).1 = false := by
        rw [mmcBlockRead_ok, fails]
        rfl
      rw [alignedLoop, if_pos goes_on] at h
      simp only [ok, Bool.false_eq_true, if_false, Option.some.injEq] at h
      have few : 4 * wordsRead (card.fails s.reads) blockSize ≤ 508 := by
        have words : (blockSize.toNat + 3) / 4 = 128 := rfl
        rw [fails]
        simp only [wordsRead, words]
        omega
      rw [← h, mmcBlockRead_mem, if_neg (by omega)]
  | succ j ih =>
    cases fuel with
    | zero => exact absurd h (by simp [alignedLoop])
    | succ fuel =>
      have kept : (mmcBlockRead card s dst src blockSize).2.mem a = s.mem a := by
        have := wordsRead_le (card.fails s.reads)
        rw [mmcBlockRead_mem, if_neg (by omega)]
      rw [alignedLoop, if_pos goes_on] at h
      cases ok : (mmcBlockRead card s dst src blockSize).1 with
      | false =>
        simp only [ok, Bool.false_eq_true, if_false, Option.some.injEq] at h
        rw [← h]
        exact kept
      | true =>
        simp only [ok, if_true] at h
        have step : (src + blockSize).toNat = src.toNat + 512 := by
          rw [UInt32.toNat_add, size]
          omega
        have next : (a - (dst + blockSize)).toNat = 512 * j + 511 := by
          rw [toNat_sub_add, size, if_pos (by omega)]
          omega
        have inside' : (src + blockSize).toNat + 512 * j < aligned_end.toNat := by omega
        have reads : s.reads + 1 + j = s.reads + (j + 1) := by omega
        have bad' : card.fails ((mmcBlockRead card s dst src blockSize).2.reads + j) ≠ none := by
          rw [mmcBlockRead_reads, reads]
          exact bad
        have goes_on' : src + blockSize < aligned_end := by
          rw [UInt32.lt_iff_toNat_lt]
          omega
        exact (ih inside' bad' h next goes_on').trans kept

/-- For every content of the card and of memory: the count that is returned is that of the
blocks that have been read. -/
def CountsRead (sdhc ready : Bool) (fails : Nat → Option Nat) (reads : Nat)
    (blknr blkcnt : UInt32) : Prop :=
  ∀ (block : Nat → Nat → UInt8) (mem : Mem) (mmcBuf : Nat → UInt8) (dst : UInt32),
    ∃ fuel n s', mmcBread fuel ⟨sdhc, block, ready, fails⟩ ⟨mem, mmcBuf, reads⟩ blknr blkcnt dst =
      some (n, s') ∧ ∀ k < n.toNat, ∀ off < 512,
        s'.mem (dst + UInt32.ofNat (512 * k + off)) = block (blknr.toNat + k) off

section Count

variable {sdhc ready : Bool} {fails : Nat → Option Nat} {reads : Nat} {blknr blkcnt : UInt32}

lemma nothing_read_wrong (asked : 0 < blkcnt.toNat)
    (nothing : ∀ fuel block n s', mmcBread fuel ⟨sdhc, block, ready, fails⟩
      ⟨fun _ => 0, fun _ => 0, reads⟩ blknr blkcnt 0 = some (n, s') →
        n = blkcnt ∧ s'.mem = fun _ => 0) : ¬ CountsRead sdhc ready fails reads blknr blkcnt := by
  intro counts
  obtain ⟨fuel, n, s', read, content⟩ := counts (fun _ _ => 1) (fun _ => 0) (fun _ => 0) 0
  obtain ⟨rfl, same⟩ := nothing fuel _ n s' read
  have first := content 0 asked 0 (by omega)
  rw [same] at first
  have apart : (0 : UInt8) ≠ 1 := by decide
  exact apart first

lemma toNat_blocks_ne {b : UInt32} (h : b * blockSize ≠ 0) : 0 < b.toNat := by
  apply Nat.pos_of_ne_zero
  intro zero
  apply h
  apply UInt32.toNat_inj.mp
  rw [toNat_blocks, zero]
  rfl

lemma loop_end (blknr blkcnt : UInt32) : (blknr * blockSize + blkcnt * blockSize).toNat =
    512 * ((blknr.toNat + blkcnt.toNat) % 8388608) := by
  rw [UInt32.toNat_add, toNat_blocks, toNat_blocks]
  omega

lemma high_blocks_wrong (some_bytes : blkcnt * blockSize ≠ 0)
    (high : 8388608 < blknr.toNat + blkcnt.toNat) :
    ¬ CountsRead sdhc true fails reads blknr blkcnt := by
  intro counts
  obtain ⟨fuel, n, s', read, content⟩ := counts (fun b _ => if b < 8388608 then 0 else 1)
    (fun _ => 0) (fun _ => 0) 0
  rw [mmcBread_eq some_bytes rfl, Option.map_eq_some_iff] at read
  obtain ⟨r, loop, same⟩ := read
  obtain ⟨rfl, rfl⟩ := Prod.mk.inj same
  have asked := toNat_blocks_ne some_bytes
  have here := content (8388608 - blknr.toNat) (by omega) 0 (by omega)
  rw [if_neg (by omega)] at here
  have apart : (0 : UInt8) ≠ 1 := by decide
  rcases loop_stores loop (0 + UInt32.ofNat (512 * (8388608 - blknr.toNat) + 0)) with
    old | ⟨b, off, low, stored⟩
  · exact apart (old.symm.trans here)
  · dsimp only at stored
    rw [if_pos low] at stored
    exact apart (stored.symm.trans here)

lemma failure_wrong (some_bytes : blkcnt * blockSize ≠ 0)
    (low : blknr.toNat + blkcnt.toNat < 8388608) {j : Nat} (inside : j < blkcnt.toNat)
    (bad : fails (reads + j) ≠ none) : ¬ CountsRead sdhc true fails reads blknr blkcnt := by
  intro counts
  obtain ⟨fuel, n, s', read, content⟩ := counts (fun _ _ => 1) (fun _ => 0) (fun _ => 0) 0
  rw [mmcBread_eq some_bytes rfl, Option.map_eq_some_iff] at read
  obtain ⟨r, loop, same⟩ := read
  obtain ⟨rfl, rfl⟩ := Prod.mk.inj same
  have last := content j inside 511 (by omega)
  have kept := loop_fails j (by rw [loop_end, toNat_blocks]; omega) bad loop
    (offset_toNat 0 (by omega))
  have apart : (0 : UInt8) ≠ 1 := by decide
  exact apart (kept.symm.trans last)

lemma low_blocks_right (asked : 0 < blkcnt.toNat)
    (low : blknr.toNat + blkcnt.toNat < 8388608)
    (fine : ∀ j < blkcnt.toNat, fails (reads + j) = none) :
    CountsRead sdhc true fails reads blknr blkcnt := by
  intro block mem mmcBuf dst
  have some_bytes : blkcnt * blockSize ≠ 0 := by
    intro zero
    have bytes := congrArg UInt32.toNat zero
    rw [toNat_blocks, UInt32.toNat_zero] at bytes
    omega
  obtain ⟨r, loop, content⟩ := loop_reads ⟨sdhc, block, true, fails⟩
    (blknr * blockSize + blkcnt * blockSize) blkcnt.toNat (blknr * blockSize) dst
    ⟨mem, mmcBuf, reads⟩ (by rw [loop_end, toNat_blocks]; omega) fine
  refine ⟨blkcnt.toNat + 1, blkcnt, r.2.2.2, ?_, fun k k_lt off off_lt => ?_⟩
  · rw [mmcBread_eq some_bytes rfl, loop]
    rfl
  · have row : (blknr * blockSize).toNat / 512 + (512 * k + off) / 512 = blknr.toNat + k := by
      rw [toNat_blocks]
      omega
    have col : (512 * k + off) % 512 = off := by omega
    rw [content, offset_toNat dst (by omega), if_pos (by omega), row, col]

end Count

/-- The count is right if nothing is asked for, or if the card is ready, all blocks are below
2 ^ 23 - with the one behind them - and no read of them fails. -/
theorem counts_read_iff (sdhc ready : Bool) (fails : Nat → Option Nat) (reads : Nat)
    (blknr blkcnt : UInt32) :
    CountsRead sdhc ready fails reads blknr blkcnt ↔
      blkcnt = 0 ∨ (ready = true ∧ blknr.toNat + blkcnt.toNat < 8388608 ∧
        ∀ j < blkcnt.toNat, fails (reads + j) = none) := by
  by_cases empty : blkcnt = 0
  · subst empty
    refine ⟨fun _ => .inl rfl, fun _ block mem mmcBuf dst => ⟨0, 0, ⟨mem, mmcBuf, reads⟩, rfl, ?_⟩⟩
    intro k k_lt
    exact absurd k_lt (Nat.not_lt_zero k)
  have asked : 0 < blkcnt.toNat := by
    apply Nat.pos_of_ne_zero
    exact fun h => empty (UInt32.toNat_inj.mp h)
  constructor
  · intro counts
    have idle (h : blkcnt * blockSize = 0 ∨ ready = false) :
        ¬ CountsRead sdhc ready fails reads blknr blkcnt := by
      apply nothing_read_wrong asked
      intro fuel block n s' read
      rw [mmcBread, mmcRead] at read
      rcases h with zero | off
      · rw [if_pos zero] at read
        obtain ⟨rfl, rfl⟩ := Prod.mk.inj (Option.some.inj read)
        exact ⟨rfl, rfl⟩
      · rw [if_pos off] at read
        split at read
        · obtain ⟨rfl, rfl⟩ := Prod.mk.inj (Option.some.inj read)
          exact ⟨rfl, rfl⟩
        · obtain ⟨rfl, rfl⟩ := Prod.mk.inj (Option.some.inj read)
          exact ⟨rfl, rfl⟩
    have some_bytes : blkcnt * blockSize ≠ 0 := fun zero => idle (.inl zero) counts
    obtain rfl : ready = true := by
      cases ready with
      | true => rfl
      | false => exact absurd counts (idle (.inr rfl))
    rcases Nat.lt_trichotomy (blknr.toNat + blkcnt.toNat) 8388608 with low | limit | high
    · refine .inr ⟨rfl, low, fun j inside => ?_⟩
      exact Classical.byContradiction fun bad =>
        failure_wrong some_bytes low inside bad counts
    · refine absurd counts (nothing_read_wrong asked fun fuel block n s' read => ?_)
      rw [mmcBread_eq some_bytes rfl, Option.map_eq_some_iff] at read
      obtain ⟨r, loop, same⟩ := read
      obtain ⟨rfl, rfl⟩ := Prod.mk.inj same
      have ended : ¬ blknr * blockSize < blknr * blockSize + blkcnt * blockSize := by
        rw [UInt32.lt_iff_toNat_lt, loop_end, limit]
        omega
      rw [loop_empty ended loop]
      exact ⟨rfl, rfl⟩
    · exact absurd counts (high_blocks_wrong some_bytes high)
  · rintro (zero | ⟨rfl, low, fine⟩)
    · exact absurd zero empty
    · exact low_blocks_right asked low fine

/-- The first block read of two fails before a word has arrived: nothing is stored, and the
count is 2. -/
theorem failed_read_counted :
    (∃ s', mmcBread 2 ⟨false, fun _ _ => 1, true, fun j => if j = 0 then some 0 else none⟩
        ⟨fun _ => 0, fun _ => 0, 0⟩ 0 2 0x30008000 = some (2, s') ∧ s'.mem = fun _ => 0) ∧
      ¬ CountsRead false true (fun j => if j = 0 then some 0 else none) 0 0 2 := by
  constructor
  · exact ⟨_, rfl, rfl⟩
  · apply failure_wrong (j := 0)
    · decide
    · decide
    · decide
    · decide

end Mmc
