import UBoot.Lib.Align
import UBoot.Mmc.BlockRead

/-!
# Reading a range of bytes with `mmc_read`

The range is read as the end of a first block, whole blocks and the start of a last block. The
length of the first piece does not look at `size`. Whole blocks are stored as words.
-/

namespace Mmc

open Memory32

/-- `mmc_block_read` to RAM where words can only be stored at multiples of four: the processor
checks alignment (cpu/arm920t/start.S). -/
def mmcBlockReadWords (card : Card) (s : State) (dst src len : UInt32) : Option (Bool × State) :=
  if dst.toNat % 4 = 0 then some (mmcBlockRead card s dst src len) else none

def alignedLoopWords (card : Card) (aligned_end : UInt32) :
    Nat → (src dst : UInt32) → State → Option (Bool × UInt32 × UInt32 × State)
  | 0, _, _, _ => none
  | fuel + 1, src, dst, s =>
    if src < aligned_end then
      (mmcBlockReadWords card s dst src blockSize).bind fun (ok, s) =>
        if ok then alignedLoopWords card aligned_end fuel (src + blockSize) (dst + blockSize) s
        else some (false, src, dst, s)
    else some (true, src, dst, s)

/-- `mmcRead`, with words. `mmc_buf` is at a multiple of four. -/
def mmcReadWords (fuel : Nat) (card : Card) (s : State) (src dst size : UInt32) :
    Option (Int × State) :=
  if size = 0 then some (0, s)
  else if card.ready = false then some (-1, s)
  else
    let src := src - mmcBase
    let stop := src + size
    let (ok, src, dst, s) := readStart card src dst s
    if ok then
      (alignedLoopWords card (mmcBlockAddress &&& stop) fuel src dst s).map
        fun (ok, src, dst, s) =>
          if ok then
            let (ok, s) := readEnd card stop src dst s
            (if ok then 0 else -1, s)
          else (-1, s)
    else some (-1, s)

def Card.byte (card : Card) (n : Nat) : UInt8 := card.block (n / 512) (n % 512)

/-- For every content of the card and of memory, without a failure: the bytes of the range, and no
other byte is stored. -/
def ReadsRange (read : Nat → Card → State → UInt32 → UInt32 → UInt32 → Option (Int × State))
    (sdhc ready : Bool) (src dst size : UInt32) : Prop :=
  ∀ (block : Nat → Nat → UInt8) (s : State), ∃ fuel s',
    read fuel ⟨sdhc, block, ready, fun _ => none⟩ s src dst size = some (0, s') ∧
      s'.mem = filled s.mem dst
        (fun i => Card.byte ⟨sdhc, block, ready, fun _ => none⟩ ((src - mmcBase).toNat + i))
        size.toNat

def LeavesBlock (src size : UInt32) : Prop :=
  (src - mmcBase).toNat % 512 = 0 ∨ 512 ≤ (src - mmcBase).toNat % 512 + size.toNat

def headLength (start : Nat) : Nat := (512 - start % 512) % 512

def WordAligned (src dst size : UInt32) : Prop :=
  let start := (src - mmcBase).toNat
  start + headLength start < (start + size.toNat) / 512 * 512 →
    (dst.toNat + headLength start) % 4 = 0

lemma part_toNat (x : UInt32) : (~~~mmcBlockAddress &&& x).toNat = x.toNat % 512 := by
  rw [block_mask, UInt32.toNat_and, Nat.and_comm]
  exact Nat.and_two_pow_sub_one_eq_mod x.toNat 9

lemma block_toNat (x : UInt32) : (mmcBlockAddress &&& x).toNat = x.toNat / 512 * 512 := by
  have mask : mmcBlockAddress.toNat = 2 ^ 32 - 1 - (2 ^ 9 - 1) := by decide
  rw [UInt32.toNat_and, mask, Nat.and_comm, Align.and_mask (by decide) x.toNat_lt, mul_comm]
  rfl

lemma add_toNat (x : UInt32) {k : Nat} (room : x.toNat + k < 4294967296) :
    (x + UInt32.ofNat k).toNat = x.toNat + k := by
  rw [UInt32.toNat_add, UInt32.toNat_ofNat']
  omega

variable {aligned_end : UInt32}

section
variable {card : Card} (fine : card.fails = fun _ => none)
include fine

lemma mmcBlockReadBuf_fine (s : State) (src : UInt32) :
    (mmcBlockReadBuf card s src blockSize).1 = true ∧
      (mmcBlockReadBuf card s src blockSize).2.mem = s.mem ∧
      ∀ i < 512, (mmcBlockReadBuf card s src blockSize).2.mmcBuf i =
        card.block (src.toNat / 512) i := by
  have size : ¬ blockSize = 0 := by decide
  have words : 4 * wordsRead none blockSize = 512 := rfl
  simp only [mmcBlockReadBuf, if_neg size, fine]
  refine ⟨rfl, trivial, fun i inside => ?_⟩
  rw [words, if_pos inside, addressed_lt]

lemma readStart_fine (src dst : UInt32) (s : State) :
    ∃ s', readStart card src dst s = (true, src + UInt32.ofNat (headLength src.toNat),
        dst + UInt32.ofNat (headLength src.toNat), s') ∧
      s'.mem = filled s.mem dst (fun i => card.byte (src.toNat + i)) (headLength src.toNat) := by
  have part := part_toNat src
  by_cases aligned : src.toNat % 512 = 0
  · have none : headLength src.toNat = 0 := by
      rw [headLength, aligned]
    refine ⟨s, ?_, ?_⟩
    · rw [readStart_aligned card dst s aligned, none]
      simp
    · rw [none, filled_zero]
  obtain ⟨ok, mem, buf⟩ := mmcBlockReadBuf_fine fine s (mmcBlockAddress &&& src)
  have unaligned : ¬ ~~~mmcBlockAddress &&& src = 0 := by
    intro zero
    rw [zero] at part
    exact aligned part.symm
  have length : headLength src.toNat = 512 - src.toNat % 512 := by
    rw [headLength]
    omega
  have part_len : blockSize - (~~~mmcBlockAddress &&& src) =
      UInt32.ofNat (headLength src.toNat) := by
    have size : blockSize.toNat = 512 := rfl
    apply UInt32.toNat_inj.mp
    rw [UInt32.toNat_sub, part, size, UInt32.toNat_ofNat', length]
    omega
  have part_toNat : (UInt32.ofNat (headLength src.toNat)).toNat = headLength src.toNat := by
    rw [UInt32.toNat_ofNat']
    omega
  rw [readStart, if_neg unaligned]
  simp only [ok, if_true, part_len, part_toNat, part, mem]
  refine ⟨_, rfl, ?_⟩
  rw [copyBytes_filled (by omega)]
  dsimp only
  apply filled_congr
  intro i inside
  have row : (src.toNat + i) / 512 = src.toNat / 512 := by omega
  have col : (src.toNat + i) % 512 = src.toNat % 512 + i := by omega
  rw [buf _ (by omega), block_toNat, Card.byte, row, col, Nat.mul_div_cancel _ (by decide)]

lemma readEnd_fine (stop dst : UInt32) (s : State) :
    ∃ s', readEnd card stop (mmcBlockAddress &&& stop) dst s = (true, s') ∧
      s'.mem = filled s.mem dst (fun i => card.byte (stop.toNat / 512 * 512 + i))
        (stop.toNat % 512) := by
  have part := part_toNat stop
  have block := block_toNat stop
  by_cases aligned : stop.toNat % 512 = 0
  · refine ⟨s, readEnd_aligned card _ dst s aligned, ?_⟩
    rw [aligned, filled_zero]
  obtain ⟨ok, mem, buf⟩ := mmcBlockReadBuf_fine fine s (mmcBlockAddress &&& stop)
  have rest : ~~~mmcBlockAddress &&& stop ≠ 0 ∧ (mmcBlockAddress &&& stop) < stop := by
    constructor
    · intro zero
      rw [zero] at part
      exact aligned part.symm
    · rw [UInt32.lt_iff_toNat_lt]
      omega
  rw [readEnd, if_pos rest]
  simp only [ok, if_true, part, mem]
  refine ⟨_, rfl, ?_⟩
  rw [copyBytes_filled (by omega)]
  dsimp only
  apply filled_congr
  intro i inside
  have row : (stop.toNat / 512 * 512 + i) / 512 = stop.toNat / 512 := by omega
  have col : (stop.toNat / 512 * 512 + i) % 512 = i := by omega
  rw [zero_add, buf i (by omega), block, Card.byte, row, col,
    Nat.mul_div_cancel _ (by decide)]

lemma alignedLoop_fine {n : Nat} {src : UInt32} (dst : UInt32) (s : State)
    (start : src.toNat % 512 = 0) (stop : aligned_end.toNat = src.toNat + 512 * n) :
    ∃ s', alignedLoop card aligned_end (n + 1) src dst s =
        some (true, aligned_end, dst + UInt32.ofNat (512 * n), s') ∧
      s'.mem = filled s.mem dst (fun i => card.byte (src.toNat + i)) (512 * n) := by
  obtain ⟨r, run, content⟩ := loop_reads card aligned_end n src dst s stop
    (fun j _ => congrFun fine _)
  obtain ⟨ok, stopped, moved⟩ := loop_stops n stop (fun j _ => congrFun fine _) run
  obtain ⟨ok', src', dst', s'⟩ := r
  obtain rfl : ok' = true := ok
  obtain rfl : src' = aligned_end := stopped
  obtain rfl : dst' = dst + UInt32.ofNat (512 * n) := moved
  refine ⟨s', run, ?_⟩
  funext a
  have row : (src.toNat + (a - dst).toNat) / 512 = src.toNat / 512 + (a - dst).toNat / 512 := by
    omega
  have col : (src.toNat + (a - dst).toNat) % 512 = (a - dst).toNat % 512 := by omega
  rw [content, filled, Card.byte, row, col]

end

def lastPiece (card : Card) (stop : UInt32) (r : Bool × UInt32 × UInt32 × State) : Int × State :=
  if r.1 then
    (if (readEnd card stop r.2.1 r.2.2.1 r.2.2.2).1 then 0 else -1,
      (readEnd card stop r.2.1 r.2.2.1 r.2.2.2).2)
  else (-1, r.2.2.2)

section
variable {card : Card} {s s1 : State} {src dst size src1 dst1 : UInt32}

lemma mmcRead_run {fuel : Nat} (ready : card.ready = true) (some_bytes : size ≠ 0)
    (head : readStart card (src - mmcBase) dst s = (true, src1, dst1, s1)) :
    mmcRead fuel card s src dst size =
      (alignedLoop card (mmcBlockAddress &&& (src - mmcBase + size)) fuel src1 dst1 s1).map
        (lastPiece card (src - mmcBase + size)) := by
  have other : ¬ card.ready = false := by simp [ready]
  rw [mmcRead, if_neg some_bytes, if_neg other]
  simp only [head, if_true]
  rfl

lemma mmcReadWords_run {fuel : Nat} (ready : card.ready = true) (some_bytes : size ≠ 0)
    (head : readStart card (src - mmcBase) dst s = (true, src1, dst1, s1)) :
    mmcReadWords fuel card s src dst size =
      (alignedLoopWords card (mmcBlockAddress &&& (src - mmcBase + size)) fuel src1 dst1 s1).map
        (lastPiece card (src - mmcBase + size)) := by
  have other : ¬ card.ready = false := by simp [ready]
  rw [mmcReadWords, if_neg some_bytes, if_neg other]
  simp only [head, if_true]
  rfl

lemma alignedLoopWords_eq (fuel : Nat) (aligned : src < aligned_end → dst.toNat % 4 = 0) :
    alignedLoopWords card aligned_end fuel src dst s =
      alignedLoop card aligned_end fuel src dst s := by
  induction fuel generalizing src dst s with
  | zero => rfl
  | succ fuel ih =>
    rw [alignedLoopWords, alignedLoop]
    by_cases turn : src < aligned_end
    · have next : (dst + blockSize).toNat % 4 = 0 := by
        have here := aligned turn
        have block : blockSize.toNat = 512 := rfl
        rw [UInt32.toNat_add, block]
        omega
      rw [if_pos turn, if_pos turn, mmcBlockReadWords, if_pos (aligned turn), Option.bind_some]
      simp only [ih (fun _ => next)]
    · rw [if_neg turn, if_neg turn]

lemma alignedLoopWords_none (fuel : Nat) (turn : src < aligned_end) (unaligned : dst.toNat % 4 ≠ 0)
    :
    alignedLoopWords card aligned_end fuel src dst s = none := by
  cases fuel with
  | zero => rfl
  | succ fuel =>
    rw [alignedLoopWords, if_pos turn, mmcBlockReadWords, if_neg unaligned, Option.bind_none]

end

section
variable {sdhc ready : Bool} {src dst size : UInt32}

/-- A range of the card: it begins at `mmcBase` or later, and its size is positive as an `int`. -/
structure InRange (src size : UInt32) : Prop where
  above : mmcBase ≤ src
  positive : 0 < size.toNat
  int : size.toNat < 2147483648

lemma InRange.low (range : InRange src size) : (src - mmcBase).toNat < 16777216 := by
  have base : mmcBase.toNat = 4278190080 := rfl
  have bound := src.toNat_lt
  rw [UInt32.toNat_sub_of_le _ _ range.above, base]
  omega

lemma InRange.stop (range : InRange src size) :
    (src - mmcBase + size).toNat = (src - mmcBase).toNat + size.toNat := by
  have low := range.low
  have int := range.int
  rw [UInt32.toNat_add]
  omega

lemma InRange.nonzero (range : InRange src size) : size ≠ 0 := by
  rintro rfl
  exact absurd range.positive (by decide)

lemma pieces {start length : Nat} (inside : headLength start ≤ length) :
    ∃ n, (start + length) / 512 * 512 = start + headLength start + 512 * n ∧
      headLength start + 512 * n + (start + length) % 512 = length := by
  have block : (start + headLength start) % 512 = 0 := by
    rw [headLength]
    omega
  refine ⟨(start + length) / 512 - (start + headLength start) / 512, ?_, ?_⟩
  · omega
  · omega

lemma head_le (leaves : LeavesBlock src size) :
    headLength (src - mmcBase).toNat ≤ size.toNat := by
  rw [headLength]
  rcases leaves with aligned | far
  · rw [aligned]
    exact Nat.zero_le _
  · omega

lemma mmcRead_reads (range : InRange src size) (leaves : LeavesBlock src size) {card : Card}
    (fine : card.fails = fun _ => none) (ready : card.ready = true) (s : State) :
    ∃ fuel s', mmcRead fuel card s src dst size = some (0, s') ∧
      s'.mem = filled s.mem dst (fun i => card.byte ((src - mmcBase).toNat + i)) size.toNat := by
  have inside := head_le leaves
  have low := range.low
  have int := range.int
  have stop := range.stop
  obtain ⟨n, whole, all⟩ := pieces inside
  obtain ⟨s1, head, mem1⟩ := readStart_fine fine (src - mmcBase) dst s
  generalize base : src - mmcBase = from_ at *
  generalize length : headLength from_.toNat = h at *
  have start : (from_ + UInt32.ofNat h).toNat = from_.toNat + h := add_toNat from_ (by omega)
  have block : (from_ + UInt32.ofNat h).toNat % 512 = 0 := by
    rw [start, ← length, headLength]
    omega
  have ended : (mmcBlockAddress &&& (from_ + size)).toNat =
      (from_ + UInt32.ofNat h).toNat + 512 * n := by
    rw [block_toNat, stop, start]
    exact whole
  obtain ⟨s2, loop, mem2⟩ := alignedLoop_fine fine (dst + UInt32.ofNat h) s1 block ended
  obtain ⟨s3, last, mem3⟩ := readEnd_fine fine (from_ + size)
    (dst + UInt32.ofNat h + UInt32.ofNat (512 * n)) s2
  refine ⟨n + 1, s3, ?_, ?_⟩
  · rw [← base] at head loop last
    rw [mmcRead_run ready range.nonzero head, loop, Option.map_some, lastPiece, if_pos rfl, last]
    rfl
  · have source2 : (fun i => card.byte ((from_ + UInt32.ofNat h).toNat + i)) =
        fun i => card.byte (from_.toNat + (h + i)) := by
      funext i
      rw [start, add_assoc]
    have source3 : (fun i => card.byte ((from_ + size).toNat / 512 * 512 + i)) =
        fun i => card.byte (from_.toNat + (h + 512 * n + i)) := by
      funext i
      rw [stop, whole]
      congr 1
      omega
    have moved : dst + UInt32.ofNat h + UInt32.ofNat (512 * n) =
        dst + UInt32.ofNat (h + 512 * n) := by
      rw [UInt32.ofNat_add, UInt32.add_assoc]
    rw [mem3, mem2, mem1, source2, source3, moved, stop,
      filled_append s.mem dst (fun i => card.byte (from_.toNat + i)) (by omega),
      filled_append s.mem dst (fun i => card.byte (from_.toNat + i)) (by omega), all]

lemma mmcRead_overruns (range : InRange src size) (within : ¬ LeavesBlock src size) {card : Card}
    (fine : card.fails = fun _ => none) (ready : card.ready = true) {fuel : Nat} {s : State}
    {r : Int × State} (read : mmcRead fuel card s src dst size = some r) :
    size.toNat < headLength (src - mmcBase).toNat ∧ r.2.mem =
      filled s.mem dst (fun i => card.byte ((src - mmcBase).toNat + i))
        (headLength (src - mmcBase).toNat) := by
  obtain ⟨unaligned, short⟩ := not_or.mp within
  have low := range.low
  have stop := range.stop
  have length : headLength (src - mmcBase).toNat = 512 - (src - mmcBase).toNat % 512 := by
    rw [headLength]
    omega
  obtain ⟨s1, head, mem1⟩ := readStart_fine fine (src - mmcBase) dst s
  have start := add_toNat (src - mmcBase) (k := headLength (src - mmcBase).toNat) (by omega)
  have no_turn : ¬ src - mmcBase + UInt32.ofNat (headLength (src - mmcBase).toNat) <
      mmcBlockAddress &&& (src - mmcBase + size) := by
    rw [UInt32.lt_iff_toNat_lt, start, block_toNat, stop]
    omega
  have no_end : ¬ src - mmcBase + UInt32.ofNat (headLength (src - mmcBase).toNat) <
      src - mmcBase + size := by
    rw [UInt32.lt_iff_toNat_lt, start, stop]
    omega
  rw [mmcRead_run ready range.nonzero head] at read
  cases fuel with
  | zero => simp [alignedLoop] at read
  | succ fuel =>
    have last : ∀ dst1, readEnd card (src - mmcBase + size)
        (src - mmcBase + UInt32.ofNat (headLength (src - mmcBase).toNat)) dst1 s1 = (true, s1) := by
      intro dst1
      rw [readEnd]
      exact if_neg fun both => no_end both.2
    rw [alignedLoop, if_neg no_turn, Option.map_some, lastPiece, if_pos rfl, last] at read
    rw [← Option.some.inj read]
    exact ⟨by omega, mem1⟩

lemma not_reads {read : Nat → Card → State → UInt32 → UInt32 → UInt32 → Option (Int × State)}
    {n : Nat} (longer : size.toNat < n) (short : n ≤ 512)
    (leaves : ∀ fuel r, read fuel ⟨sdhc, fun _ _ => 1, ready, fun _ => none⟩
      ⟨fun _ => 0, fun _ => 0, 0⟩ src dst size = some r →
        r.2.mem = filled (fun _ => 0) dst (fun _ => 1) n) :
    ¬ ReadsRange read sdhc ready src dst size := by
  intro reads
  obtain ⟨fuel, s', ran, content⟩ := reads (fun _ _ => 1) ⟨fun _ => 0, fun _ => 0, 0⟩
  have stored := leaves fuel _ ran
  have offset := offset_toNat dst (k := size.toNat) (by omega)
  have behind := congrFun (content.symm.trans stored) (dst + UInt32.ofNat size.toNat)
  rw [filled, filled, offset, if_neg (lt_irrefl _), if_pos longer] at behind
  exact absurd behind (show ¬ (0 : UInt8) = 1 by decide)

lemma not_ready (range : InRange src size) :
    ¬ ReadsRange mmcRead sdhc false src dst size ∧
      ¬ ReadsRange mmcReadWords sdhc false src dst size := by
  constructor
  · intro reads
    obtain ⟨fuel, s', ran, -⟩ := reads (fun _ _ => 0) ⟨fun _ => 0, fun _ => 0, 0⟩
    rw [mmcRead, if_neg range.nonzero, if_pos rfl] at ran
    exact absurd (Prod.mk.inj (Option.some.inj ran)).1 (by decide)
  · intro reads
    obtain ⟨fuel, s', ran, -⟩ := reads (fun _ _ => 0) ⟨fun _ => 0, fun _ => 0, 0⟩
    rw [mmcReadWords, if_neg range.nonzero, if_pos rfl] at ran
    exact absurd (Prod.mk.inj (Option.some.inj ran)).1 (by decide)

lemma wordAligned_iff (range : InRange src size) :
    WordAligned src dst size ↔
      (src - mmcBase + UInt32.ofNat (headLength (src - mmcBase).toNat) <
          mmcBlockAddress &&& (src - mmcBase + size) →
        (dst + UInt32.ofNat (headLength (src - mmcBase).toNat)).toNat % 4 = 0) := by
  have low := range.low
  have short : headLength (src - mmcBase).toNat < 512 := Nat.mod_lt _ (by decide)
  have start := add_toNat (src - mmcBase) (k := headLength (src - mmcBase).toNat) (by omega)
  have moved : (dst + UInt32.ofNat (headLength (src - mmcBase).toNat)).toNat % 4 =
      (dst.toNat + headLength (src - mmcBase).toNat) % 4 := by
    rw [UInt32.toNat_add, UInt32.toNat_ofNat']
    omega
  rw [UInt32.lt_iff_toNat_lt, start, block_toNat, range.stop, moved]
  exact Iff.rfl

lemma mmcReadWords_eq (range : InRange src size) {card : Card} (fine : card.fails = fun _ => none)
    (ready : card.ready = true) (fuel : Nat) (s : State) :
    (WordAligned src dst size →
        mmcReadWords fuel card s src dst size = mmcRead fuel card s src dst size) ∧
      (¬ WordAligned src dst size → mmcReadWords fuel card s src dst size = none) := by
  obtain ⟨s1, head, -⟩ := readStart_fine fine (src - mmcBase) dst s
  rw [mmcReadWords_run ready range.nonzero head, mmcRead_run ready range.nonzero head,
    wordAligned_iff range]
  constructor
  · intro aligned
    rw [alignedLoopWords_eq fuel aligned]
  · intro unaligned
    obtain ⟨turn, odd⟩ := Classical.not_imp.mp unaligned
    rw [alignedLoopWords_none fuel turn odd, Option.map_none]

/-- A range that ends inside its first block is the one that is not read right; with words, a first
whole block that does not go to a multiple of four is another. -/
theorem reads_range_iff (sdhc ready : Bool) (dst : UInt32) (range : InRange src size) :
    (ReadsRange mmcRead sdhc ready src dst size ↔ ready = true ∧ LeavesBlock src size) ∧
      (ReadsRange mmcReadWords sdhc ready src dst size ↔
        ready = true ∧ LeavesBlock src size ∧ WordAligned src dst size) := by
  cases ready with
  | false =>
    obtain ⟨bytes, words⟩ : ¬ ReadsRange mmcRead sdhc false src dst size ∧
        ¬ ReadsRange mmcReadWords sdhc false src dst size := not_ready range
    exact ⟨iff_of_false bytes fun both => Bool.false_ne_true both.1,
      iff_of_false words fun all => Bool.false_ne_true all.1⟩
  | true =>
    have short : headLength (src - mmcBase).toNat ≤ 512 :=
      Nat.le_of_lt (Nat.mod_lt _ (by decide))
    have overruns {fuel : Nat} {r : Int × State} (within : ¬ LeavesBlock src size)
        (ran : mmcRead fuel ⟨sdhc, fun _ _ => 1, true, fun _ => none⟩
          ⟨fun _ => 0, fun _ => 0, 0⟩ src dst size = some r) :=
      mmcRead_overruns range within rfl rfl ran
    have bytes (leaves : LeavesBlock src size) : ReadsRange mmcRead sdhc true src dst size :=
      fun block s => mmcRead_reads range leaves rfl rfl s
    constructor
    · constructor
      · intro reads
        refine ⟨rfl, Classical.byContradiction fun within => ?_⟩
        obtain ⟨fuel, s', ran, -⟩ := reads (fun _ _ => 1) ⟨fun _ => 0, fun _ => 0, 0⟩
        exact not_reads (overruns within ran).1 short
          (fun fuel r ran => (overruns within ran).2) reads
      · exact fun ⟨_, leaves⟩ => bytes leaves
    · constructor
      · intro reads
        obtain ⟨fuel, s', ran, -⟩ := reads (fun _ _ => 1) ⟨fun _ => 0, fun _ => 0, 0⟩
        have aligned : WordAligned src dst size := Classical.byContradiction fun unaligned => by
          rw [(mmcReadWords_eq range rfl rfl _ _).2 unaligned] at ran
          cases ran
        refine ⟨rfl, Classical.byContradiction fun within => ?_, aligned⟩
        rw [(mmcReadWords_eq range rfl rfl _ _).1 aligned] at ran
        refine not_reads (overruns within ran).1 short (fun fuel r ran => ?_) reads
        rw [(mmcReadWords_eq range rfl rfl _ _).1 aligned] at ran
        exact (overruns within ran).2
      · rintro ⟨-, leaves, aligned⟩ block s
        obtain ⟨fuel, s', ran, content⟩ := bytes leaves block s
        refine ⟨fuel, s', ?_, content⟩
        rw [(mmcReadWords_eq range rfl rfl _ _).1 aligned]
        exact ran

end

/-- The end of the first block, the second, and four bytes of the third. -/
theorem reads_range_three_blocks :
    ReadsRange mmcRead false true (mmcBase + 4) 0x30000000 1024 ∧
      ReadsRange mmcReadWords false true (mmcBase + 4) 0x30000000 1024 := by
  have range : InRange (mmcBase + 4) 1024 := ⟨by decide, by decide, by decide⟩
  have leaves : LeavesBlock (mmcBase + 4) 1024 := Or.inr (by decide)
  have aligned : WordAligned (mmcBase + 4) 0x30000000 1024 := fun _ => by decide
  obtain ⟨bytes, words⟩ := reads_range_iff false true 0x30000000 range
  exact ⟨bytes.mpr ⟨rfl, leaves⟩, words.mpr ⟨rfl, leaves, aligned⟩⟩

/-- One byte inside a block: 511 bytes are stored. -/
theorem one_byte_overruns : ¬ ReadsRange mmcRead false true (mmcBase + 1) 0x30000000 1 := by
  have range : InRange (mmcBase + 1) 1 := ⟨by decide, by decide, by decide⟩
  have within : ¬ LeavesBlock (mmcBase + 1) 1 := by
    rintro (aligned | far)
    · exact absurd aligned (by decide)
    · exact absurd far (by decide)
  intro reads
  have overruns {fuel : Nat} {r : Int × State}
      (ran : mmcRead fuel ⟨false, fun _ _ => 1, true, fun _ => none⟩
        ⟨fun _ => 0, fun _ => 0, 0⟩ (mmcBase + 1) 0x30000000 1 = some r) :=
    mmcRead_overruns range within rfl rfl ran
  obtain ⟨fuel, s', ran, -⟩ := reads (fun _ _ => 1) ⟨fun _ => 0, fun _ => 0, 0⟩
  exact not_reads (overruns ran).1 (Nat.le_of_lt (Nat.mod_lt _ (by decide)))
    (fun fuel r ran => (overruns ran).2) reads

end Mmc
