import UBoot.Mtd.CfiBuffered

/-!
# Chips that erase instead

Chips that can make of an operation what they want, and report nothing, may erase everything up to
an address `x` and change the byte there. Then all that follows fits, and `write_buff` succeeds,
though the byte at `x` is wrong.
-/

namespace CfiFlash

open LittleEndian

variable {info : Info} {chips : Chips} {mem src : Mem} {addr cnt x p : Nat} {s : State}

/-- Chips that report success, and erase below `x` whenever an operation is not carried out. -/
structure Chips.Wiping (info : Info) (chips : Chips) (mem : Mem) (x : Nat) : Prop where
  available : ∀ k, (chips k).available = true
  settled : ∀ k, flashFullStatusCheck info (chips k) = .ok
  changed : ∀ k m, (chips k).left m x ≠ mem x
  erased : ∀ k m, ∀ a < x, (chips k).left m a = 0xff

lemma Chips.Wiping.offered (wiping : chips.Wiping info mem x) (k : Nat) :
    ¬(info.vendor.isIntel = true ∧ (!(chips k).available) = true) := by
  rintro ⟨-, unavailable⟩
  rw [wiping.available] at unavailable
  cases unavailable

def wiping (mem : Mem) (x errors : Nat) : Chips := fun _ =>
  ⟨true, true, errors, 0, fun _ a => if a = x then mem x + 1 else 0xff⟩

lemma wiping_wiping {errors : Nat} (quiet : info.vendor.isIntel = true ∨ errors = 0) :
    (wiping mem x errors).Wiping info mem x where
  available _ := rfl
  settled _ := (fullStatusCheck_eq_ok info _).mpr ⟨rfl, quiet⟩
  changed k m := by
    have left : (wiping mem x errors k).left m x = mem x + 1 := if_pos rfl
    intro same
    rw [left, ← UInt8.toNat_inj, UInt8.toNat_add, UInt8.toNat_one] at same
    omega
  erased _ _ _ low := if_neg (ne_of_lt low)

/-- From `p` up to `x` all is erased, and the byte at `x` is not what it was. -/
structure Wiped (mem : Mem) (x p : Nat) (s : State) : Prop where
  changed : s.mem x ≠ mem x
  erased : ∀ a, p ≤ a → a < x → s.mem a = 0xff

lemma Chips.Wiping.start (wiping : chips.Wiping info mem x) {op : Op}
    (dropped : (chips s.ops.length).errors ≠ 0 ∨ op.announced ≠ op.words.length) :
    Wiped mem x p (s.issue info chips op) := by
  have left : (s.issue info chips op).mem = (chips s.ops.length).left s.mem := by
    apply if_neg
    rintro ⟨-, no_error, in_step⟩
    rcases dropped with error | out_of_step
    · exact error no_error
    · exact out_of_step in_step
  constructor
  · rw [left]
    exact wiping.changed _ _
  · intro a _ low
    rw [left]
    exact wiping.erased _ _ a low

lemma Wiped.issue (wiping : chips.Wiping info mem x) (wiped : Wiped mem x p s) (op : Op)
    (here : op.dest = p) (room : p + op.size info ≤ x) :
    Wiped mem x (p + op.size info) (s.issue info chips op) := by
  by_cases dropped : (chips s.ops.length).errors ≠ 0 ∨ op.announced ≠ op.words.length
  · exact wiping.start dropped
  obtain ⟨no_error, in_step⟩ := not_or.mp dropped
  have ready := ((fullStatusCheck_eq_ok info _).mp (wiping.settled s.ops.length)).1
  have applied : (s.issue info chips op).mem = programmed info s.mem op :=
    if_pos ⟨ready, not_not.mp no_error, not_not.mp in_step⟩
  have outside {a : Nat} (behind : p + op.size info ≤ a) :
      (s.issue info chips op).mem a = s.mem a := by
    rw [applied]
    exact if_neg (by omega)
  constructor
  · rw [outside room]
    exact wiped.changed
  · intro a low high
    rw [outside low]
    exact wiped.erased a (by omega) high

lemma Wiped.fits (wiped : Wiped mem x p s) (room : p + info.portwidth ≤ x) (f : Nat → UInt8) :
    flashRead info s.mem p &&& word info.portwidth f = word info.portwidth f := by
  rw [flashRead, land_word_iff]
  intro i inside
  rw [wiped.erased _ (by omega) (by omega)]
  exact UInt8.neg_one_and

lemma cfiword_wiped (wiping : chips.Wiping info mem x) (wiped : Wiped mem x p s)
    (room : p + info.portwidth ≤ x) {bytes : List UInt8}
    (length : bytes.length = info.portwidth) :
    (flashWriteCfiword info chips s p (cwordOf info bytes)).1 = .ok ∧
      Wiped mem x (p + info.portwidth)
        (flashWriteCfiword info chips s p (cwordOf info bytes)).2 := by
  have fits := wiped.fits room fun i => bytes.getD i 0
  rw [← cwordOf_eq length] at fits
  have issued := wiped.issue wiping ⟨p, [cwordOf info bytes], 1⟩ rfl
  rw [wordOp_size] at issued
  rw [flashWriteCfiword, if_pos fits]
  exact ⟨wiping.settled _, issued room⟩

lemma cfibuffer_wiped (wiping : chips.Wiping info mem x) (wiped : Wiped mem x p s) (src : Mem)
    (off : Nat) {len : Nat} (some_words : 0 < len / info.portwidth) (room : p + len / info.portwidth * info.portwidth ≤ x) :
    (flashWriteCfibuffer info chips src s p off len).1 = .ok ∧
      Wiped mem x (p + len / info.portwidth * info.portwidth)
        (flashWriteCfibuffer info chips src s p off len).2 := by
  have first := Nat.mul_le_mul_right info.portwidth (Nat.succ_le_of_lt some_words)
  have found : erasedLoop info s.mem src (len / info.portwidth) p off = true := by
    rw [erasedLoop_iff]
    refine ⟨0, some_words, fun i inside => ?_⟩
    rw [wiped.erased _ (by omega) (by omega)]
    exact UInt8.neg_one_and
  have issued := wiped.issue wiping (bufferOp info src p off (len / info.portwidth)) rfl
  rw [bufferOp_size] at issued
  rw [cfibuffer_found (wiping.offered _) found]
  exact ⟨wiping.settled _, issued room⟩

structure WipedLoop (info : Info) (mem : Mem) (addr cnt x : Nat) (r : Progress) : Prop where
  ok : r.rc = .ok
  wiped : Wiped mem x r.wp r.s
  placed : Placed info addr cnt r.wp r.off r.cnt
  short : r.cnt < info.portwidth

lemma bufferLoop_wiped (wiping : chips.Wiping info mem x) (whole : info.WholeWords)
    {wp off left : Nat} (wiped : Wiped mem x wp s) (at_chunk : AtChunk info addr cnt wp off left)
    (far : addr + cnt + info.portwidth ≤ x) :
    WipedLoop info mem addr cnt x (bufferLoop info chips src s wp off left) := by
  induction left using Nat.strongRecOn generalizing s wp off with
  | ind left ih =>
    have pos := portwidth_pos info
    by_cases short : left < info.portwidth
    · rw [bufferLoop_done info chips src s wp off short]
      exact ⟨rfl, wiped, at_chunk.toPlaced, short⟩
    have long := not_lt.mp short
    have next := at_chunk.next whole long
    have inside := next.inside
    have stop := at_chunk.stop (by omega)
    have progress := next.progress
    obtain ⟨ok, later⟩ := cfibuffer_wiped wiping wiped src off next.some_words (by omega)
    rw [bufferLoop_next long ok]
    exact ih _ (by omega) later (at_chunk.advance whole long)

lemma writeTail_wiped (src : Mem) (wiping : chips.Wiping info mem x) {r : Progress}
    (loop : WipedLoop info mem addr cnt x r) (far : addr + cnt + info.portwidth ≤ x) :
    (writeTail info chips src r).1 = .ok ∧ (writeTail info chips src r).2.mem x ≠ mem x := by
  unfold writeTail
  by_cases none_left : r.cnt = 0
  · rw [if_pos none_left]
    exact ⟨rfl, loop.wiped.changed⟩
  have stop := loop.placed.stop none_left
  have short := loop.short
  obtain ⟨ok, later⟩ := cfiword_wiped wiping loop.wiped (by omega)
    (tailBytes_length info src short)
  rw [if_neg none_left]
  exact ⟨ok, later.changed⟩

lemma chunkOk_of_empty {new : Mem} {j : Nat}
    (empty : chunkEnd info addr cnt j ≤ chunkStart info addr j) :
    ChunkOk info mem new addr cnt j := by
  have pos := portwidth_pos info
  rintro - ⟨w, low, high, -, -⟩
  omega

lemma chunkOk_of_bad {new : Mem} {a j : Nat} (before : a < chunkStart info addr j)
    (bad : ¬Fits mem new a) : ChunkOk info mem new addr cnt j :=
  fun fits => absurd (fits a before) bad

lemma NextChunk.chunks {new : Mem} {wp left : Nat} (next : NextChunk info addr cnt wp left)
    (here : ChunkOk info mem new addr cnt (wp / info.bufferedSize))
    (later : ∀ j, wp + chunkSize info wp left / info.portwidth * info.portwidth ≤
      chunkStart info addr j → ChunkOk info mem new addr cnt j) {j : Nat}
    (behind : wp ≤ chunkStart info addr j) : ChunkOk info mem new addr cnt j := by
  rcases lt_trichotomy j (wp / info.bufferedSize) with before | rfl | after
  · apply chunkOk_of_empty
    have blocks := Nat.mul_le_mul_right info.bufferedSize (Nat.succ_le_of_lt before)
    have block := Nat.div_mul_le_self wp info.bufferedSize
    have stop : chunkEnd info addr cnt j ≤ (j + 1) * info.bufferedSize := min_le_right _ _
    exact stop.trans (blocks.trans (block.trans behind))
  · exact here
  · apply later
    have blocks := Nat.mul_le_mul_right info.bufferedSize (Nat.succ_le_of_lt after)
    have start : j * info.bufferedSize ≤ chunkStart info addr j := Nat.le_max_right _ _
    rw [← next.stop]
    exact (min_le_right _ _).trans (blocks.trans start)

lemma cfiword_ops (info : Info) (chips : Chips) (s : State) (dest cword : Nat) :
    s.ops ⊆ (flashWriteCfiword info chips s dest cword).2.ops := by
  unfold flashWriteCfiword
  split
  · exact List.subset_append_left _ _
  · exact List.Subset.refl _

lemma writeTail_ops (info : Info) (chips : Chips) (src : Mem) (r : Progress) :
    r.s.ops ⊆ (writeTail info chips src r).2.ops := by
  unfold writeTail
  split
  · exact List.Subset.refl _
  · exact cfiword_ops info chips r.s r.wp _

lemma cfibuffer_ops (info : Info) (chips : Chips) (src : Mem) (s : State) (dest off len : Nat) :
    s.ops ⊆ (flashWriteCfibuffer info chips src s dest off len).2.ops := by
  unfold flashWriteCfibuffer
  dsimp only
  split
  · exact List.Subset.refl _
  split
  · exact List.Subset.refl _
  · exact List.subset_append_left _ _

lemma bufferLoop_ops (whole : info.WholeWords) {wp off left : Nat}
    (at_chunk : AtChunk info addr cnt wp off left) :
    s.ops ⊆ (bufferLoop info chips src s wp off left).s.ops := by
  induction left using Nat.strongRecOn generalizing s wp off with
  | ind left ih =>
    have pos := portwidth_pos info
    by_cases short : left < info.portwidth
    · rw [bufferLoop_done info chips src s wp off short]
      exact List.Subset.refl _
    have long := not_lt.mp short
    have next := at_chunk.next whole long
    have progress := next.progress
    have buffer := cfibuffer_ops info chips src s wp off (chunkSize info wp left)
    by_cases ok : (flashWriteCfibuffer info chips src s wp off (chunkSize info wp left)).1 = .ok
    · rw [bufferLoop_next long ok]
      exact List.Subset.trans buffer (ih _ (by omega) (at_chunk.advance whole long))
    · rw [bufferLoop_failed long ok]
      exact buffer

lemma bufferLoop_exact (wiping : chips.Wiping info mem x) (honest : chips.Honest info)
    (whole : info.WholeWords) (far : addr + cnt + info.portwidth ≤ x) {wp off left : Nat}
    (written : Written info chips mem (target mem src addr cnt) wp s)
    (at_chunk : AtChunk info addr cnt wp off left)
    (fits : ∀ op ∈ (bufferLoop info chips src s wp off left).s.ops, op.Fits info mem)
    (kept : ¬WipedLoop info mem addr cnt x (bufferLoop info chips src s wp off left)) {j : Nat}
    (behind : wp ≤ chunkStart info addr j) :
    ChunkOk info mem (target mem src addr cnt) addr cnt j := by
  induction left using Nat.strongRecOn generalizing s wp off j with
  | ind left ih =>
    have pos := portwidth_pos info
    by_cases short : left < info.portwidth
    · apply chunkOk_of_empty
      refine le_trans (le_trans (min_le_left _ _) ?_) behind
      by_cases none_left : left = 0
      · have := at_chunk.finished none_left
        omega
      · rw [lastWord_eq at_chunk.aligned (at_chunk.stop none_left), Nat.div_eq_of_lt short,
          zero_mul]
        exact le_rfl
    have long := not_lt.mp short
    have next := at_chunk.next whole long
    have advance := at_chunk.advance whole long
    have progress := next.progress
    have ok_iff := next.ok_iff at_chunk.aligned written.fits
    have same := at_chunk.same mem src whole long
    have erased := erased_iff written same
    cases found : erasedLoop info s.mem src (chunkSize info wp left / info.portwidth) wp off with
    | false =>
      rw [found] at erased
      have none_fits := mt erased.mpr Bool.noConfusion
      refine next.chunks (ok_iff.mpr fun fits => absurd fits none_fits) ?_ behind
      intro j behind
      obtain ⟨i, wrong⟩ := not_forall.mp fun fits => none_fits ⟨0, next.some_words, fits⟩
      obtain ⟨low, bad⟩ := Classical.not_imp.mp wrong
      have := word_inside next.some_words low
      exact chunkOk_of_bad (by omega) bad
    | true =>
      have programs := cfibuffer_found (wiping.offered s.ops.length) found
      set op := bufferOp info src wp off (chunkSize info wp left / info.portwidth)
      have ok : (flashWriteCfibuffer info chips src s wp off (chunkSize info wp left)).1 = .ok := by
        rw [programs]
        exact wiping.settled _
      have result := bufferLoop_next long ok
      rw [result] at fits kept
      have there : op ∈ (flashWriteCfibuffer info chips src s wp off
          (chunkSize info wp left)).2.ops := by
        rw [programs]
        exact List.mem_append_right _ (List.mem_singleton.mpr rfl)
      have op_fits := fits op (bufferLoop_ops whole advance there)
      have all : ∀ k < chunkSize info wp left / info.portwidth * info.portwidth,
          Fits mem (target mem src addr cnt) (wp + k) := by
        intro k low
        have byte := op_fits k (by rwa [bufferOp_size])
        rw [bufferOp_byte info src wp off low, same k low] at byte
        exact byte
      by_cases room : chunkSize info wp left / info.portwidth ≤ info.lines
      · have here := ok_iff.mpr fun _ => ⟨all, room⟩
        have buffer := at_chunk.cfibuffer_comes honest whole written long here
        refine next.chunks here ?_ behind
        intro j behind
        exact ih _ (by omega) (buffer.written ok) advance fits kept behind
      · have out_of_step : op.announced ≠ op.words.length := by
          rw [bufferOp_words]
          exact mt (announced_iff info src wp off next.some_words).mp room
        have wiped : Wiped mem x (wp + chunkSize info wp left / info.portwidth * info.portwidth)
            (flashWriteCfibuffer info chips src s wp off (chunkSize info wp left)).2 := by
          rw [programs]
          exact wiping.start (.inr out_of_step)
        exact absurd (bufferLoop_wiped wiping whole wiped advance far) kept

end CfiFlash
