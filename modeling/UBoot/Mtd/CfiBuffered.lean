import UBoot.Mtd.CfiWrite

/-!
# Writing buffers

The check of a buffer ends at the first word that is erased, so that a buffer is programmed as soon
as one of its words fits. Where all words of a buffer fit or none does, the two builds agree.
-/

namespace CfiFlash

open LittleEndian

variable {info : Info} {chips : Chips} {mem new src : Mem} {addr cnt : Nat}

variable {off : Nat} {s : State}

def Info.WholeWords (info : Info) : Prop := info.chipShift ≤ info.bufferShift

def Info.lines (info : Info) : Nat := 256 ^ min 4 info.chipwidth

def Info.bufferWords (info : Info) : Nat := 2 ^ (info.bufferShift - info.chipShift)

lemma bufferedSize_eq (whole : info.WholeWords) :
    info.bufferedSize = info.bufferWords * info.portwidth := by
  have chip_le := info.chip_le
  have : info.chipShift ≤ info.bufferShift := whole
  unfold Info.bufferedSize Info.portwidth Info.chipwidth Info.buffer_size Info.bufferWords
  rw [Nat.pow_div chip_le (Nat.succ_pos 1), ← Nat.pow_add, ← Nat.pow_add]
  congr 1
  omega

lemma bufferWords_pos (info : Info) : 0 < info.bufferWords := Nat.two_pow_pos _

lemma announced_iff (info : Info) (src : Mem) (dest off : Nat) {n : Nat} (some_words : 0 < n) :
    (bufferOp info src dest off n).announced = n ↔ n ≤ info.lines := by
  have chip_port : info.chipwidth ≤ info.portwidth :=
    Nat.pow_le_pow_right (Nat.succ_pos 1) info.chip_le
  have lines : flashMakeCmd info (n - 1) % 256 ^ info.chipwidth = (n - 1) % info.lines := by
    rw [flashMakeCmd, word_mod_pow chip_port, word_of_zero (min_le_right 4 info.chipwidth),
      Info.lines, ← word_byte_mod]
    · apply word_congr
      intro i low
      rw [Nat.mod_eq_of_lt (lt_of_lt_of_le low (min_le_right _ _)),
        if_pos (lt_of_lt_of_le low (min_le_left _ _))]
    · intro i low high
      rw [Nat.mod_eq_of_lt high, if_neg (by omega)]
  have announced : (bufferOp info src dest off n).announced =
    flashMakeCmd info (n - 1) % 256 ^ info.chipwidth + 1 := rfl
  have some_lines : 0 < info.lines := Nat.pow_pos (Nat.succ_pos 255)
  have below := Nat.mod_lt (n - 1) some_lines
  rw [announced, lines]
  constructor
  · intro same
    omega
  · intro room
    rw [Nat.mod_eq_of_lt (by omega), Nat.sub_add_cancel some_words]

lemma bufferOp_words (info : Info) (src : Mem) (dest off n : Nat) :
    (bufferOp info src dest off n).words.length = n := by
  rw [bufferOp, List.length_map, List.length_range]

lemma bufferOp_size (info : Info) (src : Mem) (dest off n : Nat) :
    (bufferOp info src dest off n).size info = n * info.portwidth := by
  rw [Op.size, bufferOp_words]

lemma bufferOp_byte (info : Info) (src : Mem) (dest off : Nat) {n k : Nat}
    (low : k < n * info.portwidth) :
    (bufferOp info src dest off n).byte info k = src (off + k) := by
  have pos := portwidth_pos info
  have inside : k / info.portwidth < n := Nat.div_lt_of_lt_mul (by rwa [mul_comm])
  have there : (bufferOp info src dest off n).words.getD (k / info.portwidth) 0 =
      flashRead info src (off + k / info.portwidth * info.portwidth) := by
    simp [bufferOp, inside]
  rw [Op.byte, there, flashRead, byte_word _ (Nat.mod_lt k pos), add_assoc,
    Nat.div_add_mod']

lemma erasedLoop_iff (info : Info) (mem src : Mem) (n dst off : Nat) :
    erasedLoop info mem src n dst off = true ↔ ∃ j < n, ∀ i < info.portwidth,
      mem (dst + j * info.portwidth + i) &&& src (off + j * info.portwidth + i) =
        src (off + j * info.portwidth + i) := by
  induction n generalizing dst off with
  | zero => exact iff_of_false nofun (fun ⟨j, low, _⟩ => absurd low (Nat.not_lt_zero j))
  | succ n ih =>
    have next (a j : Nat) : a + info.portwidth + j * info.portwidth =
        a + (j + 1) * info.portwidth := by
      rw [Nat.succ_mul]
      omega
    have first := land_word_iff info.portwidth (fun i => mem (dst + i)) (fun i => src (off + i))
    rw [erasedLoop]
    by_cases fits : flashRead info mem dst &&& flashRead info src off = flashRead info src off
    · rw [if_pos fits]
      refine iff_of_true rfl ⟨0, Nat.succ_pos n, ?_⟩
      rw [zero_mul, add_zero, add_zero]
      exact first.mp fits
    rw [if_neg fits, ih]
    constructor
    · rintro ⟨j, low, all⟩
      rw [next, next] at all
      exact ⟨j + 1, Nat.succ_lt_succ low, all⟩
    · rintro ⟨j, low, all⟩
      cases j with
      | zero =>
        rw [zero_mul, add_zero, add_zero] at all
        exact absurd (first.mpr all) fits
      | succ j =>
        rw [← next, ← next] at all
        exact ⟨j, Nat.lt_of_succ_lt_succ low, all⟩

lemma len_shift (info : Info) (len : Nat) :
    len >>> info.portShift.val = len / info.portwidth := Nat.shiftRight_eq_div_pow _ _

lemma word_inside {n j i w : Nat} (low : j < n) (inside : i < w) : j * w + i < n * w := by
  have next := Nat.mul_le_mul_right w (Nat.succ_le_of_lt low)
  rw [Nat.succ_mul] at next
  omega

lemma erased_iff {p n : Nat} (written : Written info chips mem new p s)
    (same : ∀ k < n * info.portwidth, src (off + k) = new (p + k)) :
    erasedLoop info s.mem src n p off = true ↔
      ∃ j < n, ∀ i < info.portwidth, Fits mem new (p + (j * info.portwidth + i)) := by
  rw [erasedLoop_iff]
  refine exists_congr fun j => and_congr_right fun low => forall₂_congr fun i inside => ?_
  rw [add_assoc, add_assoc, same _ (word_inside low inside), written.contents,
    if_neg (by omega)]
  exact Iff.rfl

lemma cfibuffer_refused (chips : Chips) {dest len : Nat}
    (refused : erasedLoop info s.mem src (len / info.portwidth) dest off = false) :
    flashWriteCfibuffer info chips src s dest off len = (.notErased, s) := by
  rw [flashWriteCfibuffer, len_shift, refused, if_pos Bool.not_false]

lemma cfibuffer_found {dest len : Nat}
    (offered : ¬(info.vendor.isIntel = true ∧ (!(chips s.ops.length).available) = true))
    (found : erasedLoop info s.mem src (len / info.portwidth) dest off = true) :
    flashWriteCfibuffer info chips src s dest off len =
      (flashFullStatusCheck info (chips s.ops.length),
        s.issue info chips (bufferOp info src dest off (len / info.portwidth))) := by
  rw [flashWriteCfibuffer, len_shift, found, if_neg Bool.noConfusion, if_neg offered]

lemma cfibuffer_comes (honest : chips.Honest info) {p len : Nat}
    (written : Written info chips mem new p s) (some_words : 0 < len / info.portwidth)
    (same : ∀ k < len / info.portwidth * info.portwidth, src (off + k) = new (p + k))
    (unmixed : (∃ j < len / info.portwidth, ∀ i < info.portwidth,
      Fits mem new (p + (j * info.portwidth + i))) →
        (∀ k < len / info.portwidth * info.portwidth, Fits mem new (p + k)) ∧
          len / info.portwidth ≤ info.lines) :
    Comes info chips mem new (p + len / info.portwidth * info.portwidth)
      (flashWriteCfibuffer info chips src s p off len).1
      (flashWriteCfibuffer info chips src s p off len).2 := by
  have erased := erased_iff written same
  cases found : erasedLoop info s.mem src (len / info.portwidth) p off with
  | false =>
    rw [cfibuffer_refused chips found]
    have none_fits : ¬∀ i < info.portwidth, Fits mem new (p + (0 * info.portwidth + i)) := by
      intro fits
      rw [erased.mpr ⟨0, some_words, fits⟩] at found
      cases found
    obtain ⟨i, wrong⟩ := not_forall.mp none_fits
    obtain ⟨low, bad⟩ := Classical.not_imp.mp wrong
    refine .inr (.inl ⟨rfl, ?_, written.issued⟩)
    exact ⟨_, Nat.add_lt_add_left (word_inside some_words low) p, bad⟩
  | true =>
    obtain ⟨all, room⟩ := unmixed (erased.mp found)
    have issued := issue_comes honest written
      (bufferOp info src p off (len / info.portwidth)) rfl
    rw [bufferOp_size, bufferOp_words] at issued
    have stored := issued (by
      intro k low
      rw [bufferOp_byte info src p off low, same k low]) all
      ((announced_iff info src p off some_words).mpr room)
    by_cases offered : ¬(info.vendor.isIntel = true ∧ (!(chips s.ops.length).available) = true)
    · rw [cfibuffer_found offered found]
      exact stored
    have unavailable := not_not.mp offered
    rw [flashWriteCfibuffer, len_shift, found, if_neg Bool.noConfusion, if_pos unavailable]
    refine .inr (.inr ⟨nofun, fun flawless => ?_⟩)
    rw [(flawless s.ops.length).1] at unavailable
    exact Bool.noConfusion unavailable.2

variable {wp left : Nat}

/-- Where the part of the aligned words that lies in block `j` starts. -/
def chunkStart (info : Info) (addr j : Nat) : Nat :=
  max (firstWord info addr) (j * info.bufferedSize)

def chunkEnd (info : Info) (addr cnt j : Nat) : Nat :=
  min (addr + cnt - (addr + cnt) % info.portwidth) ((j + 1) * info.bufferedSize)

/-- If one of the words in block `j` fits then all do, and they can be announced; where all before
them fits. -/
def ChunkOk (info : Info) (mem new : Mem) (addr cnt j : Nat) : Prop :=
  (∀ a < chunkStart info addr j, Fits mem new a) →
    (∃ w, chunkStart info addr j ≤ w ∧ w + info.portwidth ≤ chunkEnd info addr cnt j ∧
      w % info.portwidth = 0 ∧ ∀ i < info.portwidth, Fits mem new (w + i)) →
    (∀ a, chunkStart info addr j ≤ a → a < chunkEnd info addr cnt j → Fits mem new a) ∧
      (chunkEnd info addr cnt j - chunkStart info addr j) / info.portwidth ≤ info.lines

structure AtChunk (info : Info) (addr cnt wp off left : Nat) : Prop
    extends Placed info addr cnt wp off left where
  first : firstWord info addr ≤ wp
  boundary : info.portwidth ≤ left → wp = firstWord info addr ∨ wp % info.bufferedSize = 0

structure NextChunk (info : Info) (addr cnt wp left : Nat) : Prop where
  some_words : 0 < chunkSize info wp left / info.portwidth
  inside : chunkSize info wp left / info.portwidth * info.portwidth ≤ left
  start : chunkStart info addr (wp / info.bufferedSize) = wp
  stop : chunkEnd info addr cnt (wp / info.bufferedSize) =
    wp + chunkSize info wp left / info.portwidth * info.portwidth
  boundary : info.portwidth ≤ left - chunkSize info wp left / info.portwidth * info.portwidth →
    (wp + chunkSize info wp left / info.portwidth * info.portwidth) % info.bufferedSize = 0

lemma NextChunk.progress {wp left : Nat} (next : NextChunk info addr cnt wp left) :
    0 < chunkSize info wp left / info.portwidth * info.portwidth :=
  mul_pos next.some_words (portwidth_pos info)

lemma lastWord_eq (aligned : wp % info.portwidth = 0) (stop : wp + left = addr + cnt) :
    addr + cnt - (addr + cnt) % info.portwidth =
      wp + left / info.portwidth * info.portwidth := by
  have rest : (wp + left) % info.portwidth = left % info.portwidth := by
    rw [Nat.add_mod, aligned, zero_add, Nat.mod_mod]
  have parts := Nat.div_add_mod' left info.portwidth
  rw [← stop, rest]
  omega

lemma AtChunk.next {wp off left : Nat} (whole : info.WholeWords)
    (at_chunk : AtChunk info addr cnt wp off left) (long : info.portwidth ≤ left) :
    NextChunk info addr cnt wp left := by
  have pos := portwidth_pos info
  have size := bufferedSize_eq whole
  have words_pos := bufferWords_pos info
  have some_left : left ≠ 0 := by omega
  have last := lastWord_eq at_chunk.aligned (at_chunk.stop some_left)
  have first := at_chunk.first
  have boundary := at_chunk.boundary long
  have block := Nat.div_add_mod' wp info.bufferedSize
  have next_block : (wp / info.bufferedSize + 1) * info.bufferedSize =
      wp / info.bufferedSize * info.bufferedSize + info.bufferedSize := Nat.succ_mul _ _
  have start : chunkStart info addr (wp / info.bufferedSize) = wp := by
    unfold chunkStart
    rcases boundary with at_first | whole
    · omega
    · omega
  -- where the chunk starts in its block, in words
  have in_block : wp % info.bufferedSize =
      wp / info.portwidth % info.bufferWords * info.portwidth := by
    have whole := Nat.div_add_mod' wp info.portwidth
    rw [at_chunk.aligned, add_zero] at whole
    rw [size, ← Nat.mul_mod_mul_right, whole]
  have low := Nat.mod_lt (wp / info.portwidth) words_pos
  set t := wp / info.portwidth % info.bufferWords
  by_cases short : left < info.bufferedSize - wp % info.bufferedSize
  · have chunk : chunkSize info wp left = left := if_pos short
    have parts := Nat.div_add_mod' left info.portwidth
    have part_lt := Nat.mod_lt left pos
    refine ⟨?_, ?_, start, ?_, ?_⟩
    · rw [chunk]
      exact Nat.div_pos long pos
    · rw [chunk]
      omega
    · rw [chunk, chunkEnd, last, next_block]
      omega
    · rw [chunk]
      intro more
      omega
  have chunk : chunkSize info wp left = (info.bufferWords - t) * info.portwidth := by
    rw [Nat.sub_mul, ← size, ← in_block]
    exact if_neg short
  have words : chunkSize info wp left / info.portwidth = info.bufferWords - t := by
    rw [chunk, Nat.mul_div_cancel _ pos]
  have bytes : (info.bufferWords - t) * info.portwidth =
      info.bufferedSize - wp % info.bufferedSize := by
    rw [Nat.sub_mul, ← size, ← in_block]
  have not_last : info.bufferWords - t ≤ left / info.portwidth := by
    rw [Nat.le_div_iff_mul_le pos, bytes]
    omega
  have not_last' := Nat.mul_le_mul_right info.portwidth not_last
  have in_size : wp % info.bufferedSize < info.bufferedSize := by
    rw [in_block, size]
    exact Nat.mul_lt_mul_of_pos_right low pos
  refine ⟨?_, ?_, start, ?_, ?_⟩
  · rw [words]
    omega
  · rw [words, bytes]
    omega
  · rw [words, chunkEnd, last, next_block]
    omega
  · intro _
    have behind : wp + (info.bufferWords - t) * info.portwidth =
        (wp / info.bufferedSize + 1) * info.bufferedSize := by
      rw [bytes, next_block]
      omega
    rw [words, behind]
    exact Nat.mul_mod_left _ _

lemma AtChunk.advance (whole : info.WholeWords) (at_chunk : AtChunk info addr cnt wp off left)
    (long : info.portwidth ≤ left) :
    AtChunk info addr cnt (wp + chunkSize info wp left / info.portwidth * info.portwidth)
      (off + chunkSize info wp left / info.portwidth * info.portwidth)
      (left - chunkSize info wp left / info.portwidth * info.portwidth) := by
  have pos := portwidth_pos info
  have next := at_chunk.next whole long
  have start := at_chunk.start (by omega)
  have stop := at_chunk.stop (by omega)
  constructor
  · constructor
    · rw [Nat.add_mul_mod_self_right]
      exact at_chunk.aligned
    · omega
    · omega
    · omega
  · exact at_chunk.first.trans (Nat.le_add_right _ _)
  · intro more
    exact .inr (next.boundary more)

lemma NextChunk.ok_iff (next : NextChunk info addr cnt wp left) (aligned : wp % info.portwidth = 0)
    (before : ∀ a < wp, Fits mem new a) :
    ChunkOk info mem new addr cnt (wp / info.bufferedSize) ↔
      ((∃ j < chunkSize info wp left / info.portwidth, ∀ i < info.portwidth,
        Fits mem new (wp + (j * info.portwidth + i))) →
          (∀ k < chunkSize info wp left / info.portwidth * info.portwidth,
            Fits mem new (wp + k)) ∧ chunkSize info wp left / info.portwidth ≤ info.lines) := by
  have pos := portwidth_pos info
  rw [ChunkOk, next.start, next.stop, Nat.add_sub_cancel_left, Nat.mul_div_cancel _ pos]
  set n := chunkSize info wp left / info.portwidth
  constructor
  · rintro ok ⟨j, low, fits⟩
    obtain ⟨all, room⟩ := ok before ⟨wp + j * info.portwidth, Nat.le_add_right _ _, by
      have := Nat.mul_le_mul_right info.portwidth (Nat.succ_le_of_lt low)
      rw [Nat.succ_mul] at this
      omega, by
      rw [Nat.add_mul_mod_self_right]
      exact aligned, by
      intro i inside
      rw [add_assoc]
      exact fits i inside⟩
    refine ⟨fun k inside => ?_, room⟩
    exact all _ (Nat.le_add_right _ _) (Nat.add_lt_add_left inside wp)
  · rintro ok - ⟨w, low, high, whole, fits⟩
    obtain ⟨d, rfl⟩ := Nat.exists_eq_add_of_le low
    -- the word that fits is a whole number of words behind `wp`
    have words : d / info.portwidth * info.portwidth = d := by
      rw [Nat.add_mod, aligned, zero_add, Nat.mod_mod] at whole
      exact Nat.div_mul_cancel (Nat.dvd_of_mod_eq_zero whole)
    obtain ⟨all, room⟩ := ok ⟨d / info.portwidth, by
      rw [Nat.div_lt_iff_lt_mul pos]
      omega, by
      intro i inside
      rw [words, ← add_assoc]
      exact fits i inside⟩
    refine ⟨fun a above below => ?_, room⟩
    obtain ⟨k, rfl⟩ := Nat.exists_eq_add_of_le above
    exact all k (Nat.lt_of_add_lt_add_left below)

lemma sub_land_portwidth (info : Info) (n : Nat) :
    n - (n &&& (info.portwidth - 1)) = n / info.portwidth * info.portwidth := by
  have parts := Nat.div_add_mod' n info.portwidth
  rw [land_portwidth]
  omega

lemma AtChunk.same (mem src : Mem) (whole : info.WholeWords)
    (at_chunk : AtChunk info addr cnt wp off left) (long : info.portwidth ≤ left) :
    ∀ k < chunkSize info wp left / info.portwidth * info.portwidth,
      src (off + k) = target mem src addr cnt (wp + k) := by
  have pos := portwidth_pos info
  have inside := (at_chunk.next whole long).inside
  have start := at_chunk.start (by omega)
  have stop := at_chunk.stop (by omega)
  intro k low
  rw [target_inside (by omega) (by omega)]
  congr 1
  omega

lemma AtChunk.cfibuffer_comes (honest : chips.Honest info) (whole : info.WholeWords)
    (written : Written info chips mem (target mem src addr cnt) wp s)
    (at_chunk : AtChunk info addr cnt wp off left) (long : info.portwidth ≤ left)
    (ok : ChunkOk info mem (target mem src addr cnt) addr cnt (wp / info.bufferedSize)) :
    Comes info chips mem (target mem src addr cnt)
      (wp + chunkSize info wp left / info.portwidth * info.portwidth)
      (flashWriteCfibuffer info chips src s wp off (chunkSize info wp left)).1
      (flashWriteCfibuffer info chips src s wp off (chunkSize info wp left)).2 := by
  have next := at_chunk.next whole long
  apply CfiFlash.cfibuffer_comes honest written next.some_words
  · exact at_chunk.same mem src whole long
  · exact (next.ok_iff at_chunk.aligned written.fits).mp ok

lemma bufferLoop_next (long : info.portwidth ≤ left)
    (ok : (flashWriteCfibuffer info chips src s wp off (chunkSize info wp left)).1 = .ok) :
    bufferLoop info chips src s wp off left = bufferLoop info chips src
      (flashWriteCfibuffer info chips src s wp off (chunkSize info wp left)).2
      (wp + chunkSize info wp left / info.portwidth * info.portwidth)
      (off + chunkSize info wp left / info.portwidth * info.portwidth)
      (left - chunkSize info wp left / info.portwidth * info.portwidth) := by
  rw [bufferLoop, if_neg (not_lt.mpr long)]
  rw [dif_neg (not_not.mpr ok), sub_land_portwidth]

lemma bufferLoop_failed (long : info.portwidth ≤ left)
    (failed : (flashWriteCfibuffer info chips src s wp off (chunkSize info wp left)).1 ≠ .ok) :
    bufferLoop info chips src s wp off left =
      ⟨(flashWriteCfibuffer info chips src s wp off (chunkSize info wp left)).1,
        (flashWriteCfibuffer info chips src s wp off (chunkSize info wp left)).2,
        wp, off, left⟩ := by
  rw [bufferLoop, if_neg (not_lt.mpr long)]
  exact dif_pos failed

lemma bufferLoop_done (info : Info) (chips : Chips) (src : Mem) (s : State) (wp off : Nat)
    (short : left < info.portwidth) :
    bufferLoop info chips src s wp off left = ⟨.ok, s, wp, off, left⟩ := by
  rw [bufferLoop, if_pos short]

lemma bufferLoop_comes (honest : chips.Honest info) (whole : info.WholeWords)
    (written : Written info chips mem (target mem src addr cnt) wp s)
    (at_chunk : AtChunk info addr cnt wp off left)
    (chunks : ∀ j, ChunkOk info mem (target mem src addr cnt) addr cnt j) :
    LoopComes info chips mem src addr cnt (bufferLoop info chips src s wp off left) := by
  induction left using Nat.strongRecOn generalizing s wp off with
  | ind left ih =>
    have pos := portwidth_pos info
    by_cases short : left < info.portwidth
    · rw [bufferLoop_done info chips src s wp off short]
      exact ⟨⟨wp, fun _ => rfl, .inl ⟨rfl, written⟩⟩, fun _ => at_chunk.toPlaced, fun _ => short⟩
    have long := not_lt.mp short
    have next := at_chunk.next whole long
    have progress := next.progress
    have buffer := at_chunk.cfibuffer_comes honest whole written long
      (chunks (wp / info.bufferedSize))
    by_cases ok : (flashWriteCfibuffer info chips src s wp off (chunkSize info wp left)).1 = .ok
    · rw [bufferLoop_next long ok]
      exact ih _ (by omega) (buffer.written ok) (at_chunk.advance whole long)
    · rw [bufferLoop_failed long ok]
      exact ⟨⟨_, fun h => absurd h ok, buffer⟩, fun h => absurd h ok, fun h => absurd h ok⟩

lemma Placed.atChunk (placed : Placed info addr cnt (firstWord info addr) off left) :
    AtChunk info addr cnt (firstWord info addr) off left :=
  ⟨placed, le_rfl, fun _ => .inl rfl⟩

end CfiFlash
