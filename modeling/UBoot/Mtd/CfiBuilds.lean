import UBoot.Mtd.CfiWiped

/-!
# Where buffers can be written

Where `write_buff` with buffer writes does what it should for all chips that do not hide an error.
Where it does not, there are chips that erase everything when they are told a wrong number of words,
and then let the rest of the write go through.
-/

namespace CfiFlash

open LittleEndian

variable {info : Info} {chips : Chips} {mem new src : Mem} {addr cnt : Nat}

inductive Writable (info : Info) (mem new : Mem) (addr cnt : Nat) : Prop where
  | words (one_byte : info.buffer_size = 1)
  | chunks (whole : info.WholeWords) (ok : ∀ j, ChunkOk info mem new addr cnt j)
  | noWord (none : addr + cnt - (addr + cnt) % info.portwidth ≤ firstWord info addr)
  | refused (short : ¬info.WholeWords) (bad : ∃ a, ¬Fits mem new a)

lemma bufferLoop_refused {left : Nat} (s : State) (wp off : Nat) (small : ¬info.WholeWords)
    (long : info.portwidth ≤ left) :
    bufferLoop info chips src s wp off left = ⟨.notErased, s, wp, off, left⟩ := by
  have chip_le := info.chip_le
  have small : info.bufferShift < info.chipShift := not_le.mp small
  have size : info.bufferedSize < info.portwidth := by
    unfold Info.bufferedSize Info.portwidth Info.chipwidth Info.buffer_size
    rw [Nat.pow_div chip_le (Nat.succ_pos 1), ← Nat.pow_add]
    exact Nat.pow_lt_pow_right (Nat.lt_succ_self 1) (by omega)
  have short : chunkSize info wp left < info.portwidth := by
    unfold chunkSize
    dsimp only
    split
    · omega
    · omega
  have refused := cfibuffer_short chips src s wp off short
  have failed : (flashWriteCfibuffer info chips src s wp off (chunkSize info wp left)).1 ≠ .ok := by
    rw [refused]
    exact Rc.noConfusion
  rw [bufferLoop_failed long failed, refused]

lemma bufferLoop_noWord {s : State} {off left : Nat}
    (written : Written info chips mem (target mem src addr cnt) (firstWord info addr) s)
    (placed : Placed info addr cnt (firstWord info addr) off left)
    (short : left < info.portwidth) : LoopComes info chips mem src addr cnt
      (bufferLoop info chips src s (firstWord info addr) off left) := by
  rw [bufferLoop_done info chips src s _ off short]
  exact ⟨⟨_, fun _ => rfl, .inl ⟨rfl, written⟩⟩, fun _ => placed, fun _ => short⟩

lemma Placed.short_iff {off left : Nat}
    (placed : Placed info addr cnt (firstWord info addr) off left) : left < info.portwidth ↔
      addr + cnt - (addr + cnt) % info.portwidth ≤ firstWord info addr := by
  have pos := portwidth_pos info
  by_cases none_left : left = 0
  · have finished := placed.finished none_left
    exact iff_of_true (by omega) (by omega)
  rw [lastWord_eq placed.aligned (placed.stop none_left), ← Nat.div_eq_zero_iff_lt pos]
  constructor
  · intro zero
    rw [zero, zero_mul]
    exact le_rfl
  · intro low
    have zero : left / info.portwidth * info.portwidth = 0 := by omega
    exact (Nat.mul_eq_zero.mp zero).resolve_right (Nat.ne_of_gt pos)

lemma Writable.writeOk (honest : chips.Honest info)
    (writable : Writable info mem (target mem src addr cnt) addr cnt) :
    WriteOk info chips mem src addr cnt (writeBuff true info chips src ⟨mem, []⟩ addr cnt) := by
  by_cases words : info.buffer_size = 1
  · exact words_writeOk honest true fun _ => words
  obtain ⟨q, all, comes⟩ := writeBuff_comes mem src addr cnt honest true (by
      intro s off left written placed
      rw [writeAligned, if_pos ⟨rfl, words⟩]
      cases writable with
      | words one_byte => exact absurd one_byte words
      | chunks whole ok => exact bufferLoop_comes honest whole written placed.atChunk ok
      | noWord none => exact bufferLoop_noWord written placed (placed.short_iff.mpr none)
      | refused short bad =>
        by_cases long : info.portwidth ≤ left
        · rw [bufferLoop_refused s _ off short long]
          obtain ⟨a, bad⟩ := bad
          have failed : Rc.notErased ≠ .ok := Rc.noConfusion
          refine ⟨⟨a + 1, fun ok => absurd ok failed, .inr (.inl ⟨rfl, ?_, written.issued⟩)⟩,
            fun ok => absurd ok failed, fun ok => absurd ok failed⟩
          exact ⟨a, Nat.lt_succ_self a, bad⟩
        · exact bufferLoop_noWord written placed (not_le.mp long))
  exact comes.writeOk all

lemma WipedLoop.not_writeOk {x : Nat} {r : Progress} (wipes : chips.Wiping info mem x)
    (loop : WipedLoop info mem addr cnt x r) (far : addr + cnt + info.portwidth ≤ x) :
    ¬WriteOk info chips mem src addr cnt
      (if r.rc ≠ .ok then (r.rc, r.s) else writeTail info chips src r) := by
  intro result
  obtain ⟨ok, changed⟩ := writeTail_wiped src wipes loop far
  rw [if_neg (not_not.mpr loop.ok)] at result
  have kept := congrFun (result.stored ok) x
  rw [target_outside (.inr (by omega))] at kept
  exact changed kept

lemma writeBuff_head (buffered : Bool) {h : Progress}
    (head : writeHead info chips src ⟨mem, []⟩ (addr - addr % info.portwidth)
      (addr % info.portwidth) cnt = h) (ok : h.rc = .ok) :
    writeBuff buffered info chips src ⟨mem, []⟩ addr cnt =
      let p := writeAligned buffered info chips src h.s h.wp h.off h.cnt
      if p.rc ≠ .ok then (p.rc, p.s) else writeTail info chips src p := by
  unfold writeBuff
  dsimp only
  rw [land_portwidth, head, if_neg (not_not.mpr ok)]

lemma writable_of_writeOk (all : ∀ chips : Chips, chips.Honest info → WriteOk info chips mem src
    addr cnt (writeBuff true info chips src ⟨mem, []⟩ addr cnt)) :
    Writable info mem (target mem src addr cnt) addr cnt := by
  by_cases one_byte : info.buffer_size = 1
  · exact .words one_byte
  by_cases none : addr + cnt - (addr + cnt) % info.portwidth ≤ firstWord info addr
  · exact .noWord none
  let x := addr + cnt + info.portwidth
  have flawless : (wiping mem x 0).Flawless := fun _ => ⟨rfl, rfl, rfl⟩
  have wipes : (wiping mem x 0).Wiping info mem x := wiping_wiping (.inr rfl)
  have honest : (wiping mem x 0).Honest info := flawless.honest
  have result := all (wiping mem x 0) honest
  obtain ⟨head, wp, placed⟩ := writeHead_comes mem src addr cnt honest
  set h := writeHead info (wiping mem x 0) src ⟨mem, []⟩ (addr - addr % info.portwidth)
    (addr % info.portwidth) cnt
  have rest (ok : h.rc = .ok) : writeBuff true info (wiping mem x 0) src ⟨mem, []⟩ addr cnt = _ :=
    writeBuff_head true rfl ok
  have aligned : writeAligned true info (wiping mem x 0) src h.s (firstWord info addr) h.off
      h.cnt = bufferLoop info (wiping mem x 0) src h.s (firstWord info addr) h.off h.cnt :=
    if_pos ⟨rfl, one_byte⟩
  rw [wp, aligned] at rest
  have long := not_lt.mp (mt placed.short_iff.mp none)
  by_cases whole : info.WholeWords
  · refine .chunks whole fun j => ?_
    have behind : firstWord info addr ≤ chunkStart info addr j := Nat.le_max_left _ _
    rcases head with ⟨ok, written⟩ | ⟨-, ⟨a, before, bad⟩, -⟩ | ⟨-, fails⟩
    · rw [rest ok] at result
      dsimp only at result
      refine bufferLoop_exact wipes honest whole le_rfl written placed.atChunk ?_ ?_ behind
      · intro op there
        apply result.issued flawless op
        split
        · exact there
        · exact writeTail_ops _ _ _ _ there
      · intro loop
        exact loop.not_writeOk wipes (Nat.le_refl x) result
    · exact chunkOk_of_bad (lt_of_lt_of_le before behind) bad
    · exact absurd flawless fails
  · refine .refused whole ?_
    rcases head with ⟨ok, -⟩ | ⟨-, ⟨a, -, bad⟩, -⟩ | ⟨-, fails⟩
    · rw [rest ok, bufferLoop_refused h.s _ h.off whole long] at result
      exact exists_bad_iff.mpr ((result.erased flawless).mp rfl)
    · exact ⟨a, bad⟩
    · exact absurd flawless fails

end CfiFlash

/-!
## The two builds of `write_buff`

Chips of Intel's may be ready and yet have error bits in their status. `flash_full_status_check`
does not look at these, so that all is well with such chips only where nothing is programmed.
-/

namespace CfiFlash

variable {info : Info} {chips : Chips} {mem new src : Mem} {addr cnt x : Nat} {s : State}

def Idle (info : Info) (mem new : Mem) (addr cnt : Nat) : Prop :=
  (addr % info.portwidth = 0 ∧ cnt = 0) ∨
    ∃ i < info.portwidth, ¬Fits mem new (addr - addr % info.portwidth + i)

lemma cfiword_refused {p i : Nat} (written : Written info chips mem new p s) {bytes : List UInt8}
    (length : bytes.length = info.portwidth)
    (at_i : ∀ i < info.portwidth, bytes.getD i 0 = new (p + i)) (inside : i < info.portwidth)
    (bad : ¬Fits mem new (p + i)) :
    flashWriteCfiword info chips s p (cwordOf info bytes) = (.notErased, s) := by
  have erased := cfiword_erased_iff written length at_i
  exact if_neg fun fits => bad (erased.mp fits i inside)

lemma writeAligned_done (buffered : Bool) (info : Info) (chips : Chips) (src : Mem) (s : State)
    (wp off : Nat) {left : Nat} (short : left < info.portwidth) :
    writeAligned buffered info chips src s wp off left = ⟨.ok, s, wp, off, left⟩ := by
  unfold writeAligned
  split
  · exact bufferLoop_done info chips src s wp off short
  · exact wordLoop_done info chips src s wp off short

lemma writeAligned_refused {i : Nat} (buffered : Bool)
    (writable : buffered = true → Writable info mem (target mem src addr cnt) addr cnt)
    (written : Written info chips mem (target mem src addr cnt) addr s)
    (aligned : addr % info.portwidth = 0) (long : info.portwidth ≤ cnt)
    (inside : i < info.portwidth) (bad : ¬Fits mem (target mem src addr cnt) (addr + i)) :
    writeAligned buffered info chips src s addr 0 cnt = ⟨.notErased, s, addr, 0, cnt⟩ := by
  have first : firstWord info addr = addr := if_pos aligned
  have placed : Placed info addr cnt (firstWord info addr) 0 cnt := by
    rw [first]
    exact placed_start cnt aligned
  have word := cfiword_refused written (bytesOf_length src 0 info.portwidth)
    ((placed_start cnt aligned).word long) inside bad
  by_cases words : buffered = true ∧ info.buffer_size ≠ 1
  · rw [writeAligned, if_pos words]
    cases writable words.1 with
    | words one_byte => exact absurd one_byte words.2
    | noWord none => exact absurd (placed.short_iff.mpr none) (not_lt.mpr long)
    | refused short => exact bufferLoop_refused s addr 0 short long
    | chunks whole ok =>
      have at_chunk := placed.atChunk
      rw [first] at at_chunk
      have next := at_chunk.next whole long
      have unmixed := (next.ok_iff aligned written.fits).mp (ok _)
      have erased := erased_iff written (at_chunk.same mem src whole long)
      have refused : erasedLoop info s.mem src (chunkSize info addr cnt / info.portwidth) addr 0 =
          false := by
        apply Bool.eq_false_of_not_eq_true
        intro found
        refine bad ((unmixed (erased.mp found)).1 i ?_)
        have := Nat.mul_le_mul_right info.portwidth (Nat.succ_le_of_lt next.some_words)
        omega
      have result := cfibuffer_refused chips refused
      have failed : (flashWriteCfibuffer info chips src s addr 0 (chunkSize info addr cnt)).1 ≠
          .ok := by
        rw [result]
        exact Rc.noConfusion
      rw [bufferLoop_failed long failed, result]
  · have failed : (flashWriteCfiword info chips s addr
        (cwordOf info (bytesOf src 0 info.portwidth))).1 ≠ .ok := by
      rw [word]
      exact Rc.noConfusion
    rw [writeAligned, if_neg words, wordLoop_failed long failed, word]

lemma Idle.result (idle : Idle info mem (target mem src addr cnt) addr cnt) (chips : Chips)
    (buffered : Bool)
    (writable : buffered = true → Writable info mem (target mem src addr cnt) addr cnt) :
    (cnt = 0 ∧ writeBuff buffered info chips src ⟨mem, []⟩ addr cnt = (.ok, ⟨mem, []⟩)) ∨
      ((∃ k < cnt, mem (addr + k) &&& src k ≠ src k) ∧
        writeBuff buffered info chips src ⟨mem, []⟩ addr cnt = (.notErased, ⟨mem, []⟩)) := by
  have pos := portwidth_pos info
  have start := written_start info chips mem src addr cnt
  rcases idle with ⟨aligned, rfl⟩ | ⟨i, inside, bad⟩
  · have head := writeHead_aligned info chips src ⟨mem, []⟩ addr 0
    left
    refine ⟨rfl, ?_⟩
    rw [writeBuff_head buffered (h := ⟨.ok, ⟨mem, []⟩, addr, 0, 0⟩)
      (by rw [aligned]; exact head) rfl,
      writeAligned_done buffered info chips src ⟨mem, []⟩ addr 0 pos]
    rfl
  have bad_byte := exists_bad_iff.mp ⟨_, bad⟩
  right
  refine ⟨bad_byte, ?_⟩
  by_cases aligned : addr % info.portwidth = 0
  · have head := writeHead_aligned info chips src ⟨mem, []⟩ addr cnt
    rw [aligned, Nat.sub_zero] at start bad
    rw [writeBuff_head buffered (h := ⟨.ok, ⟨mem, []⟩, addr, 0, cnt⟩)
      (by rw [aligned]; exact head) rfl]
    by_cases short : cnt < info.portwidth
    · obtain ⟨k, low, -⟩ := bad_byte
      have some_left : cnt ≠ 0 := Nat.ne_of_gt (Nat.zero_lt_of_lt low)
      rw [writeAligned_done buffered info chips src ⟨mem, []⟩ addr 0 short]
      have word := cfiword_refused start
        (tailBytes_length info src (p := ⟨.ok, ⟨mem, []⟩, addr, 0, cnt⟩) short)
        (tailBytes (p := ⟨.ok, ⟨mem, []⟩, addr, 0, cnt⟩) start (placed_start cnt aligned)
          some_left) inside bad
      exact (if_neg some_left).trans word
    · rw [writeAligned_refused buffered writable start aligned (not_lt.mp short) inside bad]
      rfl
  · obtain ⟨n, bytes, head⟩ := headWord mem src cnt aligned
    have word := cfiword_refused start head.length head.at_i inside bad
    have result := head.result chips
    rw [word] at result
    unfold writeBuff
    dsimp only
    rw [land_portwidth, result]
    rfl

lemma Idle.writeOk (idle : Idle info mem (target mem src addr cnt) addr cnt) (chips : Chips)
    (buffered : Bool)
    (writable : buffered = true → Writable info mem (target mem src addr cnt) addr cnt) :
    WriteOk info chips mem src addr cnt (writeBuff buffered info chips src ⟨mem, []⟩ addr cnt) := by
  rcases idle.result chips buffered writable with ⟨rfl, result⟩ | ⟨bad, result⟩
  · rw [result]
    refine ⟨fun _ => ?_, nofun, fun _ => ?_, nofun⟩
    · funext a
      exact (target_outside (lt_or_ge a addr)).symm
    · refine iff_of_false Rc.noConfusion ?_
      rintro ⟨k, low, -⟩
      exact Nat.not_lt_zero k low
  · rw [result]
    exact ⟨nofun, nofun, fun _ => iff_of_true rfl bad, nofun⟩

lemma cfiword_error {p : Nat} (wipes : chips.Wiping info mem x)
    (error : (chips s.ops.length).errors ≠ 0) (written : Written info chips mem new p s)
    {bytes : List UInt8} (length : bytes.length = info.portwidth)
    (at_i : ∀ i < info.portwidth, bytes.getD i 0 = new (p + i))
    (fits : ∀ i < info.portwidth, Fits mem new (p + i)) (q : Nat) :
    (flashWriteCfiword info chips s p (cwordOf info bytes)).1 = .ok ∧
      Wiped mem x q (flashWriteCfiword info chips s p (cwordOf info bytes)).2 := by
  have erased := (cfiword_erased_iff written length at_i).mpr fits
  rw [flashWriteCfiword, if_pos erased]
  exact ⟨wipes.settled _, wipes.start (.inl error)⟩

lemma wordLoop_wiped (src : Mem) (wipes : chips.Wiping info mem x) {wp off left : Nat}
    (wiped : Wiped mem x wp s) (placed : Placed info addr cnt wp off left)
    (far : addr + cnt + info.portwidth ≤ x) :
    WipedLoop info mem addr cnt x (wordLoop info chips src s wp off left) := by
  induction left using Nat.strongRecOn generalizing s wp off with
  | ind left ih =>
    have pos := portwidth_pos info
    by_cases short : left < info.portwidth
    · rw [wordLoop_done info chips src s wp off short]
      exact ⟨rfl, wiped, placed, short⟩
    have long := not_lt.mp short
    have stop := placed.stop (by omega)
    obtain ⟨ok, later⟩ := cfiword_wiped wipes wiped (by omega)
      (bytesOf_length src off info.portwidth)
    rw [wordLoop_next long ok]
    exact ih _ (by omega) later (placed.advance long)

lemma idle_of_writeOk (intel : info.vendor.isIntel = true)
    (all : ∀ chips : Chips, WriteOk info chips mem src addr cnt
      (writeBuff false info chips src ⟨mem, []⟩ addr cnt)) :
    Idle info mem (target mem src addr cnt) addr cnt := by
  apply Classical.byContradiction
  intro busy
  obtain ⟨something, no_bad⟩ := not_or.mp busy
  have fits : ∀ i < info.portwidth,
      Fits mem (target mem src addr cnt) (addr - addr % info.portwidth + i) :=
    fun i inside => Classical.byContradiction fun bad => no_bad ⟨i, inside, bad⟩
  let x := addr + cnt + info.portwidth
  have wipes : (wiping mem x 1).Wiping info mem x := wiping_wiping (.inl intel)
  have error (k : Nat) : (wiping mem x 1 k).errors ≠ 0 := Nat.one_ne_zero
  have start := written_start info (wiping mem x 1) mem src addr cnt
  have result := all (wiping mem x 1)
  have words {s : State} {wp off left : Nat} : writeAligned false info (wiping mem x 1) src s wp
      off left = wordLoop info (wiping mem x 1) src s wp off left := if_neg fun h =>
    Bool.noConfusion h.1
  by_cases aligned : addr % info.portwidth = 0
  · have head := writeHead_aligned info (wiping mem x 1) src ⟨mem, []⟩ addr cnt
    have placed := placed_start cnt aligned
    have some_left : cnt ≠ 0 := fun none_left => something ⟨aligned, none_left⟩
    rw [aligned, Nat.sub_zero] at start fits
    rw [writeBuff_head false (h := ⟨.ok, ⟨mem, []⟩, addr, 0, cnt⟩)
      (by rw [aligned]; exact head) rfl, words] at result
    by_cases short : cnt < info.portwidth
    · rw [wordLoop_done info _ src ⟨mem, []⟩ addr 0 short] at result
      obtain ⟨ok, wiped⟩ := cfiword_error wipes (error _) start
        (tailBytes_length info src (p := ⟨.ok, ⟨mem, []⟩, addr, 0, cnt⟩) short)
        (tailBytes (p := ⟨.ok, ⟨mem, []⟩, addr, 0, cnt⟩) start placed some_left) fits 0
      have tail : writeTail info (wiping mem x 1) src ⟨.ok, ⟨mem, []⟩, addr, 0, cnt⟩ = _ :=
        if_neg some_left
      rw [if_neg (not_not.mpr rfl), tail] at result
      have kept := congrFun (result.stored ok) x
      rw [target_outside (.inr (Nat.le_add_right _ _))] at kept
      exact wiped.changed kept
    · have long := not_lt.mp short
      obtain ⟨ok, wiped⟩ := cfiword_error wipes (error _) start
        (bytesOf_length src 0 info.portwidth) (placed.word long) fits (addr + info.portwidth)
      have loop := wordLoop_wiped src wipes wiped (placed.advance long) (Nat.le_refl x)
      rw [wordLoop_next long ok] at result
      exact loop.not_writeOk wipes (Nat.le_refl x) result
  · obtain ⟨n, bytes, head⟩ := headWord mem src cnt aligned
    obtain ⟨ok, wiped⟩ := cfiword_error wipes (error _) start head.length head.at_i fits
      (firstWord info addr)
    have loop := wordLoop_wiped src wipes wiped head.placed (Nat.le_refl x)
    rw [writeBuff_head false (head.result _) ok, words] at result
    exact loop.not_writeOk wipes (Nat.le_refl x) result

structure BuildsOk (info : Info) (chips chips' : Chips) (mem src : Mem) (addr cnt : Nat) :
    Prop where
  words : WriteOk info chips mem src addr cnt
    (writeBuff false info chips src ⟨mem, []⟩ addr cnt)
  buffers : WriteOk info chips' mem src addr cnt
    (writeBuff true info chips' src ⟨mem, []⟩ addr cnt)
  same : (writeBuff false info chips src ⟨mem, []⟩ addr cnt).1 = .ok →
    (writeBuff true info chips' src ⟨mem, []⟩ addr cnt).1 = .ok →
      (writeBuff false info chips src ⟨mem, []⟩ addr cnt).2.mem =
        (writeBuff true info chips' src ⟨mem, []⟩ addr cnt).2.mem

lemma BuildsOk.of_both {chips' : Chips} (words : WriteOk info chips mem src addr cnt
      (writeBuff false info chips src ⟨mem, []⟩ addr cnt))
    (buffers : WriteOk info chips' mem src addr cnt
      (writeBuff true info chips' src ⟨mem, []⟩ addr cnt)) :
    BuildsOk info chips chips' mem src addr cnt where
  words := words
  buffers := buffers
  same ok ok' := by rw [words.stored ok, buffers.stored ok']

/-- The builds do what they should with all honest chips exactly where the flash is writable, and
with all chips if, besides, nothing is programmed when they are Intel's. -/
theorem builds_ok_iff (info : Info) (mem src : Mem) (addr cnt : Nat) :
    ((∀ chips chips' : Chips, chips.Honest info → chips'.Honest info →
      BuildsOk info chips chips' mem src addr cnt) ↔
        Writable info mem (target mem src addr cnt) addr cnt) ∧
    ((∀ chips chips' : Chips, BuildsOk info chips chips' mem src addr cnt) ↔
      Writable info mem (target mem src addr cnt) addr cnt ∧
        (info.vendor.isIntel = true → Idle info mem (target mem src addr cnt) addr cnt)) := by
  have honest_iff : (∀ chips chips' : Chips, chips.Honest info → chips'.Honest info →
      BuildsOk info chips chips' mem src addr cnt) ↔
        Writable info mem (target mem src addr cnt) addr cnt := by
    constructor
    · intro builds
      exact writable_of_writeOk fun chips honest => (builds chips chips honest honest).buffers
    · intro writable chips chips' honest honest'
      exact .of_both (words_writeOk honest false Bool.noConfusion) (writable.writeOk honest')
  refine ⟨honest_iff, ?_⟩
  constructor
  · intro builds
    refine ⟨honest_iff.mp fun chips chips' _ _ => builds chips chips', fun intel => ?_⟩
    exact idle_of_writeOk intel fun chips => (builds chips chips).words
  · rintro ⟨writable, idle⟩ chips chips'
    by_cases intel : info.vendor.isIntel = true
    · exact .of_both ((idle intel).writeOk chips false Bool.noConfusion)
        ((idle intel).writeOk chips' true fun _ => writable)
    · exact honest_iff.mpr writable chips chips' (fun h => absurd h intel)
        (fun h => absurd h intel)

/-- A buffer whose second word fits is programmed with its first, which does not. And a word that an
Intel chip could not program counts as written. -/
theorem builds_differ :
    let buffers : Info := ⟨0, 0, Nat.le_refl 0, 1, .amdStandard⟩
    let sound : Chips := fun _ => ⟨true, true, 0, 0, id⟩
    let used : Mem := fun a => if a = 0 then 0x00 else 0xff
    let data : Mem := fun k => if k = 0 then 0x01 else 0x00
    let words : Info := ⟨0, 0, Nat.le_refl 0, 0, .intelExtended⟩
    let worn : Chips := fun _ => ⟨true, true, 0x10, 0, id⟩
    let blank : Mem := fun _ => 0xff
    let zeros : Mem := fun _ => 0x00
    ((writeBuff false buffers sound data ⟨used, []⟩ 0 2).1 = .notErased ∧
      (writeBuff true buffers sound data ⟨used, []⟩ 0 2).1 = .ok ∧
      ¬BuildsOk buffers sound sound used data 0 2) ∧
    ((writeBuff false words worn zeros ⟨blank, []⟩ 0 1).1 = .ok ∧
      (writeBuff false words worn zeros ⟨blank, []⟩ 0 1).2.mem 0 = 0xff ∧
      ¬BuildsOk words worn worn blank zeros 0 1) := by
  intro buffers sound used data words worn blank zeros
  have refused : (writeBuff false buffers sound data ⟨used, []⟩ 0 2).1 = .notErased := by
    decide +kernel
  have programmed : (writeBuff true buffers sound data ⟨used, []⟩ 0 2).1 = .ok := by
    decide +kernel
  have unchanged : (writeBuff true buffers sound data ⟨used, []⟩ 0 2).2.mem 0 = 0x00 := by
    decide +kernel
  have counted : (writeBuff false words worn zeros ⟨blank, []⟩ 0 1).1 = .ok := by
    decide +kernel
  have still_blank : (writeBuff false words worn zeros ⟨blank, []⟩ 0 1).2.mem 0 = 0xff := by
    decide +kernel
  refine ⟨⟨refused, programmed, ?_⟩, counted, still_blank, ?_⟩
  · intro ok
    rw [ok.buffers.stored programmed] at unchanged
    exact absurd unchanged (by decide)
  · intro ok
    rw [ok.words.stored counted] at still_blank
    exact absurd still_blank (by decide)

end CfiFlash
