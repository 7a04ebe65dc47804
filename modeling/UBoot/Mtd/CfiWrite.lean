import UBoot.Mtd.CfiFlash

/-!
# What `write_buff` leaves in the flash

Each part of `write_buff` either has stored its bytes, or stops at a word that is not erased, or
stops because the chips failed. For words this holds as it stands, for buffers only where the check
of the buffer finds what is not erased.
-/

namespace CfiFlash

open LittleEndian

variable {info : Info} {chips : Chips} {mem new : Mem}

def target (mem src : Mem) (addr cnt : Nat) : Mem := fun a =>
  if addr ≤ a ∧ a < addr + cnt then src (a - addr) else mem a

def Fits (mem new : Mem) (a : Nat) : Prop := mem a &&& new a = new a

def Op.Fits (info : Info) (mem : Mem) (op : Op) : Prop :=
  ∀ k < op.size info, mem (op.dest + k) &&& op.byte info k = op.byte info k

/-- Chips of Intel's that are ready have done what they were told. Those of AMD's are not ready
when there is an error. -/
def Chips.Honest (info : Info) (chips : Chips) : Prop :=
  info.vendor.isIntel = true → ∀ k, (chips k).ready = true → (chips k).errors = 0

def Chips.Flawless (chips : Chips) : Prop :=
  ∀ k, (chips k).available = true ∧ (chips k).ready = true ∧ (chips k).errors = 0

lemma Chips.Flawless.honest (flawless : chips.Flawless) : chips.Honest info :=
  fun _ k _ => (flawless k).2.2

structure Written (info : Info) (chips : Chips) (mem new : Mem) (p : Nat) (s : State) : Prop where
  contents : ∀ a, s.mem a = if a < p then new a else mem a
  fits : ∀ a < p, Fits mem new a
  issued : ∀ op ∈ s.ops, op.Fits info mem
  clean : ∀ k < s.ops.length, (chips k).errors = 0

/-- What a part of `write_buff` that ends at `q` comes to. -/
def Comes (info : Info) (chips : Chips) (mem new : Mem) (q : Nat) (rc : Rc) (s : State) : Prop :=
  (rc = .ok ∧ Written info chips mem new q s) ∨
    (rc = .notErased ∧ (∃ a < q, ¬Fits mem new a) ∧ ∀ op ∈ s.ops, op.Fits info mem) ∨
    (rc ≠ .ok ∧ ¬chips.Flawless)

variable {s : State}

lemma fullStatusCheck_eq_ok (info : Info) (r : Reaction) : flashFullStatusCheck info r = .ok ↔
    r.ready = true ∧ (info.vendor.isIntel = true ∨ r.errors = 0) := by
  unfold flashFullStatusCheck
  dsimp only
  have status : flashStatusCheck info r = .ok ↔
      r.ready = true ∧ (info.vendor.isIntel = true ∨ r.errors = 0) := by
    unfold flashStatusCheck
    split
    · rename_i settled
      exact iff_of_true rfl settled
    · rename_i busy
      exact iff_of_false nofun busy
  rw [← status]
  split
  · split
    · rename_i failed
      refine iff_of_false ?_ failed.1
      split
      · exact nofun
      split
      · exact nofun
      split
      · exact nofun
      · exact nofun
    · exact Iff.rfl
  · exact Iff.rfl

lemma issue_comes (honest : chips.Honest info) {p : Nat} (written : Written info chips mem new p s)
    (op : Op) (here : op.dest = p) (bytes : ∀ k < op.size info, op.byte info k = new (p + k))
    (fits : ∀ k < op.size info, Fits mem new (p + k)) (in_step : op.announced = op.words.length) :
    Comes info chips mem new (p + op.size info) (flashFullStatusCheck info (chips s.ops.length))
      (s.issue info chips op) := by
  by_cases settled : flashFullStatusCheck info (chips s.ops.length) = .ok
  · obtain ⟨ready, status⟩ := (fullStatusCheck_eq_ok info _).mp settled
    have no_error : (chips s.ops.length).errors = 0 := by
      rcases status with intel | no_error
      · exact honest intel _ ready
      · exact no_error
    refine .inl ⟨settled, ?_, ?_, ?_, ?_⟩
    · intro a
      have applied : (s.issue info chips op).mem = programmed info s.mem op :=
        if_pos ⟨ready, no_error, in_step⟩
      rw [applied, programmed, here, written.contents a]
      by_cases below : a < p
      · rw [if_neg (by omega), if_pos below, if_pos (by omega)]
      rw [if_neg below]
      by_cases inside : a < p + op.size info
      · obtain ⟨k, rfl⟩ := Nat.exists_eq_add_of_le (not_lt.mp below)
        have low : k < op.size info := by omega
        rw [if_pos ⟨by omega, inside⟩, if_pos inside, Nat.add_sub_cancel_left, bytes k low]
        exact fits k low
      · rw [if_neg (fun h => inside h.2), if_neg inside]
    · intro a low
      by_cases below : a < p
      · exact written.fits a below
      · obtain ⟨k, rfl⟩ := Nat.exists_eq_add_of_le (not_lt.mp below)
        exact fits k (by omega)
    · intro o there
      rcases List.mem_append.mp there with old | last
      · exact written.issued o old
      obtain rfl := List.mem_singleton.mp last
      intro k low
      rw [here, bytes k low]
      exact fits k low
    · intro k low
      have length : (s.issue info chips op).ops.length = s.ops.length + 1 :=
        List.length_append
      rcases Nat.lt_or_eq_of_le (Nat.le_of_lt_succ (length ▸ low)) with old | rfl
      · exact written.clean k old
      · exact no_error
  · refine .inr (.inr ⟨settled, fun flawless => settled ?_⟩)
    obtain ⟨-, ready, no_error⟩ := flawless s.ops.length
    exact (fullStatusCheck_eq_ok info _).mpr ⟨ready, .inr no_error⟩

variable {bytes : List UInt8}

lemma bytesOf_length (mem : Mem) (a n : Nat) : (bytesOf mem a n).length = n := by
  rw [bytesOf, List.length_map, List.length_range]

lemma bytesOf_get (mem : Mem) (a : Nat) {n i : Nat} (low : i < n) :
    (bytesOf mem a n).getD i 0 = mem (a + i) := by
  simp [bytesOf, low]

lemma cwordOf_eq (length : bytes.length = info.portwidth) :
    cwordOf info bytes = word info.portwidth fun i => bytes.getD i 0 := by
  have zero (n : Nat) : word n (fun _ => 0) = 0 := by
    induction n with
    | zero => rfl
    | succ n ih =>
      rw [word, ih]
      rfl
  have start := foldl_shiftIn length fun _ => 0
  rw [zero] at start
  exact start

lemma wordOp_size (dest cword : Nat) : Op.size info ⟨dest, [cword], 1⟩ = info.portwidth :=
  one_mul _

lemma cfiword_erased_iff {p : Nat} (written : Written info chips mem new p s)
    (length : bytes.length = info.portwidth)
    (at_i : ∀ i < info.portwidth, bytes.getD i 0 = new (p + i)) :
    flashRead info s.mem p &&& cwordOf info bytes = cwordOf info bytes ↔
      ∀ i < info.portwidth, Fits mem new (p + i) := by
  rw [cwordOf_eq length, word_congr at_i, flashRead, land_word_iff]
  refine forall₂_congr fun i _ => ?_
  rw [written.contents, if_neg (by omega)]
  exact Iff.rfl

lemma cfiword_comes (honest : chips.Honest info) {p : Nat}
    (written : Written info chips mem new p s) (length : bytes.length = info.portwidth)
    (at_i : ∀ i < info.portwidth, bytes.getD i 0 = new (p + i)) :
    Comes info chips mem new (p + info.portwidth)
      (flashWriteCfiword info chips s p (cwordOf info bytes)).1
      (flashWriteCfiword info chips s p (cwordOf info bytes)).2 := by
  have erased := cfiword_erased_iff written length at_i
  unfold flashWriteCfiword
  by_cases fits : ∀ i < info.portwidth, Fits mem new (p + i)
  · rw [if_pos (erased.mpr fits)]
    have issued := issue_comes honest written ⟨p, [cwordOf info bytes], 1⟩ rfl
    rw [wordOp_size] at issued
    refine issued ?_ fits rfl
    intro k low
    rw [Op.byte, Nat.div_eq_of_lt low, Nat.mod_eq_of_lt low, List.getD_cons_zero,
      cwordOf_eq length, byte_word _ low]
    exact at_i k low
  · rw [if_neg (mt erased.mp fits)]
    obtain ⟨i, wrong⟩ := not_forall.mp fits
    obtain ⟨low, bad⟩ := Classical.not_imp.mp wrong
    exact .inr (.inl ⟨rfl, ⟨p + i, Nat.add_lt_add_left low p, bad⟩, written.issued⟩)

variable {src : Mem} {addr cnt : Nat}

variable {left wp off : Nat}

lemma target_inside {a : Nat} (low : addr ≤ a) (high : a < addr + cnt) :
    target mem src addr cnt a = src (a - addr) := if_pos ⟨low, high⟩

lemma target_outside {a : Nat} (out : a < addr ∨ addr + cnt ≤ a) :
    target mem src addr cnt a = mem a := if_neg (by omega)

/-- A part of the range starts at `wp`, with so many bytes to go; at the end of the range `wp` may
be behind it. -/
structure Placed (info : Info) (addr cnt wp off left : Nat) : Prop where
  aligned : wp % info.portwidth = 0
  start : left ≠ 0 → wp = addr + off
  stop : left ≠ 0 → wp + left = addr + cnt
  finished : left = 0 → addr + cnt ≤ wp

def firstWord (info : Info) (addr : Nat) : Nat :=
  if addr % info.portwidth = 0 then addr else addr - addr % info.portwidth + info.portwidth

structure LoopComes (info : Info) (chips : Chips) (mem src : Mem) (addr cnt : Nat) (r : Progress) :
    Prop where
  comes : ∃ q, (r.rc = .ok → q = r.wp) ∧
    Comes info chips mem (target mem src addr cnt) q r.rc r.s
  placed : r.rc = .ok → Placed info addr cnt r.wp r.off r.cnt
  short : r.rc = .ok → r.cnt < info.portwidth

lemma land_portwidth (info : Info) (n : Nat) :
    n &&& (info.portwidth - 1) = n % info.portwidth := Nat.and_two_pow_sub_one_eq_mod _ _

lemma Comes.failed {q q' : Nat} {rc : Rc} (comes : Comes info chips mem new q rc s)
    (failed : rc ≠ .ok) (further : q ≤ q') : Comes info chips mem new q' rc s := by
  rcases comes with ⟨ok, -⟩ | ⟨not_erased, ⟨a, low, bad⟩, issued⟩ | rest
  · exact absurd ok failed
  · exact .inr (.inl ⟨not_erased, ⟨a, lt_of_lt_of_le low further, bad⟩, issued⟩)
  · exact .inr (.inr rest)

lemma Comes.written {q : Nat} {rc : Rc} (comes : Comes info chips mem new q rc s) (ok : rc = .ok) :
    Written info chips mem new q s := by
  rcases comes with ⟨-, written⟩ | ⟨not_erased, -⟩ | ⟨failed, -⟩
  · exact written
  · rw [ok] at not_erased
    cases not_erased
  · exact absurd ok failed

lemma wordLoop_done (info : Info) (chips : Chips) (src : Mem) (s : State) (wp off : Nat)
    (short : left < info.portwidth) :
    wordLoop info chips src s wp off left = ⟨.ok, s, wp, off, left⟩ := by
  rw [wordLoop, if_pos short]

lemma wordLoop_next (long : info.portwidth ≤ left) (ok : (flashWriteCfiword info chips s wp
      (cwordOf info (bytesOf src off info.portwidth))).1 = .ok) :
    wordLoop info chips src s wp off left = wordLoop info chips src
      (flashWriteCfiword info chips s wp (cwordOf info (bytesOf src off info.portwidth))).2
      (wp + info.portwidth) (off + info.portwidth) (left - info.portwidth) := by
  rw [wordLoop, if_neg (not_lt.mpr long)]
  exact if_neg (not_not.mpr ok)

lemma wordLoop_failed (long : info.portwidth ≤ left) (failed : (flashWriteCfiword info chips s wp
      (cwordOf info (bytesOf src off info.portwidth))).1 ≠ .ok) :
    wordLoop info chips src s wp off left =
      ⟨(flashWriteCfiword info chips s wp (cwordOf info (bytesOf src off info.portwidth))).1,
        (flashWriteCfiword info chips s wp (cwordOf info (bytesOf src off info.portwidth))).2,
        wp, off, left⟩ := by
  rw [wordLoop, if_neg (not_lt.mpr long)]
  exact if_pos failed

lemma Placed.word (placed : Placed info addr cnt wp off left) (long : info.portwidth ≤ left)
    (i : Nat) (inside : i < info.portwidth) :
    (bytesOf src off info.portwidth).getD i 0 = target mem src addr cnt (wp + i) := by
  have start := placed.start (by omega)
  have stop := placed.stop (by omega)
  rw [bytesOf_get src off inside, target_inside (by omega) (by omega)]
  congr 1
  omega

lemma Placed.advance (placed : Placed info addr cnt wp off left) (long : info.portwidth ≤ left) :
    Placed info addr cnt (wp + info.portwidth) (off + info.portwidth) (left - info.portwidth) := by
  have pos := portwidth_pos info
  have start := placed.start (by omega)
  have stop := placed.stop (by omega)
  constructor
  · rw [Nat.add_mod_right]
    exact placed.aligned
  · omega
  · omega
  · omega

lemma wordLoop_comes (honest : chips.Honest info)
    (written : Written info chips mem (target mem src addr cnt) wp s)
    (placed : Placed info addr cnt wp off left) :
    LoopComes info chips mem src addr cnt (wordLoop info chips src s wp off left) := by
  induction left using Nat.strongRecOn generalizing s wp off with
  | ind left ih =>
    have pos := portwidth_pos info
    by_cases short : left < info.portwidth
    · rw [wordLoop_done info chips src s wp off short]
      exact ⟨⟨wp, fun _ => rfl, .inl ⟨rfl, written⟩⟩, fun _ => placed, fun _ => short⟩
    have long := not_lt.mp short
    have word := cfiword_comes honest written (bytesOf_length src off info.portwidth)
      (placed.word long)
    by_cases ok : (flashWriteCfiword info chips s wp
        (cwordOf info (bytesOf src off info.portwidth))).1 = .ok
    · rw [wordLoop_next long ok]
      exact ih _ (by omega) (word.written ok) (placed.advance long)
    · rw [wordLoop_failed long ok]
      exact ⟨⟨_, fun h => absurd h ok, word⟩, fun h => absurd h ok, fun h => absurd h ok⟩

lemma getD_append (xs ys : List UInt8) (i : Nat) : (xs ++ ys).getD i 0 =
    if i < xs.length then xs.getD i 0 else ys.getD (i - xs.length) 0 := by
  rw [List.getD_eq_getElem?_getD, List.getElem?_append]
  split
  · rw [List.getD_eq_getElem?_getD]
  · rw [List.getD_eq_getElem?_getD]

lemma headBytes {aln n : Nat} (below : aln ≤ addr) (low : aln < info.portwidth)
    (n_cnt : n ≤ cnt)
    (n_cases : n = info.portwidth - aln ∨ n = cnt) (i : Nat) (inside : i < info.portwidth) :
    (bytesOf mem (addr - aln) aln ++ bytesOf src 0 n ++
      bytesOf mem (addr - aln + aln + n) (info.portwidth - aln - n)).getD i 0 =
        target mem src addr cnt (addr - aln + i) := by
  rw [getD_append, List.length_append, bytesOf_length, bytesOf_length, getD_append, bytesOf_length]
  by_cases before : i < aln
  · rw [if_pos (by omega), if_pos before, bytesOf_get _ _ before, target_outside (by omega)]
  by_cases source : i < aln + n
  · rw [if_pos source, if_neg before, bytesOf_get _ _ (by omega),
      target_inside (by omega) (by omega)]
    congr 1
    omega
  · rw [if_neg source, bytesOf_get _ _ (by omega), target_outside (by omega)]
    congr 1
    omega

lemma written_start (info : Info) (chips : Chips) (mem src : Mem) (addr cnt : Nat) :
    Written info chips mem (target mem src addr cnt) (addr - addr % info.portwidth) ⟨mem, []⟩ := by
  refine ⟨?_, ?_, nofun, nofun⟩
  · intro a
    split
    · exact (target_outside (by omega)).symm
    · rfl
  · intro a before
    rw [Fits, target_outside (by omega)]
    exact UInt8.and_self

/-- The word at an unaligned start, for some `bytes`. -/
structure HeadWord (info : Info) (mem src : Mem) (addr cnt n : Nat) (bytes : List UInt8) :
    Prop where
  length : bytes.length = info.portwidth
  at_i : ∀ i < info.portwidth,
    bytes.getD i 0 = target mem src addr cnt (addr - addr % info.portwidth + i)
  placed : Placed info addr cnt (firstWord info addr) n (cnt - n)
  result : ∀ chips, writeHead info chips src ⟨mem, []⟩ (addr - addr % info.portwidth)
    (addr % info.portwidth) cnt =
      ⟨(flashWriteCfiword info chips ⟨mem, []⟩ (addr - addr % info.portwidth)
          (cwordOf info bytes)).1,
        (flashWriteCfiword info chips ⟨mem, []⟩ (addr - addr % info.portwidth)
          (cwordOf info bytes)).2, firstWord info addr, n, cnt - n⟩

lemma headWord (mem src : Mem) (cnt : Nat) (unaligned : addr % info.portwidth ≠ 0) :
    ∃ n bytes, HeadWord info mem src addr cnt n bytes := by
  have low := Nat.mod_lt addr (portwidth_pos info)
  have below := Nat.mod_le addr info.portwidth
  have first : firstWord info addr = addr - addr % info.portwidth + info.portwidth :=
    if_neg unaligned
  have whole : (addr - addr % info.portwidth) % info.portwidth = 0 :=
    Nat.mod_eq_zero_of_dvd (Nat.dvd_sub_mod addr)
  set aln := addr % info.portwidth
  have n_cnt := min_le_right (info.portwidth - aln) cnt
  have n_cases : min (info.portwidth - aln) cnt = info.portwidth - aln ∨
      min (info.portwidth - aln) cnt = cnt := by omega
  set n := min (info.portwidth - aln) cnt
  refine ⟨n, bytesOf mem (addr - aln) aln ++ bytesOf src 0 n ++
    bytesOf mem (addr - aln + aln + n) (info.portwidth - aln - n), ?_, ?_, ?_, ?_⟩
  · rw [List.length_append, List.length_append, bytesOf_length, bytesOf_length, bytesOf_length]
    omega
  · exact headBytes below low n_cnt n_cases
  · rw [first]
    constructor
    · rw [Nat.add_mod_right]
      exact whole
    · omega
    · omega
    · omega
  · intro chips
    rw [first]
    exact if_neg unaligned

lemma writeHead_aligned (info : Info) (chips : Chips) (src : Mem) (s : State) (wp cnt : Nat) :
    writeHead info chips src s wp 0 cnt = ⟨.ok, s, wp, 0, cnt⟩ := if_pos rfl

lemma placed_start (cnt : Nat) (aligned : addr % info.portwidth = 0) :
    Placed info addr cnt addr 0 cnt :=
  ⟨aligned, fun _ => rfl, fun _ => rfl, fun empty => le_of_eq (congrArg (addr + ·) empty)⟩

lemma writeHead_comes (mem src : Mem) (addr cnt : Nat) (honest : chips.Honest info) :
    let aln := addr % info.portwidth
    let r := writeHead info chips src ⟨mem, []⟩ (addr - aln) aln cnt
    Comes info chips mem (target mem src addr cnt) (firstWord info addr) r.rc r.s ∧
      r.wp = firstWord info addr ∧ Placed info addr cnt (firstWord info addr) r.off r.cnt := by
  have start := written_start info chips mem src addr cnt
  dsimp only
  by_cases aligned : addr % info.portwidth = 0
  · have first : firstWord info addr = addr := if_pos aligned
    rw [aligned, Nat.sub_zero] at start ⊢
    rw [writeHead_aligned, first]
    exact ⟨.inl ⟨rfl, start⟩, rfl, placed_start cnt aligned⟩
  · have first : firstWord info addr = addr - addr % info.portwidth + info.portwidth :=
      if_neg aligned
    obtain ⟨n, bytes, head⟩ := headWord mem src cnt aligned
    have word := cfiword_comes honest start head.length head.at_i
    rw [← first] at word
    rw [head.result]
    exact ⟨word, rfl, head.placed⟩

lemma tailBytes {p : Progress}
    (written : Written info chips mem (target mem src addr cnt) p.wp p.s)
    (placed : Placed info addr cnt p.wp p.off p.cnt) (some_left : p.cnt ≠ 0) (i : Nat)
    (inside : i < info.portwidth) :
    (bytesOf src p.off p.cnt ++
      bytesOf p.s.mem (p.wp + p.cnt) (info.portwidth - p.cnt)).getD i 0 =
        target mem src addr cnt (p.wp + i) := by
  have start := placed.start some_left
  have stop := placed.stop some_left
  rw [getD_append, bytesOf_length]
  by_cases source : i < p.cnt
  · rw [if_pos source, bytesOf_get _ _ source, target_inside (by omega) (by omega)]
    congr 1
    omega
  · rw [if_neg source, bytesOf_get _ _ (by omega), written.contents, if_neg (by omega),
      target_outside (by omega)]
    congr 1
    omega

lemma tailBytes_length (info : Info) (src : Mem) {p : Progress} (short : p.cnt < info.portwidth) :
    (bytesOf src p.off p.cnt ++
      bytesOf p.s.mem (p.wp + p.cnt) (info.portwidth - p.cnt)).length = info.portwidth := by
  rw [List.length_append, bytesOf_length, bytesOf_length]
  omega

lemma writeTail_comes (honest : chips.Honest info) {p : Progress}
    (written : Written info chips mem (target mem src addr cnt) p.wp p.s)
    (placed : Placed info addr cnt p.wp p.off p.cnt) (short : p.cnt < info.portwidth) :
    ∃ q, addr + cnt ≤ q ∧ Comes info chips mem (target mem src addr cnt) q
      (writeTail info chips src p).1 (writeTail info chips src p).2 := by
  unfold writeTail
  by_cases none_left : p.cnt = 0
  · rw [if_pos none_left]
    exact ⟨p.wp, placed.finished none_left, .inl ⟨rfl, written⟩⟩
  have stop := placed.stop none_left
  rw [if_neg none_left]
  exact ⟨p.wp + info.portwidth, by omega, cfiword_comes honest written
    (tailBytes_length info src short) (tailBytes written placed none_left)⟩

lemma writeBuff_comes (mem src : Mem) (addr cnt : Nat) (honest : chips.Honest info)
    (buffered : Bool)
    (loop : ∀ s off left, Written info chips mem (target mem src addr cnt) (firstWord info addr) s →
      Placed info addr cnt (firstWord info addr) off left → LoopComes info chips mem src addr cnt
        (writeAligned buffered info chips src s (firstWord info addr) off left)) :
    ∃ q, addr + cnt ≤ q ∧ Comes info chips mem (target mem src addr cnt) q
      (writeBuff buffered info chips src ⟨mem, []⟩ addr cnt).1
      (writeBuff buffered info chips src ⟨mem, []⟩ addr cnt).2 := by
  unfold writeBuff
  rw [land_portwidth]
  obtain ⟨head, wp, placed⟩ := writeHead_comes mem src addr cnt honest
  set h := writeHead info chips src ⟨mem, []⟩ (addr - addr % info.portwidth)
    (addr % info.portwidth) cnt
  by_cases head_ok : h.rc = .ok
  · rw [if_neg (not_not.mpr head_ok), wp]
    have aligned := loop h.s h.off h.cnt (head.written head_ok) placed
    set p := writeAligned buffered info chips src h.s (firstWord info addr) h.off h.cnt
    obtain ⟨q, at_wp, comes⟩ := aligned.comes
    by_cases ok : p.rc = .ok
    · rw [if_neg (not_not.mpr ok)]
      rw [at_wp ok] at comes
      exact writeTail_comes honest (comes.written ok) (aligned.placed ok) (aligned.short ok)
    · rw [if_pos ok]
      exact ⟨max (addr + cnt) q, Nat.le_max_left _ _, comes.failed ok (Nat.le_max_right _ _)⟩
  · rw [if_pos head_ok]
    exact ⟨max (addr + cnt) (firstWord info addr), Nat.le_max_left _ _,
      head.failed head_ok (Nat.le_max_right _ _)⟩

/-- On success the range holds the source, all else is as it was, and the last status has no
error. When the chips do not fail, ERR_NOT_ERASED is returned exactly if a bit would have to go
from 0 to 1, and nothing that has such a bit is programmed. -/
structure WriteOk (info : Info) (chips : Chips) (mem src : Mem) (addr cnt : Nat)
    (r : Rc × State) : Prop where
  stored : r.1 = .ok → r.2.mem = target mem src addr cnt
  clean : r.1 = .ok → ∀ k, r.2.ops.length = k + 1 → (chips k).errors = 0
  erased : chips.Flawless →
    (r.1 = .notErased ↔ ∃ k < cnt, mem (addr + k) &&& src k ≠ src k)
  issued : chips.Flawless → ∀ op ∈ r.2.ops, op.Fits info mem

lemma exists_bad_iff : (∃ a, ¬Fits mem (target mem src addr cnt) a) ↔
    ∃ k < cnt, mem (addr + k) &&& src k ≠ src k := by
  constructor
  · rintro ⟨a, bad⟩
    by_cases inside : addr ≤ a ∧ a < addr + cnt
    · obtain ⟨k, rfl⟩ := Nat.exists_eq_add_of_le inside.1
      refine ⟨k, by omega, ?_⟩
      rw [Fits, target_inside inside.1 inside.2, Nat.add_sub_cancel_left] at bad
      exact bad
    · rw [Fits, target_outside (by omega)] at bad
      exact absurd UInt8.and_self bad
  · rintro ⟨k, low, bad⟩
    refine ⟨addr + k, ?_⟩
    rw [Fits, target_inside (Nat.le_add_right _ _) (by omega), Nat.add_sub_cancel_left]
    exact bad

lemma Comes.writeOk {q : Nat} {r : Rc × State} (whole : addr + cnt ≤ q)
    (comes : Comes info chips mem (target mem src addr cnt) q r.1 r.2) :
    WriteOk info chips mem src addr cnt r := by
  refine ⟨?_, ?_, ?_, ?_⟩
  · intro ok
    have written := comes.written ok
    funext a
    rw [written.contents]
    split
    · rfl
    · exact (target_outside (by omega)).symm
  · intro ok k last
    exact (comes.written ok).clean k (by omega)
  · intro flawless
    refine Iff.trans ?_ exists_bad_iff
    rcases comes with ⟨ok, written⟩ | ⟨not_erased, bad, -⟩ | ⟨-, fails⟩
    · rw [ok]
      refine iff_of_false nofun ?_
      rintro ⟨a, bad⟩
      by_cases below : a < q
      · exact bad (written.fits a below)
      · rw [Fits, target_outside (by omega)] at bad
        exact bad UInt8.and_self
    · obtain ⟨a, -, bad⟩ := bad
      exact iff_of_true not_erased ⟨a, bad⟩
    · exact absurd flawless fails
  · intro flawless
    rcases comes with ⟨-, written⟩ | ⟨-, -, issued⟩ | ⟨-, fails⟩
    · exact written.issued
    · exact issued
    · exact absurd flawless fails

lemma words_writeOk (honest : chips.Honest info) (buffered : Bool)
    (words : buffered = true → info.buffer_size = 1) :
    WriteOk info chips mem src addr cnt
      (writeBuff buffered info chips src ⟨mem, []⟩ addr cnt) := by
  obtain ⟨q, whole, comes⟩ := writeBuff_comes mem src addr cnt honest buffered (by
      intro s off left written placed
      have only_words : ¬(buffered = true ∧ info.buffer_size ≠ 1) := fun h => h.2 (words h.1)
      rw [writeAligned, if_neg only_words]
      exact wordLoop_comes honest written placed)
  exact comes.writeOk whole

end CfiFlash
