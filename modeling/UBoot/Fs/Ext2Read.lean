import UBoot.Fs.Ext2Block

/-!
# Reading files (fs/ext2/ext2fs.c)

A run is a list of calls for any files of one volume, each with what the device and the allocator do
meanwhile. The caches are handed from call to call.
-/

namespace Ext2

open Dialogue Runs

/-- How the loop ends; `wild` when a negative length is passed on. -/
inductive Ending where
  | all
  | failed
  | wild

def placed (stored : Stored) (place : Nat) (more : Stored) : Stored :=
  fun a => if place ≤ a then more (a - place) <|> stored a else stored a

def blockend (blocksize pos len blockcnt i : Nat) : Nat :=
  if i = blockcnt - 1 then
    let blockend := (len + pos) % 2 ^ 32 % blocksize
    if blockend = 0 then blocksize else blockend
  else blocksize

def skipfirst (blocksize pos i : Nat) : Nat := if i = pos / blocksize then pos % blocksize else 0

def readPart (data : Data) (pos len blockcnt i place blknr : Nat) (stored : Stored) :
    Run (Ending × Stored) :=
  let blknr := shifted blknr data.log2
  let skip := skipfirst data.blksz pos i
  let stop := blockend data.blksz pos len blockcnt i
  if blknr ≠ 0 then
    if stop < skip then .done (.wild, stored)
    else
      ext2fsDevread data.part blknr skip (stop - skip) .buf >>= fun (status, more) =>
        if ¬ status then .done (.failed, placed stored place more)
        else .done (.all, placed stored place more)
  else .done (.all, copied stored place (data.blksz - skip) fun _ => 0)

def readLoop (data : Data) (inode : Inode) (pos len blockcnt : Nat) :
    (left i place : Nat) → Stored → Caches → Run (Ending × Stored × Caches)
  | 0, _, _, stored, s => .done (.all, stored, s)
  | left + 1, i, place, stored, s =>
    ext2fsReadBlock data inode i s >>= fun (blknr, s) =>
      if 2 ^ 31 ≤ blknr then .done (.failed, stored, s)
      else
        readPart data pos len blockcnt i place blknr stored >>= fun (ending, stored) =>
          match ending with
          | .all =>
            readLoop data inode pos len blockcnt left (i + 1)
              (place + (data.blksz - skipfirst data.blksz pos i)) stored s
          | .failed => .done (.failed, stored, s)
          | .wild => .done (.wild, stored, s)

def asInt (n : Nat) : Int := if n < 2 ^ 31 then n else (n : Int) - 2 ^ 32

/-- What a call returns, stores to the buffer, and leaves in the caches. -/
structure Outcome where
  result : Option Int
  stored : Stored
  caches : Caches

/-- `ext2fs_read_file`, for a position that is not negative -/
def ext2fsReadFile (data : Data) (inode : Inode) (pos len : Nat) (s : Caches) : Run Outcome :=
  let len := if inode.size < len then inode.size else len
  let blockcnt := (len + pos + data.blksz - 1) % 2 ^ 32 / data.blksz
  let first := pos / data.blksz
  readLoop data inode pos len blockcnt (blockcnt - first) first 0 nothing s >>=
    fun (ending, stored, s) =>
      match ending with
      | .all => .done ⟨some (asInt len), stored, s⟩
      | .failed => .done ⟨some (-1), stored, s⟩
      | .wild => .done ⟨none, stored, s⟩

def File.byte {v : Volume} (f : File v) (a : Nat) : UInt8 :=
  if f.block (a / v.data.blksz) = 0 then 0
  else v.byte (f.block (a / v.data.blksz)) (a % v.data.blksz)

/-- What the device and the allocator do during a call. Sectors that have been read are those of the
disk. -/
structure Device (v : Volume) where
  reply : Nat → Query → Reply
  honest : ∀ i lba count buffer, (reply i (.block_read lba count buffer)).ok →
    ∀ a < count * sectorSize,
      (reply i (.block_read lba count buffer)).data a = v.disk (lba * sectorSize + a)

structure Call (v : Volume) where
  file : File v
  pos : Nat
  len : Nat
  device : Device v
  pos_le : pos ≤ file.inode.size
  pos_lt : pos < 2 ^ 31

section
variable {v : Volume}

def Call.program (c : Call v) (s : Caches) : Run Outcome :=
  ext2fsReadFile v.data c.file.inode c.pos c.len s

def Call.outcome (c : Call v) (s : Caches) : Outcome := (c.program s).result c.device.reply

def step (s : Caches) (c : Call v) : Option Caches := some (c.outcome s).caches

def Call.count (c : Call v) : Nat := min c.len (c.file.inode.size - c.pos)

/-- Something that is asked for during the call fails, or the volume is not there or too large for
the numbers of sectors. -/
def Call.Fails (s : Caches) (c : Call v) : Prop :=
  ¬ Prog.Obeys (fun _ r => r.ok) (c.program s) c.device.reply ∨ ¬ v.data.part.desc ∨
    2 ^ 31 < v.data.part.size

/-- The result is negative, and something fails or the count is no positive `int`; or it is the
count, and just these bytes are stored. -/
def Call.Right (s : Caches) (c : Call v) : Prop :=
  (∃ r < 0, (c.outcome s).result = some r ∧ (c.Fails s ∨ 2 ^ 31 ≤ c.count)) ∨
  ((c.outcome s).result = some (c.count : Int) ∧
    (c.outcome s).stored = upto c.count fun a => c.file.byte (c.pos + a))

/-- A short read of the last sector, and the read of an indirect block, do not fail. A failed read
of another block of numbers leaves the buffer as it was, if it holds anything. -/
def File.Sound (f : File v) : Query → Reply → Prop
  | .block_read _ _ .p, r => r.ok
  | .block_read lba _ (.indir1_block held), r => r.ok ∨
      lba ≠ v.data.part.start + f.inode.indir_block * 2 ^ v.data.log2 ∧
        (held.blkno = minusOne ∨
          ∃ block, held.block = some block ∧ ∀ a < v.data.blksz, r.data a = block a)
  | _, _ => True

/-- No more is asked for than there is, except from the begin on; no table is missing for the blocks
that are read; a last block that is not read to its end is no hole; the rounding up does not
wrap. -/
structure Call.Meets (s : Caches) (c : Call v) : Prop where
  clipped : c.pos = 0 ∨ c.pos + c.len ≤ c.file.inode.size
  present : ∀ i, c.pos / v.data.blksz ≤ i → i * v.data.blksz < c.pos + c.count → c.file.Present i
  stored : (c.pos + c.count) % v.data.blksz ≠ 0 →
    c.file.block ((c.pos + c.count) / v.data.blksz) ≠ 0
  rounds : c.pos + c.count + v.data.blksz ≤ 2 ^ 32 ∨ 2 ^ 31 ≤ c.count
  sound : Prog.Obeys c.file.Sound (c.program s) c.device.reply

end

section
variable {v : Volume} {f : File v}

lemma File.inside (f : File v) {i : Nat}
    (mapped : i < indirectBlocks + v.perblock * (v.perblock + 1)) : v.Inside (f.block i) := by
  have hole : v.Inside 0 := fun stored => absurd rfl stored
  rw [File.block]
  by_cases direct : i < indirectBlocks
  · rw [if_pos direct]
    exact f.direct i direct
  rw [if_neg direct]
  by_cases single : i < indirectBlocks + v.perblock
  · rw [if_pos single]
    by_cases missing : f.inode.indir_block = 0
    · rw [if_pos missing]
      exact hole
    · rw [if_neg missing]
      exact f.indirectEntries missing _ (by omega)
  rw [if_neg single]
  by_cases missing : f.inode.double_indir_block = 0 ∨ f.table i = 0
  · rw [if_pos missing]
    exact hole
  rw [if_neg missing]
  obtain ⟨double, table⟩ := not_or.mp missing
  have row : (i - (indirectBlocks + v.perblock)) / v.perblock < v.perblock := by
    refine Nat.div_lt_of_lt_mul ?_
    rw [Nat.mul_succ] at mapped
    omega
  exact f.doubleEntries double _ row table _ (Nat.mod_lt _ v.perblock_pos)

lemma Volume.Inside.lt {block : Nat} (inside : v.Inside block) : block < 2 ^ 31 := by
  by_cases hole : block = 0
  · rw [hole]
    decide
  have room := lt_of_le_of_lt (inside hole) v.fits
  have two : (block + 1) * 2 ≤ (block + 1) * 2 ^ v.data.log2 := by
    refine Nat.mul_le_mul_left _ ?_
    rw [Data.log2, Nat.pow_succ]
    exact Nat.le_mul_of_pos_left 2 (Nat.two_pow_pos _)
  omega

lemma File.byte_eq (f : File v) (i : Nat) {r : Nat} (inside : r < v.data.blksz) :
    f.byte (i * v.data.blksz + r) = if f.block i = 0 then 0 else v.byte (f.block i) r := by
  have quotient : (i * v.data.blksz + r) / v.data.blksz = i := by
    rw [add_comm, Nat.add_mul_div_right _ _ v.blksz_pos, Nat.div_eq_of_lt inside, zero_add]
  have remainder : (i * v.data.blksz + r) % v.data.blksz = r := by
    rw [add_comm, Nat.add_mul_mod_self_right, Nat.mod_eq_of_lt inside]
  rw [File.byte, quotient, remainder]

lemma placed_upto {data more : Bytes} {n m : Nat} (same : ∀ a < m, more a = data (n + a)) :
    placed (upto n data) n (upto m more) = upto (n + m) data := by
  funext a
  rw [placed, upto, upto, upto]
  by_cases low : a < n
  · rw [if_neg (not_le.mpr low), if_pos low, if_pos (by omega)]
  have high := not_lt.mp low
  rw [if_pos high, if_neg low]
  by_cases inside : a - n < m
  · rw [if_pos inside, if_pos (by omega), same _ inside, Nat.add_sub_cancel' high]
    rfl
  · rw [if_neg inside, if_neg (by omega)]
    rfl

end

/-- A part of a file whose blocks can be read: the end of it, rounded up, fits, and it is in the
file; tables and holes are as they should be. -/
structure Span {v : Volume} (f : File v) (pos n : Nat) : Prop where
  within : pos + n ≤ f.inode.size
  rounds : pos + n + v.data.blksz ≤ 2 ^ 32
  present : ∀ i, pos / v.data.blksz ≤ i → i * v.data.blksz < pos + n → f.Present i
  stored : (pos + n) % v.data.blksz ≠ 0 → f.block ((pos + n) / v.data.blksz) ≠ 0

section
variable {v : Volume} {f : File v} {pos n i place : Nat} {allows : Query → Reply → Prop}
  {mayFail : Prop} {s : Caches}

def blocks (v : Volume) (pos n : Nat) : Nat := (pos + n + v.data.blksz - 1) / v.data.blksz

lemma lt_blocks_iff : i < blocks v pos n ↔ i * v.data.blksz < pos + n := by
  have some_byte := v.blksz_pos
  rw [blocks, ← Nat.succ_le_iff, Nat.le_div_iff_mul_le some_byte, Nat.succ_mul]
  omega

lemma Span.mapped (span : Span f pos n) (inside : i * v.data.blksz < pos + n) :
    i < indirectBlocks + v.perblock * (v.perblock + 1) :=
  Nat.lt_of_mul_lt_mul_right
    (lt_of_lt_of_le inside (le_trans span.within f.mapped))

lemma Span.blockend_eq (span : Span f pos n) (inside : i * v.data.blksz < pos + n) :
    blockend v.data.blksz pos n (blocks v pos n) i =
      min v.data.blksz (pos + n - i * v.data.blksz) := by
  have some_byte := v.blksz_pos
  have here := lt_blocks_iff.mpr inside
  have later := @lt_blocks_iff v pos n (i + 1)
  have whole : (n + pos) % 2 ^ 32 = pos + n := by
    rw [add_comm, Nat.mod_eq_of_lt]
    have := span.rounds
    omega
  rw [blockend, whole]
  rw [Nat.succ_mul] at later
  by_cases last : i = blocks v pos n - 1
  · have most : pos + n ≤ i * v.data.blksz + v.data.blksz := by
      by_contra more
      omega
    rw [if_pos last]
    have split : pos + n = (pos + n - i * v.data.blksz) + i * v.data.blksz := by omega
    have remainder : (pos + n) % v.data.blksz = (pos + n - i * v.data.blksz) % v.data.blksz := by
      rw [split, Nat.add_mul_mod_self_right, Nat.add_sub_cancel]
    rw [remainder]
    by_cases full : pos + n - i * v.data.blksz = v.data.blksz
    · rw [full, Nat.mod_self, if_pos rfl, Nat.min_self]
    · have part : pos + n - i * v.data.blksz < v.data.blksz := by omega
      rw [Nat.mod_eq_of_lt part, if_neg (by omega), min_eq_right (le_of_lt part)]
  · have more := later.mp (by omega)
    rw [if_neg last, min_eq_left (by omega)]

lemma skipfirst_le (inside : i * v.data.blksz < pos + n) :
    skipfirst v.data.blksz pos i ≤ min v.data.blksz (pos + n - i * v.data.blksz) ∧
      skipfirst v.data.blksz pos i < v.data.blksz := by
  have some_byte := v.blksz_pos
  have whole := Nat.div_add_mod pos v.data.blksz
  have rest := Nat.mod_lt pos some_byte
  rw [skipfirst]
  by_cases here : i = pos / v.data.blksz
  · rw [if_pos here]
    rw [mul_comm, ← here] at whole
    omega
  · rw [if_neg here]
    omega

lemma Span.readPart (span : Span f pos n) (rules : FileRules f mayFail allows)
    (inside : i * v.data.blksz < pos + n)
    (placed_at : pos + place = i * v.data.blksz + skipfirst v.data.blksz pos i) :
    Prog.Ensures allows (fun (ending, stored) =>
      ending = .all ∧ stored = upto (min ((i + 1) * v.data.blksz) (pos + n) - pos)
        (fun a => f.byte (pos + a)) ∨ ending = .failed ∧ mayFail)
      (Ext2.readPart v.data pos n (blocks v pos n) i place (f.block i)
        (upto place fun a => f.byte (pos + a))) := by
  have within := f.inside (span.mapped inside)
  obtain ⟨skip_le, skip_lt⟩ := @skipfirst_le v pos n i inside
  have bytes (a : Nat) (low : skipfirst v.data.blksz pos i + a < v.data.blksz) :
      f.byte (pos + (place + a)) = if f.block i = 0 then 0
        else v.byte (f.block i) (skipfirst v.data.blksz pos i + a) := by
    rw [← f.byte_eq i low, ← add_assoc, placed_at, add_assoc]
  rw [Ext2.readPart, v.shifted_eq within, span.blockend_eq inside]
  rw [Nat.succ_mul]
  by_cases hole : f.block i = 0
  · have positive := Nat.two_pow_pos v.data.log2
    rw [hole, zero_mul, if_neg (not_not.mpr rfl), copied_upto fun a low => ?_]
    · refine .inl ⟨rfl, congrArg (fun m => upto m fun a => f.byte (pos + a)) ?_⟩
      have full : i * v.data.blksz + v.data.blksz ≤ pos + n := by
        by_contra part
        have split : pos + n = (pos + n - i * v.data.blksz) + i * v.data.blksz := by omega
        have low : pos + n - i * v.data.blksz < v.data.blksz := by omega
        have stored := span.stored
        rw [split, Nat.add_mul_mod_self_right, Nat.mod_eq_of_lt low,
          Nat.add_mul_div_right _ _ v.blksz_pos, Nat.div_eq_of_lt low, zero_add] at stored
        exact stored (by omega) hole
      omega
    · rw [bytes a (by omega), if_pos hole]
  · have sector : f.block i * 2 ^ v.data.log2 ≠ 0 :=
      Nat.mul_ne_zero hole (Nat.ne_of_gt (Nat.two_pow_pos _))
    rw [if_pos sector, if_neg (not_lt.mpr skip_le)]
    refine (@Rules.devread v.disk (fun a => f.byte (pos + (place + a))) mayFail allows v.data.part
      _ _ _ .buf rules.toRules (fun rejected => ?_) rules.unset (fun a low => ?_)).bind ?_
    · exact rules.rejects within hole (by omega) (by omega) rejected
    · rw [bytes a (by omega), if_neg hole, Volume.byte, add_assoc]
    · rintro ⟨status, more⟩ (⟨not_ok, failed⟩ | delivered)
      · dsimp only at not_ok
        rw [not_ok]
        exact .inr ⟨rfl, failed⟩
      · obtain ⟨rfl, rfl⟩ := Prod.mk.inj delivered
        refine .inl ⟨rfl, ?_⟩
        rw [placed_upto fun a _ => rfl]
        refine congrArg (fun m => upto m fun a => f.byte (pos + a)) ?_
        omega

end

section
variable {v : Volume} {f : File v} {pos n : Nat} {allows : Query → Reply → Prop} {mayFail : Prop}

lemma Span.readLoop (span : Span f pos n) (rules : FileRules f mayFail allows)
    {left i place : Nat} {s : Caches} (valid : s.indir1.Valid v)
    (count : left = blocks v pos n - i) (first : pos / v.data.blksz ≤ i)
    (placed_at : pos + place = i * v.data.blksz + skipfirst v.data.blksz pos i) :
    Prog.Ensures allows (fun (ending, stored, s') => s'.indir1.Valid v ∧
      (ending = .all ∧ stored = upto n (fun a => f.byte (pos + a)) ∨ ending = .failed ∧ mayFail))
      (Ext2.readLoop v.data f.inode pos n (blocks v pos n) left i place
        (upto (min (max pos (i * v.data.blksz)) (pos + n) - pos) fun a => f.byte (pos + a)) s) := by
  induction left generalizing i place s with
  | zero =>
    have reached : pos + n ≤ i * v.data.blksz := by
      by_contra more
      have := lt_blocks_iff.mpr (not_le.mp more)
      omega
    refine ⟨valid, .inl ⟨rfl, congrArg (fun m => upto m fun a => f.byte (pos + a)) ?_⟩⟩
    omega
  | succ left ih =>
    have inside : i * v.data.blksz < pos + n := lt_blocks_iff.mp (by omega)
    have begins : min (max pos (i * v.data.blksz)) (pos + n) - pos = place := by
      have whole := Nat.div_add_mod pos v.data.blksz
      rw [skipfirst] at placed_at
      by_cases here : i = pos / v.data.blksz
      · rw [if_pos here] at placed_at
        rw [mul_comm, ← here] at whole
        omega
      rw [if_neg here] at placed_at
      have later : (pos / v.data.blksz + 1) * v.data.blksz ≤ i * v.data.blksz :=
        Nat.mul_le_mul_right _ (by omega)
      rw [Nat.succ_mul] at later
      rw [mul_comm] at whole
      omega
    rw [begins, Ext2.readLoop]
    refine (rules.readBlock valid (span.mapped inside)).bind ?_
    rintro ⟨nr, s'⟩ ⟨valid', number⟩
    rcases number (span.present i first inside) with rfl | ⟨rfl, failed⟩
    swap
    · exact ⟨valid', .inr ⟨rfl, failed⟩⟩
    dsimp only
    rw [if_neg (not_le.mpr (f.inside (span.mapped inside)).lt)]
    refine (span.readPart rules inside placed_at).bind ?_
    rintro ⟨ending, stored⟩ (⟨rfl, rfl⟩ | ⟨rfl, failed⟩)
    swap
    · exact ⟨valid', .inr ⟨rfl, failed⟩⟩
    have skip := (@skipfirst_le v pos n i inside).2
    have behind : pos < (i + 1) * v.data.blksz := by
      rw [Nat.succ_mul]
      omega
    have next := @ih (i + 1) (place + (v.data.blksz - skipfirst v.data.blksz pos i)) s' valid'
      (by omega) (by omega) ?_
    · rwa [Nat.max_eq_right (le_of_lt behind)] at next
    · rw [Nat.succ_mul]
      have no_skip : skipfirst v.data.blksz pos (i + 1) = 0 := if_neg (by omega)
      omega

lemma Span.readFile (span : Span f pos n) (rules : FileRules f mayFail allows) {len : Nat}
    {s : Caches} (valid : s.indir1.Valid v)
    (clipped : (if f.inode.size < len then f.inode.size else len) = n) :
    Prog.Ensures allows (fun o => o.caches.indir1.Valid v ∧
      (o.result = some (asInt n) ∧ o.stored = upto n (fun a => f.byte (pos + a)) ∨
        o.result = some (-1) ∧ mayFail))
      (ext2fsReadFile v.data f.inode pos len s) := by
  have whole := Nat.div_add_mod pos v.data.blksz
  rw [mul_comm] at whole
  have count : (n + pos + v.data.blksz - 1) % 2 ^ 32 / v.data.blksz = blocks v pos n := by
    rw [blocks, add_comm n pos, Nat.mod_eq_of_lt]
    have := span.rounds
    omega
  have skip : skipfirst v.data.blksz pos (pos / v.data.blksz) = pos % v.data.blksz := if_pos rfl
  have start := @Span.readLoop v f pos n allows mayFail span rules
    (blocks v pos n - pos / v.data.blksz) (pos / v.data.blksz) 0 s valid rfl le_rfl
    (by omega)
  have none_yet : min (max pos (pos / v.data.blksz * v.data.blksz)) (pos + n) - pos = 0 := by
    omega
  rw [none_yet, upto_zero] at start
  rw [ext2fsReadFile, clipped]
  rw [count]
  refine start.bind ?_
  rintro ⟨ending, stored, s'⟩ ⟨valid', ⟨rfl, rfl⟩ | ⟨rfl, failed⟩⟩
  · exact ⟨valid', .inl ⟨rfl, rfl⟩⟩
  · exact ⟨valid', .inr ⟨rfl, failed⟩⟩

end

section
variable {v : Volume} {s : Caches} {c : Call v}

def Call.Allows (s : Caches) (c : Call v) (q : Query) (r : Reply) : Prop :=
  (∀ lba count buffer, q = .block_read lba count buffer → r.ok →
    ∀ a < count * sectorSize, r.data a = v.disk (lba * sectorSize + a)) ∧
  c.file.Sound q r ∧ (r.ok ∨ c.Fails s)

lemma Call.Meets.obeys (meets : c.Meets s) :
    Prog.Obeys (c.Allows s) (c.program s) c.device.reply := by
  refine Prog.Obeys.and ?_ (meets.sound.and ?_)
  · refine Prog.Obeys.of_forall fun i q lba count buffer asked => ?_
    rw [asked]
    exact c.device.honest i lba count buffer
  · by_cases fine : Prog.Obeys (fun _ r => r.ok) (c.program s) c.device.reply
    · exact fine.mono fun _ _ => .inl
    · exact Prog.Obeys.of_forall fun _ _ => .inr (.inl fine)

lemma Call.rules (s : Caches) (c : Call v) : FileRules c.file (c.Fails s) (c.Allows s) where
  honest lba count buffer r allowed := allowed.1 lba count buffer rfl
  short lba count r allowed := allowed.2.1
  fails q r allowed not_ok := allowed.2.2.resolve_left not_ok
  kept lba count held r allowed not_ok := (allowed.2.1.resolve_left not_ok).2
  single count held r allowed := by
    by_contra not_ok
    exact (allowed.2.1.resolve_left not_ok).1 rfl
  unset unset := .inr (.inl unset)
  large large := .inr (.inr large)

end

section
variable {v : Volume} {s : Caches} {c : Call v}

lemma asInt_of_lt {n : Nat} (low : n < 2 ^ 31) : asInt n = n := if_pos low

lemma asInt_neg {n : Nat} (high : 2 ^ 31 ≤ n) (fits : n < 2 ^ 32) : asInt n < 0 := by
  rw [asInt, if_neg (not_lt.mpr high)]
  omega

lemma Call.count_lt (c : Call v) : c.count < 2 ^ 32 :=
  lt_of_le_of_lt (le_trans (min_le_right _ _) (Nat.sub_le _ _)) c.file.size_lt

lemma Call.Meets.spec (meets : c.Meets s) (valid : s.indir1.Valid v) :
    (c.outcome s).caches.indir1.Valid v ∧ c.Right s := by
  have fits := c.count_lt
  have size_lt := c.file.size_lt
  have pos_le := c.pos_le
  have count_eq : c.count = min c.len (c.file.inode.size - c.pos) := rfl
  have clipped : (if c.file.inode.size < c.len then c.file.inode.size else c.len) = c.count := by
    have := meets.clipped
    split <;> omega
  by_cases rounds : c.pos + c.count + v.data.blksz ≤ 2 ^ 32
  · have span : Span c.file c.pos c.count :=
      ⟨by omega, rounds, meets.present, meets.stored⟩
    obtain ⟨valid', ⟨result, stored⟩ | ⟨result, failed⟩⟩ :=
      (span.readFile (c.rules s) valid clipped).result meets.obeys
    · refine ⟨valid', ?_⟩
      by_cases low : c.count < 2 ^ 31
      · rw [asInt_of_lt low] at result
        exact .inr ⟨result, stored⟩
      · have high := not_lt.mp low
        exact .inl ⟨_, asInt_neg high fits, result, .inr high⟩
    · exact ⟨valid', .inl ⟨-1, by decide, result, .inl failed⟩⟩
  · have high := meets.rounds.resolve_left rounds
    have none_counted : (c.count + c.pos + v.data.blksz - 1) % 2 ^ 32 / v.data.blksz = 0 := by
      have wrapped : (c.count + c.pos + v.data.blksz - 1) % 2 ^ 32 < v.data.blksz := by omega
      exact Nat.div_eq_of_lt wrapped
    have returned : c.outcome s = ⟨some (asInt c.count), nothing, s⟩ := by
      rw [Call.outcome, Call.program, ext2fsReadFile, clipped]
      rw [none_counted, Nat.zero_sub]
      rfl
    rw [returned]
    refine ⟨valid, .inl ⟨_, asInt_neg high fits, ?_, .inr high⟩⟩
    rw [returned]

end

/-- In a run of calls that all meet the conditions every call is right, whatever else fails. -/
theorem reads_right (v : Volume) (calls : List (Call v))
    (meets : StepsMeet step Call.Meets noCaches calls) (before after : List (Call v))
    (c : Call v) (split : calls = before ++ c :: after) :
    ∃ s, runFrom step noCaches before = some s ∧ c.Right s := by
  rw [split, stepsMeet_append] at meets
  have start : noCaches.indir1.Valid v := .inl rfl
  have preserved (s : Caches) (c : Call v) (valid : s.indir1.Valid v) (ok : c.Meets s) :
      ∃ t, step s c = some t ∧ t.indir1.Valid v :=
    ⟨_, rfl, (ok.spec valid).1⟩
  obtain ⟨s, arrived, valid⟩ := invariant_of_run preserved start meets.1
  exact ⟨s, arrived, ((meets.2 s arrived).1.spec valid).2⟩

/-- Only the reads into some of the buffers succeed. -/
def Device.serving (v : Volume) (serves : Buffer → Bool) : Device v where
  reply
    | _, .block_read lba _ buffer => ⟨serves buffer, fun a => v.disk (lba * sectorSize + a)⟩
    | _, .malloc _ => ⟨true, fun _ => 0⟩
  honest _ _ _ _ _ _ _ := rfl

/-- Block 1 is a table of the number 2. -/
def fourBlocks : Volume where
  data := ⟨⟨0, 8, true⟩, 0⟩
  disk := fun a => if a / 1024 = 1 then (if a % 4 = 0 then 2 else 0) else UInt8.ofNat a
  known := by decide
  fits := by decide

lemma inside_fourBlocks {block : Nat} (low : block < 4) : fourBlocks.Inside block := fun _ => by
  change (block + 1) * 2 ≤ 8
  omega

/-- The thirteenth block has three bytes. -/
def behindTwelve : File fourBlocks where
  inode := ⟨12 * 1024 + 3, fun _ => 3, 1, 0⟩
  size_lt := (by decide : 12 * 1024 + 3 < 2 ^ 32)
  mapped := (by decide : 12 * 1024 + 3 ≤
    (indirectBlocks + fourBlocks.perblock * (fourBlocks.perblock + 1)) * fourBlocks.data.blksz)
  direct _ _ := inside_fourBlocks (by decide : 3 < 4)
  indirect := inside_fourBlocks (by decide : 1 < 4)
  indirectEntries _ k inside := inside_fourBlocks
    ((by decide +kernel : ∀ k < fourBlocks.perblock, fourBlocks.entry 1 k < 4) k inside)
  double missing := absurd rfl missing
  tables missing := absurd rfl missing
  doubleEntries missing := absurd rfl missing

def lastBytes (serves : Buffer → Bool) : Call fourBlocks where
  file := behindTwelve
  pos := 12 * 1024 + 1
  len := 2
  device := Device.serving fourBlocks serves
  pos_le := (by decide : 12 * 1024 + 1 ≤ 12 * 1024 + 3)
  pos_lt := by decide

def notSectors : Buffer → Bool
  | .sec_buf => false
  | _ => true

lemma lastBytes_count (serves : Buffer → Bool) : (lastBytes serves).count = 2 := by
  change min 2 (12 * 1024 + 3 - (12 * 1024 + 1)) = 2
  decide

lemma lastBytes_meets {serves : Buffer → Bool} (whole : serves .p)
    (table : ∀ held, serves (.indir1_block held)) (s : Caches) : (lastBytes serves).Meets s where
  clipped := .inr (by decide : 12 * 1024 + 1 + 2 ≤ 12 * 1024 + 3)
  present i _ inside := by
    rw [lastBytes_count] at inside
    have below : i * 1024 < 12 * 1024 + 1 + 2 := inside
    exact ⟨fun _ _ => ⟨Nat.one_ne_zero, (by decide : 1 * 2 < 2 ^ 31), rfl⟩, fun high => by
      have : 12 + 256 ≤ i := high
      omega⟩
  stored _ := by
    rw [lastBytes_count]
    exact (by decide +kernel : behindTwelve.block ((12 * 1024 + 1 + 2) / 1024) ≠ 0)
  rounds := .inl (by
    rw [lastBytes_count]
    exact (by decide : 12 * 1024 + 1 + 2 + 1024 ≤ 2 ^ 32))
  sound := Prog.Obeys.of_forall fun i q => by
    cases q with
    | malloc n => trivial
    | block_read lba count buffer =>
      cases buffer with
      | p => exact whole
      | indir1_block held => exact .inl (table held)
      | sec_buf => trivial
      | buf => trivial
      | indir2_block => trivial

/-- Two bytes behind the indirect block, and again from a device that does not read parts of
sectors. -/
theorem indirect_block_read :
    (∃ s, runFrom (@step fourBlocks) noCaches [] = some s ∧ (lastBytes fun _ => true).Right s) ∧
      ∃ s, runFrom step noCaches [lastBytes fun _ => true] = some s ∧
        (lastBytes notSectors).Right s := by
  have right := reads_right fourBlocks [lastBytes fun _ => true, lastBytes notSectors]
    ⟨lastBytes_meets rfl (fun _ => rfl) _, fun _ _ =>
      ⟨lastBytes_meets rfl (fun _ => rfl) _, fun _ _ => trivial⟩⟩
  exact ⟨right [] _ _ rfl, right [_] _ _ rfl⟩

/-- Three bytes in a block that is missing. -/
def threeBytes : File fourBlocks where
  inode := ⟨3, fun _ => 0, 0, 0⟩
  size_lt := (by decide : 3 < 2 ^ 32)
  mapped := (by decide : 3 ≤ (indirectBlocks + fourBlocks.perblock * (fourBlocks.perblock + 1)) *
    fourBlocks.data.blksz)
  direct _ _ := fun missing => absurd rfl missing
  indirect missing := absurd rfl missing
  indirectEntries missing := absurd rfl missing
  double missing := absurd rfl missing
  tables missing := absurd rfl missing
  doubleEntries missing := absurd rfl missing

def twoBytes : Call fourBlocks where
  file := threeBytes
  pos := 1
  len := 2
  device := Device.serving fourBlocks fun _ => true
  pos_le := (by decide : 1 ≤ 3)
  pos_lt := by decide

/-- The last block is a hole, and zeros are stored up to its end. -/
theorem hole_overruns : ¬ ∀ (v : Volume) (calls before after : List (Call v)) (c : Call v),
    calls = before ++ c :: after → ∃ s, runFrom step noCaches before = some s ∧ c.Right s := by
  intro right
  obtain ⟨s, run, right⟩ := right fourBlocks [twoBytes] [] [] _ rfl
  obtain rfl := Option.some.inj run
  have returned : (twoBytes.outcome noCaches).result = some 2 := by
    decide +kernel
  have overrun : (twoBytes.outcome noCaches).stored 2 = some 0 := by
    decide +kernel
  rcases right with ⟨r, negative, result, -⟩ | ⟨-, stored⟩
  · obtain rfl := Option.some.inj (returned.symm.trans result)
    exact absurd negative (by decide)
  · rw [stored] at overrun
    exact absurd overrun (by decide +kernel)

end Ext2
