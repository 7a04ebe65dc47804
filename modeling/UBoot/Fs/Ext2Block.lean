import UBoot.Lib.ByteOrder
import UBoot.Fs.Ext2Dev

/-!
# The blocks of a file (fs/ext2/ext2fs.c)

The numbers of blocks and sectors are 32-bit patterns, read as signed where the code does. The two
caches are shared by all files.
-/

namespace Ext2

open Dialogue LittleEndian

def indirectBlocks : Nat := 12

def minusOne : Nat := 2 ^ 32 - 1

structure Data where
  part : Part
  log2_block_size : Nat

def Data.log2 (data : Data) : Nat := data.log2_block_size + 1

def Data.blksz (data : Data) : Nat := 2 ^ (data.log2_block_size + 10)

structure Inode where
  size : Nat
  dir_blocks : Nat → Nat
  indir_block : Nat
  double_indir_block : Nat

structure Caches where
  indir1 : Cache
  indir2 : Cache

/-- `indir1_block`, `indir2_block` and what belongs to them, before the first call -/
def noCaches : Caches := ⟨⟨none, 0, minusOne⟩, ⟨none, 0, minusOne⟩⟩

def shifted (block log2_blksz : Nat) : Nat := block * 2 ^ log2_blksz % 2 ^ 32

def allocate (cache : Cache) (blksz : Nat) : Run (Bool × Cache) :=
  match cache.block with
  | none => .ask (.malloc blksz) fun r =>
      if r.ok then .done (true, ⟨some r.data, blksz, minusOne⟩) else .done (false, cache)
  | some _ =>
    if blksz ≠ cache.size then
      .ask (.malloc blksz) fun r =>
        if r.ok then .done (true, ⟨some r.data, blksz, minusOne⟩)
        else .done (false, ⟨none, 0, minusOne⟩)
    else .done (true, cache)

def Cache.store (cache : Cache) (stored : Stored) : Cache :=
  { cache with block := cache.block.map fun block a => (stored a).getD (block a) }

def load (part : Part) (cache : Cache) (held sector blksz : Nat) (buffer : Buffer) :
    Run (Bool × Cache) :=
  if sector ≠ held then
    ext2fsDevread part sector 0 blksz buffer >>= fun (status, stored) =>
      if ¬ status then .done (false, cache.store stored)
      else .done (true, { cache.store stored with blkno := sector })
  else .done (true, cache)

def Cache.entry (cache : Cache) (k : Nat) : Nat :=
  word 4 fun i => cache.block.getD (fun _ => 0) (4 * k + i)

def readIndirect (data : Data) (inode : Inode) (fileblock : Nat) (s : Caches) :
    Run (Nat × Caches) :=
  allocate s.indir1 data.blksz >>= fun (there, indir1) =>
    if ¬ there then .done (minusOne, { s with indir1 := indir1 })
    else
      load data.part indir1 indir1.blkno (shifted inode.indir_block data.log2) data.blksz
          (.indir1_block indir1) >>= fun (status, indir1) =>
        if ¬ status then .done (0, { s with indir1 := indir1 })
        else .done (indir1.entry (fileblock - indirectBlocks), { s with indir1 := indir1 })

/-- The second table of "Double indirect."; its sector is compared with the one in the first
cache. -/
def readSecond (data : Data) (indir1 : Cache) (rblock : Nat) (s : Caches) : Run (Nat × Caches) :=
  let perblock := data.blksz / 4
  allocate s.indir2 data.blksz >>= fun (there, indir2) =>
    if ¬ there then .done (minusOne, ⟨indir1, indir2⟩)
    else
      load data.part indir2 indir1.blkno (shifted (indir1.entry (rblock / perblock)) data.log2)
          data.blksz .indir2_block >>= fun (status, indir2) =>
        if ¬ status then .done (minusOne, ⟨indir1, indir2⟩)
        else .done (indir2.entry (rblock % perblock), ⟨indir1, indir2⟩)

def readDouble (data : Data) (inode : Inode) (fileblock : Nat) (s : Caches) :
    Run (Nat × Caches) :=
  let perblock := data.blksz / 4
  let rblock := fileblock - (indirectBlocks + perblock)
  allocate s.indir1 data.blksz >>= fun (there, indir1) =>
    if ¬ there then .done (minusOne, { s with indir1 := indir1 })
    else
      load data.part indir1 indir1.blkno (shifted inode.double_indir_block data.log2) data.blksz
          (.indir1_block indir1) >>= fun (status, indir1) =>
        if ¬ status then .done (minusOne, { s with indir1 := indir1 })
        else readSecond data indir1 rblock s

/-- `ext2fs_read_block`, for a block that is not negative -/
def ext2fsReadBlock (data : Data) (inode : Inode) (fileblock : Nat) (s : Caches) :
    Run (Nat × Caches) :=
  if fileblock < indirectBlocks then .done (inode.dir_blocks fileblock, s)
  else if fileblock < indirectBlocks + data.blksz / 4 then readIndirect data inode fileblock s
  else if fileblock < indirectBlocks + data.blksz / 4 * (data.blksz / 4 + 1) then
    readDouble data inode fileblock s
  else .done (minusOne, s)

structure Volume where
  data : Data
  disk : Bytes
  known : data.log2_block_size ≤ 6
  fits : data.part.size < 2 ^ 32

def Volume.perblock (v : Volume) : Nat := v.data.blksz / 4

def Volume.byte (v : Volume) (block a : Nat) : UInt8 :=
  v.disk ((v.data.part.start + block * 2 ^ v.data.log2) * sectorSize + a)

def Volume.entry (v : Volume) (block k : Nat) : Nat := word 4 fun i => v.byte block (4 * k + i)

def Volume.Inside (v : Volume) (block : Nat) : Prop :=
  block ≠ 0 → (block + 1) * 2 ^ v.data.log2 ≤ v.data.part.size

/-- A file, up to double indirect blocks. The block of a second table is not that of the first. -/
structure File (v : Volume) where
  inode : Inode
  size_lt : inode.size < 2 ^ 32
  mapped : inode.size ≤ (indirectBlocks + v.perblock * (v.perblock + 1)) * v.data.blksz
  direct : ∀ i < indirectBlocks, v.Inside (inode.dir_blocks i)
  indirect : v.Inside inode.indir_block
  indirectEntries : inode.indir_block ≠ 0 →
    ∀ k < v.perblock, v.Inside (v.entry inode.indir_block k)
  double : v.Inside inode.double_indir_block
  tables : inode.double_indir_block ≠ 0 → ∀ k < v.perblock,
    v.Inside (v.entry inode.double_indir_block k) ∧
      v.entry inode.double_indir_block k ≠ inode.double_indir_block
  doubleEntries : inode.double_indir_block ≠ 0 →
    ∀ j < v.perblock, v.entry inode.double_indir_block j ≠ 0 →
      ∀ k < v.perblock, v.Inside (v.entry (v.entry inode.double_indir_block j) k)

def File.table {v : Volume} (f : File v) (i : Nat) : Nat :=
  v.entry f.inode.double_indir_block ((i - (indirectBlocks + v.perblock)) / v.perblock)

def File.block {v : Volume} (f : File v) (i : Nat) : Nat :=
  if i < indirectBlocks then f.inode.dir_blocks i
  else if i < indirectBlocks + v.perblock then
    if f.inode.indir_block = 0 then 0 else v.entry f.inode.indir_block (i - indirectBlocks)
  else if f.inode.double_indir_block = 0 ∨ f.table i = 0 then 0
  else v.entry (f.table i) ((i - (indirectBlocks + v.perblock)) % v.perblock)

def File.Present {v : Volume} (f : File v) (i : Nat) : Prop :=
  (indirectBlocks ≤ i → i < indirectBlocks + v.perblock →
    f.inode.indir_block ≠ 0 ∧ f.inode.indir_block * 2 ^ v.data.log2 < 2 ^ 31 ∧ v.data.part.desc) ∧
  (indirectBlocks + v.perblock ≤ i → f.inode.double_indir_block ≠ 0 ∧ f.table i ≠ 0)

section
variable {v : Volume}

lemma Volume.sectors (v : Volume) : v.data.blksz = 2 ^ v.data.log2 * sectorSize := by
  rw [Data.blksz, Data.log2, sectorSize, show 512 = 2 ^ 9 from rfl, ← Nat.pow_add]

lemma Volume.entries (v : Volume) : v.data.blksz = 4 * v.perblock := by
  have four : v.data.blksz = 2 ^ (v.data.log2_block_size + 8) * 4 := by
    rw [Data.blksz, show 4 = 2 ^ 2 from rfl, ← Nat.pow_add]
  rw [Volume.perblock, four, Nat.mul_div_cancel _ (by decide : 0 < 4), mul_comm]

lemma Volume.shifted_eq {block : Nat} (inside : v.Inside block) :
    shifted block v.data.log2 = block * 2 ^ v.data.log2 := by
  refine Nat.mod_eq_of_lt ?_
  by_cases hole : block = 0
  · rw [hole, zero_mul]
    decide
  · refine lt_of_le_of_lt ?_ v.fits
    exact le_trans (Nat.mul_le_mul_right _ (Nat.le_succ block)) (inside hole)

lemma shifted_ne (data : Data) (block : Nat) : shifted block data.log2 ≠ minusOne := by
  have even : shifted block data.log2 % 2 = 0 := by
    rw [shifted, Nat.mod_mod_of_dvd _ (by decide : 2 ∣ 2 ^ 32), Data.log2, Nat.pow_succ,
      ← mul_assoc, Nat.mul_mod_left]
  intro same
  rw [same] at even
  exact absurd even (by decide)

def Cache.Holds (v : Volume) (c : Cache) (sector : Nat) : Prop :=
  ∃ block, c.block = some block ∧
    ∀ a < v.data.blksz, block a = v.disk ((v.data.part.start + sector) * sectorSize + a)

def Cache.Valid (v : Volume) (c : Cache) : Prop := c.blkno = minusOne ∨ c.Holds v c.blkno

lemma Cache.Holds.entry {c : Cache} {block k : Nat}
    (holds : c.Holds v (block * 2 ^ v.data.log2)) (inside : k < v.perblock) :
    c.entry k = v.entry block k := by
  obtain ⟨held, some_block, same⟩ := holds
  rw [Cache.entry, Volume.entry, some_block, Option.getD_some]
  refine word_congr fun i low => same _ ?_
  rw [v.entries]
  omega

lemma Cache.store_same {c : Cache} {block more : Bytes} {n : Nat}
    (some_block : c.block = some block)
    (same : ∀ a < n, more a = block a) : c.store (upto n more) = c := by
  obtain ⟨_, size, blkno⟩ := c
  dsimp only at some_block
  rw [some_block, Cache.store, Option.map_some]
  refine congrArg (fun block => Cache.mk (some block) size blkno) (funext fun a => ?_)
  rw [upto]
  by_cases inside : a < n
  · rw [if_pos inside, Option.getD_some, same a inside]
  · rw [if_neg inside, Option.getD_none]

lemma Cache.store_nothing (c : Cache) : c.store nothing = c := by
  obtain ⟨block, size, blkno⟩ := c
  cases block with
  | none => rfl
  | some block => rfl

/-- What the environment replies while a file is read. A failed read of a block of numbers leaves
the buffer as it was if it holds anything, and the indirect block is read. -/
structure FileRules (f : File v) (mayFail : Prop) (allows : Query → Reply → Prop) : Prop
    extends Rules v.disk mayFail allows where
  kept : ∀ lba count held r, allows (.block_read lba count (.indir1_block held)) r → ¬ r.ok →
    held.blkno = minusOne ∨
      ∃ block, held.block = some block ∧ ∀ a < v.data.blksz, r.data a = block a
  single : ∀ count held r, allows (.block_read
    (v.data.part.start + f.inode.indir_block * 2 ^ v.data.log2) count (.indir1_block held)) r → r.ok
  unset : ¬ v.data.part.desc → mayFail
  large : 2 ^ 31 < v.data.part.size → mayFail

end

section
variable {v : Volume} {allows : Query → Reply → Prop} {mayFail fails : Prop} {cache : Cache}
  {sector held : Nat} {buffer : Buffer}

lemma devread_block (part : Part) (sector : Nat) {n : Nat} (positive : 0 < n) (buffer : Buffer) :
    ext2fsDevread part sector 0 (n * sectorSize) buffer =
      if part.Accepts sector 0 (n * sectorSize) ∧ part.desc then
        .ask (.block_read (part.start + sector) n buffer) fun r =>
          .done (r.ok, upto (n * sectorSize) r.data)
      else .done (false, nothing) := by
  have one : 0 < sectorSize := by decide
  have some_left : n * sectorSize ≠ 0 := Nat.ne_of_gt (mul_pos positive one)
  rw [ext2fsDevread]
  by_cases accepts : part.Accepts sector 0 (n * sectorSize)
  swap
  · rw [if_pos accepts, if_neg fun both => accepts both.1]
  rw [if_neg (not_not.mpr accepts)]
  by_cases set : part.desc
  swap
  · rw [if_pos set, if_neg fun both => set both.2]
  have asks : part.Accepts sector 0 (n * sectorSize) ∧ part.desc := ⟨accepts, set⟩
  have aligned : ¬ 0 % sectorSize ≠ 0 := not_not.mpr rfl
  rw [if_neg (not_not.mpr set), if_pos asks, if_neg aligned, Nat.zero_div, add_zero,
    readAligned]
  dsimp only
  rw [if_neg some_left, Nat.mul_div_cancel _ one, if_neg some_left, Nat.mul_div_cancel _ one,
    Nat.sub_self]
  refine congrArg _ (funext fun r => ?_)
  rw [copied_nothing fun a _ => rfl, readRest, if_neg (not_not.mpr rfl)]
  cases r.ok with
  | false => rfl
  | true => rfl

lemma allocate_cases (mem : ∀ n r, allows (.malloc n) r → ¬ r.ok → mayFail) (blksz : Nat) :
    Prog.Ensures allows (fun (there, c) => (c = cache ∨ c.blkno = minusOne) ∧
      (there = true ∧ c.block.isSome ∨ there = false ∧ mayFail)) (allocate cache blksz) := by
  rw [allocate]
  cases some_block : cache.block with
  | none =>
    intro r allowed
    beta_reduce
    by_cases ok : r.ok
    · rw [if_pos ok]
      exact ⟨.inr rfl, .inl ⟨rfl, rfl⟩⟩
    · rw [if_neg ok]
      exact ⟨.inl rfl, .inr ⟨rfl, mem _ r allowed ok⟩⟩
  | some block =>
    by_cases other : blksz ≠ cache.size
    · rw [if_pos other]
      intro r allowed
      beta_reduce
      by_cases ok : r.ok
      · rw [if_pos ok]
        exact ⟨.inr rfl, .inl ⟨rfl, rfl⟩⟩
      · rw [if_neg ok]
        exact ⟨.inr rfl, .inr ⟨rfl, mem _ r allowed ok⟩⟩
    · rw [if_neg other]
      exact ⟨.inl rfl, .inl ⟨rfl, some_block ▸ rfl⟩⟩

lemma load_cases (rules : Rules v.disk mayFail allows) (there : cache.block.isSome)
    (other : sector ≠ held)
    (rejects : ¬ v.data.part.Accepts sector 0 v.data.blksz → fails)
    (unset : ¬ v.data.part.desc → fails)
    (unread : ∀ r, allows (.block_read (v.data.part.start + sector) (2 ^ v.data.log2) buffer) r →
      ¬ r.ok → fails) :
    Prog.Ensures allows (fun (status, c) =>
      status = true ∧ c.Holds v sector ∧ c.blkno = sector ∨
      status = false ∧ fails ∧ (c = cache ∨ ∃ r, ¬ r.ok ∧
        allows (.block_read (v.data.part.start + sector) (2 ^ v.data.log2) buffer) r ∧
          c = cache.store (upto v.data.blksz r.data)))
      (load v.data.part cache held sector v.data.blksz buffer) := by
  obtain ⟨block, some_block⟩ := Option.isSome_iff_exists.mp there
  rw [load, if_pos other, v.sectors, devread_block _ _ (Nat.two_pow_pos _), ← v.sectors]
  by_cases asks : v.data.part.Accepts sector 0 v.data.blksz ∧ v.data.part.desc
  · rw [if_pos asks]
    intro r allowed
    change Prog.Ensures allows _ (if ¬ r.ok then _ else _)
    by_cases ok : r.ok
    · rw [if_neg (not_not.mpr ok)]
      refine .inl ⟨rfl, ⟨_, by rw [Cache.store, some_block, Option.map_some], fun a inside => ?_⟩,
        rfl⟩
      rw [upto, if_pos inside, Option.getD_some]
      exact rules.honest _ _ _ r allowed ok a (by rwa [← v.sectors])
    · rw [if_pos ok]
      exact .inr ⟨rfl, unread r allowed ok, .inr ⟨r, ok, allowed, rfl⟩⟩
  · rw [if_neg asks]
    change Prog.Ensures allows _ (.done (false, cache.store nothing))
    rw [cache.store_nothing]
    refine .inr ⟨rfl, ?_, .inl rfl⟩
    by_cases accepts : v.data.part.Accepts sector 0 v.data.blksz
    · exact unset fun set => asks ⟨accepts, set⟩
    · exact rejects accepts

end

section
variable {v : Volume} {f : File v} {allows : Query → Reply → Prop} {mayFail fails : Prop}
  {cache : Cache} {sector held : Nat}

lemma FileRules.load (rules : FileRules f mayFail allows) (valid : cache.Valid v)
    (there : cache.block.isSome) (proper : sector ≠ minusOne)
    (rejects : ¬ v.data.part.Accepts sector 0 v.data.blksz → fails)
    (unset : ¬ v.data.part.desc → fails)
    (unread : ∀ r, allows (.block_read (v.data.part.start + sector) (2 ^ v.data.log2)
      (.indir1_block cache)) r → ¬ r.ok → fails) :
    Prog.Ensures allows (fun (status, c) => c.Valid v ∧
      (status = true ∧ c.Holds v sector ∧ c.blkno = sector ∨ status = false ∧ fails))
      (Ext2.load v.data.part cache cache.blkno sector v.data.blksz (.indir1_block cache)) := by
  by_cases other : sector ≠ cache.blkno
  · refine (load_cases rules.toRules there other rejects unset unread).mono ?_
    rintro ⟨status, c⟩ (⟨rfl, holds, rfl⟩ | ⟨rfl, failed, kept⟩)
    · exact ⟨.inr holds, .inl ⟨rfl, holds, rfl⟩⟩
    · refine ⟨?_, .inr ⟨rfl, failed⟩⟩
      rcases kept with rfl | ⟨r, not_ok, allowed, rfl⟩
      · exact valid
      · rcases rules.kept _ _ _ r allowed not_ok with empty | ⟨block, some_block, same⟩
        · exact .inl empty
        · rwa [Cache.store_same some_block same]
  · rw [Ext2.load, if_neg other]
    rw [not_not] at other
    refine ⟨valid, .inl ⟨rfl, ?_, other.symm⟩⟩
    rcases valid with empty | holds
    · exact absurd (other.trans empty) proper
    · rwa [other]

end

section
variable {v : Volume} {f : File v} {allows : Query → Reply → Prop} {mayFail : Prop}
  {s : Caches} {block i byte_offset byte_len : Nat}

lemma Volume.accepts (inside : v.Inside block) (stored : block ≠ 0)
    (low : block * 2 ^ v.data.log2 < 2 ^ 31) (some_byte : 0 < byte_offset + byte_len)
    (within : byte_offset + byte_len ≤ v.data.blksz) :
    v.data.part.Accepts (block * 2 ^ v.data.log2) byte_offset byte_len := by
  have last : ((byte_offset + byte_len - 1 : Int)) / sectorSize =
      ((byte_offset + byte_len - 1) / sectorSize : Nat) := by
    rw [Int.natCast_ediv, Int.natCast_sub some_byte]
    rfl
  have count : (byte_offset + byte_len - 1) / sectorSize < 2 ^ v.data.log2 := by
    refine Nat.div_lt_of_lt_mul ?_
    rw [mul_comm, ← v.sectors]
    omega
  have room := inside stored
  rw [Nat.succ_mul] at room
  rw [Part.Accepts, last]
  generalize (byte_offset + byte_len - 1) / sectorSize = q at count
  exact ⟨low, by omega, by omega⟩

lemma FileRules.rejects (rules : FileRules f mayFail allows) (inside : v.Inside block)
    (stored : block ≠ 0) (some_byte : 0 < byte_offset + byte_len)
    (within : byte_offset + byte_len ≤ v.data.blksz)
    (rejected : ¬ v.data.part.Accepts (block * 2 ^ v.data.log2) byte_offset byte_len) :
    mayFail := by
  have high : 2 ^ 31 ≤ block * 2 ^ v.data.log2 :=
    not_lt.mp fun low => rejected (v.accepts inside stored low some_byte within)
  refine rules.large (lt_of_le_of_lt high (lt_of_lt_of_le ?_ (inside stored)))
  exact Nat.mul_lt_mul_of_pos_right (Nat.lt_succ_self block) (Nat.two_pow_pos _)

lemma FileRules.memory (rules : FileRules f mayFail allows) (n : Nat) (r : Reply)
    (allowed : allows (.malloc n) r) (not_ok : ¬ r.ok) : mayFail :=
  rules.fails _ r allowed not_ok

lemma Volume.blksz_pos (v : Volume) : 0 < v.data.blksz := Nat.two_pow_pos _

lemma Volume.perblock_pos (v : Volume) : 0 < v.perblock := by
  have some_byte := v.blksz_pos
  rw [v.entries] at some_byte
  omega

def Numbers (f : File v) (mayFail : Prop) (i nr : Nat) : Prop :=
  nr = f.block i ∨ nr = minusOne ∧ mayFail

lemma FileRules.readIndirect (rules : FileRules f mayFail allows) (valid : s.indir1.Valid v)
    (low : indirectBlocks ≤ i) (high : i < indirectBlocks + v.perblock) :
    Prog.Ensures allows (fun (nr, s') => s'.indir1.Valid v ∧ (f.Present i → Numbers f mayFail i nr))
      (Ext2.readIndirect v.data f.inode i s) := by
  rw [Ext2.readIndirect]
  refine (allocate_cases rules.memory _).bind ?_
  rintro ⟨there, indir1⟩ ⟨same, result⟩
  replace valid : indir1.Valid v := same.elim (fun same => same ▸ valid) .inl
  obtain ⟨rfl, there⟩ | ⟨rfl, failed⟩ := result
  swap
  · exact ⟨valid, fun _ => .inr ⟨rfl, failed⟩⟩
  refine (@FileRules.load v f allows mayFail (¬ f.Present i) indir1 _ rules valid there
    (shifted_ne _ _) (fun rejected present => ?_) (fun unset present => ?_)
    (fun r allowed not_ok _ => ?_)).bind ?_
  · obtain ⟨stored, low_sector, -⟩ := present.1 low high
    rw [v.shifted_eq f.indirect] at rejected
    refine rejected (v.accepts f.indirect stored low_sector ?_ (le_of_eq (zero_add _)))
    rw [zero_add]
    exact v.blksz_pos
  · exact unset (present.1 low high).2.2
  · rw [v.shifted_eq f.indirect] at allowed
    exact not_ok (rules.single _ _ r allowed)
  · rintro ⟨status, c⟩ ⟨valid, ⟨rfl, holds, -⟩ | ⟨rfl, absent⟩⟩
    · refine ⟨valid, fun present => .inl ?_⟩
      rw [v.shifted_eq f.indirect] at holds
      rw [File.block, if_neg (not_lt.mpr low), if_pos high, if_neg (present.1 low high).1]
      exact holds.entry (by omega)
    · exact ⟨valid, fun present => absurd present absent⟩

lemma readSecond_keeps (data : Data) (indir1 : Cache) (rblock : Nat) :
    Prog.Ensures allows (fun r => r.2.indir1 = indir1) (readSecond data indir1 rblock s) := by
  rw [readSecond]
  refine (Prog.ensures_true _).bind fun (there, indir2) _ => ?_
  cases there with
  | false => rfl
  | true =>
    refine (Prog.ensures_true _).bind fun (status, indir2) _ => ?_
    cases status with
    | false => rfl
    | true => rfl

lemma FileRules.readSecond (rules : FileRules f mayFail allows) {indir1 : Cache} {rblock : Nat}
    (entry : indir1.entry (rblock / v.perblock) = block) (stored : block ≠ 0)
    (inside : v.Inside block) (other : block * 2 ^ v.data.log2 ≠ indir1.blkno) :
    Prog.Ensures allows (fun (nr, s') => s'.indir1 = indir1 ∧
        (nr = v.entry block (rblock % v.perblock) ∨ nr = minusOne ∧ mayFail))
      (Ext2.readSecond v.data indir1 rblock s) := by
  rw [Ext2.readSecond]
  refine (allocate_cases rules.memory _).bind ?_
  rintro ⟨there, indir2⟩ ⟨-, ⟨rfl, there⟩ | ⟨rfl, failed⟩⟩
  swap
  · exact ⟨rfl, .inr ⟨rfl, failed⟩⟩
  change indir1.entry (rblock / (v.data.blksz / 4)) = block at entry
  have proper : shifted block v.data.log2 ≠ indir1.blkno := by rwa [v.shifted_eq inside]
  rw [entry]
  refine (@load_cases v allows mayFail mayFail indir2 (shifted block v.data.log2) indir1.blkno
    .indir2_block rules.toRules there proper (fun rejected => ?_) rules.unset
    (fun r allowed => rules.fails _ r allowed)).bind ?_
  · rw [v.shifted_eq inside] at rejected
    exact rules.rejects inside stored (by have := v.blksz_pos; omega) (by omega) rejected
  · rintro ⟨status, c⟩ (⟨rfl, holds, -⟩ | ⟨rfl, failed, -⟩)
    · rw [v.shifted_eq inside] at holds
      exact ⟨rfl, .inl (holds.entry (Nat.mod_lt _ v.perblock_pos))⟩
    · exact ⟨rfl, .inr ⟨rfl, failed⟩⟩

lemma FileRules.readDouble (rules : FileRules f mayFail allows) (valid : s.indir1.Valid v)
    (low : indirectBlocks + v.perblock ≤ i)
    (high : i < indirectBlocks + v.perblock * (v.perblock + 1)) :
    Prog.Ensures allows (fun (nr, s') => s'.indir1.Valid v ∧ (f.Present i → Numbers f mayFail i nr))
      (Ext2.readDouble v.data f.inode i s) := by
  have row : (i - (indirectBlocks + v.perblock)) / v.perblock < v.perblock := by
    refine Nat.div_lt_of_lt_mul ?_
    rw [Nat.mul_succ] at high
    omega
  rw [Ext2.readDouble]
  refine (allocate_cases rules.memory _).bind ?_
  rintro ⟨there, indir1⟩ ⟨same, result⟩
  replace valid : indir1.Valid v := same.elim (fun same => same ▸ valid) .inl
  obtain ⟨rfl, there⟩ | ⟨rfl, failed⟩ := result
  swap
  · exact ⟨valid, fun _ => .inr ⟨rfl, failed⟩⟩
  have stored (present : f.Present i) : f.inode.double_indir_block ≠ 0 := (present.2 low).1
  refine (@FileRules.load v f allows mayFail (f.Present i → mayFail) indir1 _ rules valid there
    (shifted_ne _ _) (fun rejected present => ?_) (fun unset _ => rules.unset unset)
    (fun r allowed not_ok _ => rules.fails _ r allowed not_ok)).bind ?_
  · rw [v.shifted_eq f.double] at rejected
    refine rules.rejects f.double (stored present) ?_ (by omega) rejected
    have := v.blksz_pos
    omega
  · rintro ⟨status, c⟩ ⟨valid, ⟨rfl, holds, blkno⟩ | ⟨rfl, failed⟩⟩
    swap
    · exact ⟨valid, fun present => .inr ⟨rfl, failed present⟩⟩
    rw [v.shifted_eq f.double] at holds blkno
    change Prog.Ensures allows _ (Ext2.readSecond v.data c (i - (indirectBlocks + v.perblock)) s)
    by_cases present : f.Present i
    · have table := (present.2 low).2
      obtain ⟨inside, other⟩ := f.tables (stored present) _ row
      refine (@FileRules.readSecond v f allows mayFail s _ rules c _ (holds.entry row) table inside
        fun same => other ?_).mono ?_
      · rw [blkno] at same
        exact Nat.eq_of_mul_eq_mul_right (Nat.two_pow_pos _) same
      · rintro ⟨nr, s'⟩ ⟨kept, number⟩
        refine ⟨kept ▸ valid, fun _ => number.imp (fun nr_eq => ?_) id⟩
        rw [File.block, if_neg (by omega), if_neg (not_lt.mpr low),
          if_neg (not_or.mpr ⟨stored present, table⟩)]
        exact nr_eq
    · refine (readSecond_keeps v.data c _).mono fun r kept => ?_
      exact ⟨kept ▸ valid, fun here => absurd here present⟩

lemma FileRules.readBlock (rules : FileRules f mayFail allows) (valid : s.indir1.Valid v)
    (mapped : i < indirectBlocks + v.perblock * (v.perblock + 1)) :
    Prog.Ensures allows (fun (nr, s') => s'.indir1.Valid v ∧ (f.Present i → Numbers f mayFail i nr))
      (ext2fsReadBlock v.data f.inode i s) := by
  rw [ext2fsReadBlock]
  by_cases direct : i < indirectBlocks
  · rw [if_pos direct]
    refine ⟨valid, fun _ => .inl ?_⟩
    rw [File.block, if_pos direct]
  rw [if_neg direct]
  by_cases single : i < indirectBlocks + v.data.blksz / 4
  · rw [if_pos single]
    exact rules.readIndirect valid (not_lt.mp direct) single
  · have double : i < indirectBlocks + v.data.blksz / 4 * (v.data.blksz / 4 + 1) := mapped
    rw [if_neg single, if_pos double]
    exact rules.readDouble valid (not_lt.mp single) mapped

end

end Ext2
