import Mathlib.Algebra.GroupWithZero.Nat
import UBoot.Lib.Dialogue

/-!
# Sectors of an ext2 volume (fs/ext2/dev.c)

The block device and the allocator are the environment. A buffer that is stored into is a partial
map from its addresses, which says what has been stored.
-/

namespace Ext2

open Dialogue

abbrev Bytes := Nat → UInt8

abbrev Stored := Nat → Option UInt8

/-- A buffer for one block of a map of blocks, its size, and the sector that it was read from. -/
structure Cache where
  block : Option Bytes
  size : Nat
  blkno : Nat

inductive Buffer where
  | sec_buf
  | p
  | buf
  | indir1_block (held : Cache)
  | indir2_block

inductive Query where
  | block_read (lba count : Nat) (buffer : Buffer)
  | malloc (size : Nat)

/-- Whether all sectors have been read, or there is memory, and what the buffer holds then. -/
structure Reply where
  ok : Bool
  data : Bytes

abbrev Run (α : Type) : Type := Prog Query Reply Empty α

/-- `part_info`, and whether `ext2fs_block_dev_desc` has been set -/
structure Part where
  start : Nat
  size : Nat
  desc : Bool

def sectorSize : Nat := 512

def upto (n : Nat) (data : Bytes) : Stored := fun a => if a < n then some (data a) else none

def copied (stored : Stored) (place n : Nat) (data : Bytes) : Stored :=
  fun a => if place ≤ a ∧ a < place + n then some (data (a - place)) else stored a

def nothing : Stored := fun _ => none

/-- "read rest of data which are not in whole sector" -/
def readRest (part : Part) (sector byte_len place : Nat) (stored : Stored) : Run (Bool × Stored) :=
  if byte_len ≠ 0 then
    .ask (.block_read (part.start + sector) 1 .sec_buf) fun r =>
      if ¬ r.ok then .done (false, stored)
      else .done (true, copied stored place byte_len r.data)
  else .done (true, stored)

def readAligned (part : Part) (sector byte_len place : Nat) (buffer : Buffer) (stored : Stored) :
    Run (Bool × Stored) :=
  let block_len := byte_len / sectorSize * sectorSize
  if byte_len = 0 then .done (true, stored)
  else if block_len = 0 then
    .ask (.block_read (part.start + sector) 1 .p) fun r =>
      .done (true, copied stored place byte_len r.data)
  else
    .ask (.block_read (part.start + sector) (block_len / sectorSize) buffer) fun r =>
      let stored := copied stored place block_len r.data
      if ¬ r.ok then .done (false, stored)
      else
        readRest part (sector + block_len / sectorSize) (byte_len - block_len) (place + block_len)
          stored

/-- The sector is not negative, and the last byte is in the partition; the comparison with its size
is unsigned. -/
def Part.Accepts (part : Part) (sector byte_offset byte_len : Nat) : Prop :=
  let last : Int := sector + (byte_offset + byte_len - 1 : Int) / sectorSize
  sector < 2 ^ 31 ∧ 0 ≤ last ∧ last < part.size

instance Part.Accepts.decidable (part : Part) (sector byte_offset byte_len : Nat) :
    Decidable (part.Accepts sector byte_offset byte_len) :=
  inferInstanceAs (Decidable (_ ∧ _ ∧ _))

/-- `ext2fs_devread`, with what it stores to `buf` -/
def ext2fsDevread (part : Part) (sector byte_offset byte_len : Nat) (buffer : Buffer) :
    Run (Bool × Stored) :=
  if ¬ part.Accepts sector byte_offset byte_len then .done (false, nothing)
  else
    let sector := sector + byte_offset / sectorSize
    let byte_offset := byte_offset % sectorSize
    if ¬ part.desc then .done (false, nothing)
    else if byte_offset ≠ 0 then
      .ask (.block_read (part.start + sector) 1 .sec_buf) fun r =>
        if ¬ r.ok then .done (false, nothing)
        else
          let first := min (sectorSize - byte_offset) byte_len
          readAligned part (sector + 1) (byte_len - first) first buffer
            (copied nothing 0 first fun a => r.data (byte_offset + a))
    else readAligned part sector byte_len 0 buffer nothing

/-- What the environment replies: sectors that have been read are those of the disk, and a short
read of the last sector does not fail. -/
structure Rules (disk : Bytes) (mayFail : Prop) (allows : Query → Reply → Prop) : Prop where
  honest : ∀ lba count buffer r, allows (.block_read lba count buffer) r → r.ok →
    ∀ a < count * sectorSize, r.data a = disk (lba * sectorSize + a)
  short : ∀ lba count r, allows (.block_read lba count .p) r → r.ok
  fails : ∀ q r, allows q r → ¬ r.ok → mayFail

section
variable {disk data more : Bytes} {mayFail : Prop} {allows : Query → Reply → Prop} {part : Part}
  {sector byte_offset byte_len place n m : Nat} {buffer : Buffer} {stored : Stored}

lemma copied_upto (same : ∀ a < m, more a = data (n + a)) :
    copied (upto n data) n m more = upto (n + m) data := by
  funext a
  rw [copied, upto, upto]
  by_cases low : a < n
  · rw [if_neg fun inside => Nat.not_lt.mpr inside.1 low, if_pos low,
      if_pos (Nat.lt_of_lt_of_le low (Nat.le_add_right n m))]
  by_cases inside : a < n + m
  · rw [if_pos ⟨Nat.not_lt.mp low, inside⟩, if_pos inside, same (a - n) (by omega),
      Nat.add_sub_cancel' (Nat.not_lt.mp low)]
  · rw [if_neg fun here => inside here.2, if_neg low, if_neg inside]

lemma upto_zero : upto 0 data = nothing := by
  funext a
  exact if_neg (Nat.not_lt_zero a)

lemma copied_nothing (same : ∀ a < m, more a = data a) :
    copied nothing 0 m more = upto m data := by
  rw [← @upto_zero data, copied_upto fun a inside => ?_, Nat.zero_add]
  rw [Nat.zero_add]
  exact same a inside

def Delivers (mayFail : Prop) (n : Nat) (data : Bytes) (result : Bool × Stored) : Prop :=
  (result.1 = false ∧ mayFail) ∨ result = (true, upto n data)

lemma Rules.readRest (rules : Rules disk mayFail allows) (small : byte_len < sectorSize)
    (same : ∀ a < byte_len, data (place + a) = disk ((part.start + sector) * sectorSize + a)) :
    Prog.Ensures allows (Delivers mayFail (place + byte_len) data)
      (Ext2.readRest part sector byte_len place (upto place data)) := by
  rw [Ext2.readRest]
  by_cases more : byte_len ≠ 0
  · rw [if_pos more]
    intro r allowed
    beta_reduce
    by_cases ok : r.ok
    · rw [if_neg (not_not.mpr ok)]
      refine .inr (congrArg _ (copied_upto fun a inside => ?_))
      rw [same a inside]
      exact rules.honest _ _ _ r allowed ok a (by rw [Nat.one_mul]; omega)
    · rw [if_pos ok]
      exact .inl ⟨rfl, rules.fails _ r allowed ok⟩
  · rw [if_neg more]
    rw [not_not] at more
    rw [more]
    exact .inr rfl

lemma Rules.readAligned (rules : Rules disk mayFail allows)
    (same : ∀ a < byte_len, data (place + a) = disk ((part.start + sector) * sectorSize + a)) :
    Prog.Ensures allows (Delivers mayFail (place + byte_len) data)
      (Ext2.readAligned part sector byte_len place buffer (upto place data)) := by
  rw [Ext2.readAligned]
  by_cases none_left : byte_len = 0
  · rw [if_pos none_left, none_left]
    exact .inr rfl
  have positive : 0 < sectorSize := by decide
  rw [if_neg none_left]
  by_cases short : byte_len / sectorSize * sectorSize = 0
  · rw [if_pos short]
    intro r allowed
    have small : byte_len < 1 * sectorSize := by
      rw [Nat.one_mul]
      rw [Nat.mul_eq_zero, or_iff_left (Nat.ne_of_gt positive), Nat.div_eq_zero_iff] at short
      exact short.resolve_left (Nat.ne_of_gt positive)
    refine .inr (congrArg _ (copied_upto fun a inside => ?_))
    rw [same a inside]
    exact rules.honest _ _ _ r allowed (rules.short _ _ r allowed) a (Nat.lt_trans inside small)
  rw [if_neg short]
  intro r allowed
  beta_reduce
  have whole : byte_len / sectorSize * sectorSize ≤ byte_len := Nat.div_mul_le_self _ _
  have count : byte_len / sectorSize * sectorSize / sectorSize = byte_len / sectorSize :=
    Nat.mul_div_cancel _ positive
  by_cases ok : r.ok
  · rw [if_neg (not_not.mpr ok), copied_upto fun a inside => ?_]
    · have left : byte_len - byte_len / sectorSize * sectorSize = byte_len % sectorSize := by
        rw [Nat.mod_eq_sub_mul_div, Nat.mul_comm]
      have total : place + byte_len =
          place + byte_len / sectorSize * sectorSize + byte_len % sectorSize := by
        omega
      rw [left, count, total]
      refine rules.readRest (Nat.mod_lt _ positive) fun a inside => ?_
      rw [Nat.add_assoc, same _ (by omega), ← Nat.add_assoc, ← Nat.add_assoc,
        Nat.add_mul (part.start + sector)]
    · rw [same a (Nat.lt_of_lt_of_le inside whole)]
      exact rules.honest _ _ _ r allowed ok a (by rwa [count])
  · rw [if_pos ok]
    exact .inl ⟨rfl, rules.fails _ r allowed ok⟩

lemma Rules.devread (rules : Rules disk mayFail allows)
    (rejects : ¬ part.Accepts sector byte_offset byte_len → mayFail) (unset : ¬ part.desc → mayFail)
    (same : ∀ a < byte_len,
      data a = disk ((part.start + sector) * sectorSize + byte_offset + a)) :
    Prog.Ensures allows (Delivers mayFail byte_len data)
      (ext2fsDevread part sector byte_offset byte_len buffer) := by
  rw [ext2fsDevread]
  by_cases accepts : part.Accepts sector byte_offset byte_len
  swap
  · rw [if_pos accepts]
    exact .inl ⟨rfl, rejects accepts⟩
  rw [if_neg (not_not.mpr accepts)]
  dsimp only
  by_cases set : part.desc
  swap
  · rw [if_pos set]
    exact .inl ⟨rfl, unset set⟩
  rw [if_neg (not_not.mpr set)]
  have offset := Nat.div_add_mod byte_offset sectorSize
  rw [Nat.mul_comm] at offset
  have positive : 0 < sectorSize := by decide
  have begins : (part.start + (sector + byte_offset / sectorSize)) * sectorSize +
      byte_offset % sectorSize = (part.start + sector) * sectorSize + byte_offset := by
    rw [← Nat.add_assoc, Nat.add_mul _ (byte_offset / sectorSize)]
    omega
  by_cases unaligned : byte_offset % sectorSize ≠ 0
  · rw [if_pos unaligned]
    intro r allowed
    beta_reduce
    by_cases ok : r.ok
    swap
    · rw [if_pos ok]
      exact .inl ⟨rfl, rules.fails _ r allowed ok⟩
    have inside := Nat.mod_lt byte_offset positive
    have total : byte_len = min (sectorSize - byte_offset % sectorSize) byte_len +
        (byte_len - min (sectorSize - byte_offset % sectorSize) byte_len) := by
      omega
    rw [if_neg (not_not.mpr ok), copied_nothing fun a low => ?_]
    · have := @Rules.readAligned disk data mayFail allows part
        (sector + byte_offset / sectorSize + 1)
        (byte_len - min (sectorSize - byte_offset % sectorSize) byte_len)
        (min (sectorSize - byte_offset % sectorSize) byte_len) buffer rules fun a more => ?_
      · rwa [← total] at this
      rw [same _ (by omega)]
      have next : (part.start + (sector + byte_offset / sectorSize + 1)) * sectorSize =
          (part.start + (sector + byte_offset / sectorSize)) * sectorSize + sectorSize :=
        Nat.succ_mul _ _
      refine congrArg disk ?_
      omega
    · rw [same a (by omega), ← begins, Nat.add_assoc]
      exact rules.honest _ _ _ r allowed ok _ (by omega)
  · rw [if_neg unaligned]
    rw [not_not] at unaligned
    have := @Rules.readAligned disk data mayFail allows part (sector + byte_offset / sectorSize)
      byte_len 0 buffer rules fun a inside => ?_
    · rwa [Nat.zero_add, upto_zero] at this
    rw [Nat.zero_add, same a inside, ← begins, unaligned, Nat.add_zero]

end

end Ext2
