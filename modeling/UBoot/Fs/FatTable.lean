import UBoot.Fs.Fat
import UBoot.Lib.Runs

/-!
# The table of clusters (fs/fat/fat.c)

`get_fatent` keeps six sectors of the table. Lookups give what is on the disk as long as every read
either brings all six or fails with a negative value and leaves the buffer alone; block drivers
promise neither.
-/

namespace FatTable

open ByteMemory Fat Runs

abbrev Medium := UInt32 → Nat → UInt8

def view (medium : Medium) (start : UInt32) : Mem :=
  fun k => medium (start + UInt32.ofNat (k / 512)) (k % 512)

def tableStart (g : Geometry) (partOffset : UInt32) : UInt32 := g.fatSect.toUInt32 + partOffset

def rawEntry (table : Mem) (fatsize : FatSize) (n : Nat) : Nat :=
  match fatsize with
  | .fat32 => fat2cpu32 table (4 * n)
  | .fat16 => fat2cpu16 table (2 * n)
  | .fat12 =>
    if n % 2 = 0 then fat2cpu16 table (n * 3 / 2) % 4096 else fat2cpu16 table (n * 3 / 2) / 16

def tableEntry (table : Mem) (fatsize : FatSize) (n : Nat) : Nat :=
  if fatsize = .fat32 then rawEntry table fatsize n % 2 ^ 28 else rawEntry table fatsize n

lemma fat2cpu16_lt (m : Mem) (a : Nat) : fat2cpu16 m a < 65536 := by
  have low := (m a).toNat_lt
  have high := (m (a + 1)).toNat_lt
  rw [fat2cpu16]
  omega

lemma fat2cpu32_lt (m : Mem) (a : Nat) : fat2cpu32 m a < 2 ^ 32 := by
  have low := fat2cpu16_lt m a
  have high := fat2cpu16_lt m (a + 2)
  rw [fat2cpu32]
  omega

lemma fat2cpu16_congr {m m' : Mem} {a b : Nat} (first : m a = m' b)
    (second : m (a + 1) = m' (b + 1)) : fat2cpu16 m a = fat2cpu16 m' b := by
  rw [fat2cpu16, fat2cpu16, first, second]

lemma and_low (x : Nat) : x &&& 0xfff = x % 4096 := Nat.and_two_pow_sub_one_eq_mod x 12

lemma high_of_word {x : Nat} (word : x < 65536) :
    (x &&& 0xf000) >>> 12 = x / 4096 ∧ (x &&& 0xff00) >>> 8 = x / 256 ∧
      (x &&& 0xfff0) >>> 4 = x / 16 := by
  have four : x / 4096 &&& 15 = x / 4096 % 16 := Nat.and_two_pow_sub_one_eq_mod _ 4
  have eight : x / 256 &&& 255 = x / 256 % 256 := Nat.and_two_pow_sub_one_eq_mod _ 8
  have twelve : x / 16 &&& 4095 = x / 16 % 4096 := Nat.and_two_pow_sub_one_eq_mod _ 12
  rw [Nat.shiftRight_and_distrib, Nat.shiftRight_and_distrib, Nat.shiftRight_and_distrib,
    Nat.shiftRight_eq_div_pow, Nat.shiftRight_eq_div_pow x 8, Nat.shiftRight_eq_div_pow x 4]
  refine ⟨?_, ?_, ?_⟩
  · exact four.trans (by omega)
  · exact eight.trans (by omega)
  · exact twelve.trans (by omega)

lemma or_shifted {x y mask k bits : Nat} (ones : mask = 2 ^ bits - 1) (low : y < 2 ^ k) :
    ((x &&& mask) <<< k) ||| y = x % 2 ^ bits * 2 ^ k + y := by
  rw [ones, Nat.and_two_pow_sub_one_eq_mod, ← Nat.shiftLeft_add_eq_or_of_lt low, Nat.shiftLeft_eq]

def HoldsBlock (fatbuf table : Mem) (bufnum : Nat) : Prop :=
  ∀ k < 3072, fatbuf k = table (3072 * bufnum + k)

lemma buffered12 (fatbuf : Mem) (q : Nat) {r : Nat} (small : r < 4) :
    bufferedEntry fatbuf .fat12 (4 * q + r) =
      if r % 2 = 0 then fat2cpu16 fatbuf (6 * q + r * 3 / 2) % 4096
      else fat2cpu16 fatbuf (6 * q + r * 3 / 2) / 16 := by
  have zeroth := (fatbuf (6 * q)).toNat_lt
  have third := (fatbuf (6 * q + 3)).toNat_lt
  have second := (fatbuf (6 * q + 2)).toNat_lt
  have off16 : (4 * q + r) * 3 / 4 = 3 * q + r * 3 / 4 := by omega
  have align : (4 * q + r) % 4 = r := by omega
  rw [bufferedEntry, off16, align]
  rcases (show r = 0 ∨ r = 1 ∨ r = 2 ∨ r = 3 by omega) with rfl | rfl | rfl | rfl
  · rw [if_pos rfl, if_pos rfl, and_low]
    congr 2
    omega
  · have word := fat2cpu16_lt fatbuf (2 * (3 * q + 1 * 3 / 4))
    have low : fat2cpu16 fatbuf (2 * (3 * q + 1 * 3 / 4)) / 4096 < 2 ^ 4 := by omega
    have here : 2 * (3 * q + 1 * 3 / 4) = 6 * q := by omega
    have next : 2 * (3 * q + 1 * 3 / 4 + 1) = 6 * q + 2 := by omega
    rw [if_neg (by decide), if_pos rfl, if_neg (by decide), (high_of_word word).1,
      or_shifted (show 255 = 2 ^ 8 - 1 from rfl) low, here, next]
    change fat2cpu16 fatbuf (6 * q + 2) % 256 * 16 + fat2cpu16 fatbuf (6 * q) / 4096 =
      fat2cpu16 fatbuf (6 * q + 1) / 16
    simp only [fat2cpu16, add_assoc, Nat.reduceAdd]
    omega
  · have word := fat2cpu16_lt fatbuf (2 * (3 * q + 2 * 3 / 4))
    have low : fat2cpu16 fatbuf (2 * (3 * q + 2 * 3 / 4)) / 256 < 2 ^ 8 := by omega
    have here : 2 * (3 * q + 2 * 3 / 4) = 6 * q + 2 := by omega
    have next : 2 * (3 * q + 2 * 3 / 4 + 1) = 6 * q + 4 := by omega
    rw [if_neg (by decide), if_neg (by decide), if_pos rfl, if_pos rfl, (high_of_word word).2.1,
      or_shifted (show 15 = 2 ^ 4 - 1 from rfl) low, here, next]
    change fat2cpu16 fatbuf (6 * q + 4) % 16 * 256 + fat2cpu16 fatbuf (6 * q + 2) / 256 =
      fat2cpu16 fatbuf (6 * q + 3) % 4096
    simp only [fat2cpu16, add_assoc, Nat.reduceAdd]
    omega
  · have word := fat2cpu16_lt fatbuf (2 * (3 * q + 3 * 3 / 4))
    have here : 2 * (3 * q + 3 * 3 / 4) = 6 * q + 4 := by omega
    rw [if_neg (by decide), if_neg (by decide), if_neg (by decide), if_neg (by decide),
      (high_of_word word).2.2, here]

lemma held16 {fatbuf table : Mem} {bufnum : Nat} (held : HoldsBlock fatbuf table bufnum) {k : Nat}
    (inside : k + 1 < 3072) : fat2cpu16 fatbuf k = fat2cpu16 table (3072 * bufnum + k) :=
  fat2cpu16_congr (held k (Nat.lt_of_succ_lt inside)) (held (k + 1) inside)

lemma buffered_eq {fatbuf table : Mem} {bufnum : Nat} (held : HoldsBlock fatbuf table bufnum)
    (fatsize : FatSize) {offset : Nat} (inside : offset < (bufEntries fatsize).toNat) :
    bufferedEntry fatbuf fatsize offset =
      rawEntry table fatsize ((bufEntries fatsize).toNat * bufnum + offset) := by
  cases fatsize with
  | fat12 =>
    change offset < 2048 at inside
    change _ = rawEntry table .fat12 (2048 * bufnum + offset)
    obtain ⟨q, r, small, rfl⟩ : ∃ q r, r < 4 ∧ offset = 4 * q + r :=
      ⟨offset / 4, offset % 4, Nat.mod_lt _ (by decide), (Nat.div_add_mod offset 4).symm⟩
    have parity : (2048 * bufnum + (4 * q + r)) % 2 = r % 2 := by omega
    have place : (2048 * bufnum + (4 * q + r)) * 3 / 2 =
        3072 * bufnum + (6 * q + r * 3 / 2) := by omega
    rw [buffered12 fatbuf q small, rawEntry, parity, place, held16 held (by omega)]
  | fat16 =>
    change offset < 1536 at inside
    change _ = rawEntry table .fat16 (1536 * bufnum + offset)
    have place : 2 * (1536 * bufnum + offset) = 3072 * bufnum + 2 * offset := by omega
    rw [bufferedEntry, rawEntry, place, held16 held (by omega)]
  | fat32 =>
    change offset < 768 at inside
    change _ = rawEntry table .fat32 (768 * bufnum + offset)
    have place : 4 * (768 * bufnum + offset) = 3072 * bufnum + 4 * offset := by omega
    rw [bufferedEntry, rawEntry, place, fat2cpu32, fat2cpu32, held16 held (by omega),
      held16 held (by omega), add_assoc]

variable {mydata : Fsdata}

lemma bufnum_split (fatsize : FatSize) (entry : UInt32) :
    (bufnumOf fatsize entry).toNat = entry.toNat / (bufEntries fatsize).toNat ∧
      (entry - bufnumOf fatsize entry * bufEntries fatsize).toNat =
        entry.toNat % (bufEntries fatsize).toNat := by
  have quotient : (bufnumOf fatsize entry).toNat = entry.toNat / (bufEntries fatsize).toNat :=
    UInt32.toNat_div entry (bufEntries fatsize)
  have word := entry.toNat_lt
  have whole := Nat.div_add_mod entry.toNat (bufEntries fatsize).toNat
  have product : (bufnumOf fatsize entry * bufEntries fatsize).toNat =
      (bufEntries fatsize).toNat * (entry.toNat / (bufEntries fatsize).toNat) := by
    rw [UInt32.toNat_mul, quotient, mul_comm, Nat.mod_eq_of_lt]
    omega
  refine ⟨quotient, ?_⟩
  rw [UInt32.toNat_sub_of_le, product]
  · omega
  · rw [UInt32.le_iff_toNat_le, product]
    omega

lemma bufnum_lt (fatsize : FatSize) (entry : UInt32) :
    (bufnumOf fatsize entry).toNat ≤ 5592405 := by
  have word := entry.toNat_lt
  rw [(bufnum_split fatsize entry).1]
  cases fatsize
  · change entry.toNat / 2048 ≤ _
    omega
  · change entry.toNat / 1536 ≤ _
    omega
  · change entry.toNat / 768 ≤ _
    omega

def Cached (table : Mem) (mydata : Fsdata) : Prop :=
  mydata.fatbufnum = 0xFFFFFFFF ∨ HoldsBlock mydata.fatbuf table mydata.fatbufnum.toNat

def Sound (medium : Medium) (partOffset : UInt32) (mydata : Fsdata) : Prop :=
  Cached (view medium (tableStart mydata.toGeometry partOffset)) mydata

lemma getFatent_of_cacheBlock {disk : Disk} {mydata' : Fsdata} {entry : UInt32} {table : Mem}
    (cached : cacheBlock disk mydata (bufnumOf mydata.fatsize entry) = (true, mydata'))
    (geometry : mydata'.toGeometry = mydata.toGeometry)
    (held : HoldsBlock mydata'.fatbuf table (bufnumOf mydata.fatsize entry).toNat) :
    getFatent disk mydata entry =
      (mydata', UInt32.ofNat (rawEntry table mydata.fatsize entry.toNat)) := by
  obtain ⟨quotient, rest⟩ := bufnum_split mydata.fatsize entry
  have positive : 0 < (bufEntries mydata.fatsize).toNat := by
    cases mydata.fatsize <;> decide
  have same : mydata'.fatsize = mydata.fatsize := congrArg Geometry.fatsize geometry
  have whole := Nat.div_add_mod entry.toNat (bufEntries mydata.fatsize).toNat
  rw [getFatent, cached]
  dsimp only
  rw [same, rest, buffered_eq held mydata.fatsize (Nat.mod_lt _ positive), quotient, whole]

def firstByte (fatsize : FatSize) (n : Nat) : Nat :=
  match fatsize with
  | .fat32 => 4 * n
  | .fat16 => 2 * n
  | .fat12 => n * 3 / 2

def lastByte (fatsize : FatSize) (n : Nat) : Nat :=
  match fatsize with
  | .fat32 => 4 * n + 3
  | .fat16 => 2 * n + 1
  | .fat12 => n * 3 / 2 + 1

/-- A lookup with the device as it is then. A read that brings all its sectors says so, and one that
does not says something else: a smaller count, or a negative value. -/
structure Lookup (medium : Medium) (partOffset : UInt32) where
  entry : UInt32
  disk : Disk
  readable : UInt32 → Prop
  part : disk.partOffset = partOffset
  absent : disk.blockRead = none → ∀ s, ¬ readable s
  whole : ∀ blockRead, disk.blockRead = some blockRead → ∀ start n : UInt32,
    (∀ j < n.toNat, readable (start + UInt32.ofNat j)) →
      blockRead start n = ⟨n.toNat, slice (view medium start) 0 (512 * n.toNat)⟩
  short : ∀ blockRead, disk.blockRead = some blockRead → ∀ start n : UInt32,
    (blockRead start n).ret = n.toNat → ∀ j < n.toNat, readable (start + UInt32.ofNat j)

variable {medium : Medium} {partOffset : UInt32}

def Reachable (mydata : Fsdata) (l : Lookup medium partOffset) : Prop :=
  ∀ k, firstByte mydata.fatsize l.entry.toNat ≤ k → k ≤ lastByte mydata.fatsize l.entry.toNat →
    l.readable (tableStart mydata.toGeometry partOffset + UInt32.ofNat (k / 512))

def startblock (mydata : Fsdata) (entry : UInt32) : UInt32 :=
  bufnumOf mydata.fatsize entry * fatbufblocks + mydata.fatSect.toUInt32

def getsize (mydata : Fsdata) : UInt32 := min fatbufblocks (mydata.fatlength.toUInt32 * 512)

def BlockReadable (mydata : Fsdata) (l : Lookup medium partOffset) : Prop :=
  ∀ j < (getsize mydata).toNat,
    l.readable (startblock mydata l.entry + partOffset + UInt32.ofNat j)

def Failed (mydata : Fsdata) (l : Lookup medium partOffset) : Prop :=
  bufnumOf mydata.fatsize l.entry ≠ mydata.fatbufnum ∧ ¬ BlockReadable mydata l

structure Answered (fatSectors : Nat) (mydata : Fsdata) (l : Lookup medium partOffset) : Prop where
  entry : lastByte mydata.fatsize l.entry.toNat < 512 * fatSectors → Reachable mydata l →
    (getFatent l.disk mydata l.entry).2 = UInt32.ofNat
      (tableEntry (view medium (tableStart mydata.toGeometry partOffset)) mydata.fatsize
        l.entry.toNat)
  failure : Failed mydata l → (getFatent l.disk mydata l.entry).2 = 0

def blockOutcome (mydata : Fsdata) (l : Lookup medium partOffset) : Int × Mem :=
  diskRead l.disk (startblock mydata l.entry) (getsize mydata) mydata.fatbuf 0

/-- Where a block comes from: the buffer, a read that brings it, or none since the read fails
with a negative value and leaves what is in the buffer; then the entry is not to be had. -/
inductive Clean (mydata : Fsdata) (l : Lookup medium partOffset) : Prop where
  | cached (there : bufnumOf mydata.fatsize l.entry = mydata.fatbufnum)
  | whole (length : mydata.fatlength ≠ 0) (all : BlockReadable mydata l)
  | refused (negative : (blockOutcome mydata l).1 < 0)
      (untouched : (blockOutcome mydata l).2 = mydata.fatbuf ∨ mydata.fatbufnum = 0xFFFFFFFF)
      (unreachable : ¬ Reachable mydata l)

def Significant (mydata : Fsdata) (l : Lookup medium partOffset) : Prop :=
  mydata.fatsize = .fat32 →
    rawEntry (view medium (tableStart mydata.toGeometry partOffset)) .fat32 l.entry.toNat < 2 ^ 28

def lookup (mydata : Fsdata) (l : Lookup medium partOffset) : Option Fsdata :=
  some (getFatent l.disk mydata l.entry).1

lemma view_add (medium : Medium) (start : UInt32) (j k : Nat) :
    view medium (start + UInt32.ofNat j) k = view medium start (512 * j + k) := by
  have sector : (512 * j + k) / 512 = j + k / 512 := by omega
  have byte : (512 * j + k) % 512 = k % 512 := by omega
  rw [view, view, sector, byte, UInt32.ofNat_add, UInt32.add_assoc]

lemma getsize_toNat (length : mydata.fatlength ≠ 0) :
    (getsize mydata).toNat = 6 := by
  have word := mydata.fatlength.toNat_lt
  have positive : 0 < mydata.fatlength.toNat := by
    rw [Nat.pos_iff_ne_zero, ne_eq, ← UInt16.toNat_zero, UInt16.toNat_inj]
    exact length
  have bytes : (mydata.fatlength.toUInt32 * 512).toNat = mydata.fatlength.toNat * 512 := by
    rw [UInt32.toNat_mul, UInt16.toNat_toUInt32]
    exact Nat.mod_eq_of_lt (show mydata.fatlength.toNat * 512 < 2 ^ 32 by omega)
  have most : fatbufblocks ≤ mydata.fatlength.toUInt32 * 512 := by
    rw [UInt32.le_iff_toNat_le, bytes]
    change 6 ≤ _
    omega
  exact congrArg UInt32.toNat (if_pos most)

lemma view_startblock (medium : Medium) (partOffset : UInt32) (mydata : Fsdata) (entry : UInt32)
    (k : Nat) :
    view medium (startblock mydata entry + partOffset) k =
      view medium (tableStart mydata.toGeometry partOffset)
        (3072 * (bufnumOf mydata.fatsize entry).toNat + k) := by
  have blocks : bufnumOf mydata.fatsize entry * fatbufblocks =
      UInt32.ofNat (6 * (bufnumOf mydata.fatsize entry).toNat) := by
    rw [← UInt32.toNat_inj, UInt32.toNat_mul, UInt32.toNat_ofNat', mul_comm]
    rfl
  have start : startblock mydata entry + partOffset =
      tableStart mydata.toGeometry partOffset +
        UInt32.ofNat (6 * (bufnumOf mydata.fatsize entry).toNat) := by
    rw [startblock, blocks, tableStart, UInt32.add_comm (UInt32.ofNat _), UInt32.add_assoc,
      UInt32.add_assoc, UInt32.add_comm (UInt32.ofNat _)]
  rw [start, view_add]
  congr 2
  omega

lemma blockOutcome_eq {l : Lookup medium partOffset} {blockRead : UInt32 → UInt32 → ReadResult}
    (device : l.disk.blockRead = some blockRead) :
    blockOutcome mydata l =
      ((blockRead (startblock mydata l.entry + partOffset) (getsize mydata)).ret,
        blit mydata.fatbuf 0
          (blockRead (startblock mydata l.entry + partOffset) (getsize mydata)).bytes) := by
  rw [blockOutcome, diskRead, device]
  rw [l.part]

lemma blockOutcome_whole {l : Lookup medium partOffset} (length : mydata.fatlength ≠ 0)
    (all : BlockReadable mydata l) :
    0 ≤ (blockOutcome mydata l).1 ∧
      HoldsBlock (blockOutcome mydata l).2 (view medium (tableStart mydata.toGeometry partOffset))
        (bufnumOf mydata.fatsize l.entry).toNat := by
  have six := getsize_toNat length
  cases device : l.disk.blockRead with
  | none => exact absurd (all 0 (by omega)) (l.absent device _)
  | some blockRead =>
    rw [blockOutcome_eq device, l.whole blockRead device _ _ all, six]
    refine ⟨Int.natCast_nonneg 6, fun k low => ?_⟩
    dsimp only
    rw [blit_slice _ _ (Nat.zero_le k) (by omega), ← view_startblock]
    congr 1
    omega

section
variable {mydata : Fsdata} {l : Lookup medium partOffset}

lemma cacheBlock_read (absent : bufnumOf mydata.fatsize l.entry ≠ mydata.fatbufnum) :
    cacheBlock l.disk mydata (bufnumOf mydata.fatsize l.entry) =
      if (blockOutcome mydata l).1 < 0 then
        (false, { mydata with fatbuf := (blockOutcome mydata l).2 })
      else (true, { mydata with
        fatbuf := (blockOutcome mydata l).2, fatbufnum := bufnumOf mydata.fatsize l.entry }) := by
  rw [cacheBlock, if_neg absent]
  rfl

lemma getFatent_there (cached : Sound medium partOffset mydata)
    (there : bufnumOf mydata.fatsize l.entry = mydata.fatbufnum) :
    getFatent l.disk mydata l.entry = (mydata, UInt32.ofNat
      (rawEntry (view medium (tableStart mydata.toGeometry partOffset)) mydata.fatsize
        l.entry.toNat)) := by
  have low := bufnum_lt mydata.fatsize l.entry
  rcases cached with empty | held
  · rw [there, empty] at low
    exact absurd low (by decide)
  · refine getFatent_of_cacheBlock ?_ rfl (there ▸ held)
    rw [cacheBlock, if_pos there]

lemma getFatent_whole (absent : bufnumOf mydata.fatsize l.entry ≠ mydata.fatbufnum)
    (length : mydata.fatlength ≠ 0) (all : BlockReadable mydata l) :
    getFatent l.disk mydata l.entry = ({ mydata with
      fatbuf := (blockOutcome mydata l).2, fatbufnum := bufnumOf mydata.fatsize l.entry },
      UInt32.ofNat (rawEntry (view medium (tableStart mydata.toGeometry partOffset)) mydata.fatsize
        l.entry.toNat)) := by
  obtain ⟨count, held⟩ := blockOutcome_whole length all
  refine getFatent_of_cacheBlock ?_ rfl held
  rw [cacheBlock_read absent, if_neg (Int.not_lt.mpr count)]

lemma getFatent_refused (absent : bufnumOf mydata.fatsize l.entry ≠ mydata.fatbufnum)
    (negative : (blockOutcome mydata l).1 < 0) :
    getFatent l.disk mydata l.entry = ({ mydata with fatbuf := (blockOutcome mydata l).2 }, 0) := by
  rw [getFatent, cacheBlock_read absent, if_pos negative]

lemma lookup_geometry (mydata : Fsdata) (l : Lookup medium partOffset) :
    (getFatent l.disk mydata l.entry).1.toGeometry = mydata.toGeometry := by
  by_cases there : bufnumOf mydata.fatsize l.entry = mydata.fatbufnum
  · rw [getFatent, cacheBlock, if_pos there]
  rw [getFatent, cacheBlock_read there]
  by_cases negative : (blockOutcome mydata l).1 < 0
  · rw [if_pos negative]
  · rw [if_neg negative]

lemma cached_lookup (cached : Sound medium partOffset mydata)
    (clean : Clean mydata l) :
    Cached (view medium (tableStart mydata.toGeometry partOffset))
      (getFatent l.disk mydata l.entry).1 := by
  by_cases there : bufnumOf mydata.fatsize l.entry = mydata.fatbufnum
  · rw [getFatent_there cached there]
    exact cached
  cases clean with
  | cached same => exact absurd same there
  | whole length all =>
    rw [getFatent_whole there length all]
    exact .inr (blockOutcome_whole length all).2
  | refused negative untouched unreachable =>
    rw [getFatent_refused there negative]
    rcases untouched with same | empty
    · rw [same]
      exact cached
    · exact .inl empty

lemma tableEntry_of_significant (significant : Significant mydata l) :
    tableEntry (view medium (tableStart mydata.toGeometry partOffset)) mydata.fatsize
      l.entry.toNat =
    rawEntry (view medium (tableStart mydata.toGeometry partOffset)) mydata.fatsize
      l.entry.toNat := by
  rw [tableEntry]
  split_ifs with wide
  · rw [wide]
    exact Nat.mod_eq_of_lt (significant wide)
  · rfl

lemma answered_lookup (fatSectors : Nat)
    (cached : Sound medium partOffset mydata)
    (clean : Clean mydata l) (significant : Significant mydata l) :
    Answered fatSectors mydata l := by
  have bits := tableEntry_of_significant significant
  by_cases there : bufnumOf mydata.fatsize l.entry = mydata.fatbufnum
  · refine ⟨fun _ _ => ?_, fun failed => absurd there failed.1⟩
    rw [getFatent_there cached there, bits]
  cases clean with
  | cached same => exact absurd same there
  | whole length all =>
    refine ⟨fun _ _ => ?_, fun failed => absurd all failed.2⟩
    rw [getFatent_whole there length all, bits]
  | refused negative untouched unreachable =>
    refine ⟨fun _ reachable => absurd reachable unreachable, fun _ => ?_⟩
    rw [getFatent_refused there negative]

end

/-- On one `fsdata`, from the empty buffer on, every lookup owes what it answers as long as all are
clean and the entries have no bits but the significant ones. -/
theorem lookups_answered (fatSectors : Nat) {start : Fsdata} (empty : start.fatbufnum = 0xFFFFFFFF)
    {lookups : List (Lookup medium partOffset)}
    (clean : StepsMeet lookup (fun mydata l => Clean mydata l ∧ Significant mydata l) start
      lookups) :
    StepsMeet lookup (Answered fatSectors) start lookups := by
  have kept (mydata : Fsdata) (l : Lookup medium partOffset) (after : Fsdata)
      (sound : Sound medium partOffset mydata) (clean : Clean mydata l ∧ Significant mydata l)
      (step : lookup mydata l = some after) : Sound medium partOffset after := by
    obtain rfl : (getFatent l.disk mydata l.entry).1 = after := Option.some.inj step
    rw [Sound, lookup_geometry]
    exact cached_lookup sound clean.1
  have implied (mydata : Fsdata) (l : Lookup medium partOffset)
      (sound : Sound medium partOffset mydata) (clean : Clean mydata l ∧ Significant mydata l) :
      Answered fatSectors mydata l :=
    answered_lookup fatSectors sound clean.1 clean.2
  exact stepsMeet_of_invariant kept implied (Or.inl empty) clean

def ones : Medium := fun _ _ => 0xff

/-- A FAT16 table of nine sectors behind the boot sector, with an empty buffer. -/
def fresh : Fsdata where
  fatsize := .fat16
  fatlength := 9
  fatSect := 1
  rootdirSect := 19
  clustSize := 1
  dataBegin := 31
  fatbuf := fun _ => 0
  fatbufnum := 0xFFFFFFFF

def reads : Lookup ones 0 where
  entry := 2
  disk := ⟨some fun start n => ⟨n.toNat, slice (view ones start) 0 (512 * n.toNat)⟩, 0, fun _ => 0⟩
  readable _ := True
  part := rfl
  absent none := by cases none
  whole blockRead device start n _ := by
    cases device
    rfl
  short _ _ _ _ _ _ _ := trivial

def readsNothing : Lookup ones 0 where
  entry := 2
  disk := ⟨some fun _ _ => ⟨0, []⟩, 0, fun _ => 0⟩
  readable _ := False
  part := rfl
  absent none := by cases none
  whole blockRead device start n all := by
    cases device
    have zero : n.toNat = 0 := Nat.eq_zero_of_not_pos fun positive => all 0 positive
    rw [zero]
    rfl
  short blockRead device start n ret := by
    cases device
    intro j low
    have zero : n.toNat = 0 := (Int.natCast_inj.mp ret).symm
    omega

lemma reads_clean (mydata : Fsdata) (length : mydata.fatlength ≠ 0)
    (narrow : mydata.fatsize = .fat16) :
    Clean mydata reads ∧ Significant mydata reads :=
  ⟨.whole length fun _ _ => trivial, fun wide => absurd (narrow.symm.trans wide) (by decide)⟩

theorem reads_answered : StepsMeet lookup (Answered 9) fresh [reads, reads] := by
  refine lookups_answered 9 rfl ⟨reads_clean fresh (by decide) rfl, fun after step => ?_⟩
  have same : after.toGeometry = fresh.toGeometry := by
    cases step
    exact lookup_geometry fresh reads
  refine ⟨reads_clean after ?_ (congrArg Geometry.fatsize same), fun _ _ => trivial⟩
  rw [show after.fatlength = fresh.fatlength from congrArg Geometry.fatlength same]
  decide

/-- A read that brings nothing fills the cache all the same: the next lookup, with a device that
reads, gives 0 for an entry of 0xffff. -/
theorem nothing_cached :
    (getFatent reads.disk (getFatent readsNothing.disk fresh 2).1 2).2 = 0 ∧
      ¬ StepsMeet lookup (Answered 9) fresh [readsNothing, reads] := by
  have stale : (getFatent reads.disk (getFatent readsNothing.disk fresh 2).1 2).2 = 0 := by rfl
  refine ⟨stale, fun meet => ?_⟩
  have second := (meet.2 _ rfl).1
  have zero := stale.symm.trans (second.entry (by decide) fun _ _ _ => trivial)
  have value : UInt32.ofNat (tableEntry (view ones (tableStart fresh.toGeometry 0)) .fat16 2) =
      0xffff := by rfl
  exact absurd (zero.trans value) (by decide)

end FatTable
