import UBoot.Lib.ByteMemory

/-!
# FAT volumes (fs/fat/fat.c, include/fat.h)

The boot sector, the table of clusters with its buffer, and the contents of a file. The processor
has the byte order of the disk, so that FAT2CPU16 and FAT2CPU32 read a word as it lies there.
-/

namespace Fat

open ByteMemory

def sectorSize : Nat := 512

def fat2cpu16 (m : Mem) (a : Nat) : Nat := (m a).toNat + 256 * (m (a + 1)).toNat
def fat2cpu32 (m : Mem) (a : Nat) : Nat := fat2cpu16 m a + 65536 * fat2cpu16 m (a + 2)

/-! ## The device -/

/-- What `block_read` returns, and the bytes that it has stored. -/
structure ReadResult where
  ret : Int
  bytes : List UInt8

/-- `cur_dev` and `part_offset`. There may be no device; `stack` is what a local buffer holds before
anything is read into it. -/
structure Disk where
  blockRead : Option (UInt32 → UInt32 → ReadResult)
  partOffset : UInt32
  stack : Mem

def diskRead (disk : Disk) (startblock getsize : UInt32) (m : Mem) (bufptr : Nat) : Int × Mem :=
  match disk.blockRead with
  | none => (-1, m)
  | some blockRead =>
    let result := blockRead (startblock + disk.partOffset) getsize
    (result.ret, blit m bufptr result.bytes)

/-! ## The boot sector -/

structure BootSector where
  clusterSize : UInt8
  reserved : UInt16
  fats : UInt8
  dirEntries : UInt16              -- dir_entries[1] * 256 + dir_entries[0]
  fatLength : UInt16
  fat32Length : UInt32

def fat12Sign : List UInt8 := [70, 65, 84, 49, 50, 32, 32, 32]
def fat16Sign : List UInt8 := [70, 65, 84, 49, 54, 32, 32, 32]
def fat32Sign : List UInt8 := [70, 65, 84, 51, 50, 32, 32, 32]

inductive FatSize where
  | fat12
  | fat16
  | fat32
  deriving DecidableEq

def bootSector (block : Mem) : BootSector where
  clusterSize := block 13
  reserved := UInt16.ofNat (fat2cpu16 block 14)
  fats := block 16
  dirEntries := UInt16.ofNat (fat2cpu16 block 17)
  fatLength := UInt16.ofNat (fat2cpu16 block 22)
  fat32Length := UInt32.ofNat (fat2cpu32 block 36)

/-- The sign is in `volume_info`, which follows the part of the boot sector that the width has. -/
def readBootsectandvi (disk : Disk) : Option (BootSector × FatSize) :=
  let (ret, block) := diskRead disk 0 1 disk.stack 0
  if ret < 0 then none
  else
    let bs := bootSector block
    if bs.fatLength = 0 then
      if slice block 82 8 = fat32Sign then some (bs, .fat32) else none
    else if slice block 54 8 = fat12Sign then some (bs, .fat12)
    else if slice block 54 8 = fat16Sign then some (bs, .fat16)
    else none

/-! ## fsdata -/

structure Geometry where
  fatsize : FatSize
  fatlength : UInt16
  fatSect : UInt16
  rootdirSect : UInt16
  clustSize : UInt16
  dataBegin : Int16

/-- `fsdata`. `fatbufnum` is the u32 that it is compared with; it starts as -1. -/
structure Fsdata extends Geometry where
  fatbuf : Mem
  fatbufnum : UInt32

def rootdirSize (bs : BootSector) (fatsize : FatSize) : Nat :=
  if fatsize = .fat32 then bs.clusterSize.toNat else bs.dirEntries.toNat * 32 / sectorSize

/-- How `do_fat_read` sets the fields, each cut to its own width. -/
def geometry (bs : BootSector) (fatsize : FatSize) : Geometry :=
  let fatlength := if fatsize = .fat32 then UInt16.ofNat bs.fat32Length.toNat else bs.fatLength
  let rootdirSect := UInt16.ofNat (bs.reserved.toNat + fatlength.toNat * bs.fats.toNat)
  let begins : Int := rootdirSect.toNat - bs.clusterSize.toNat * 2
  { fatsize := fatsize
    fatlength := fatlength
    fatSect := bs.reserved
    rootdirSect := rootdirSect
    clustSize := bs.clusterSize.toUInt16
    dataBegin :=
      Int16.ofInt (if fatsize = .fat32 then begins else begins + rootdirSize bs fatsize) }

def mount (bs : BootSector) (fatsize : FatSize) (fatbuf : Mem) : Fsdata :=
  { geometry bs fatsize with fatbuf := fatbuf, fatbufnum := 0xFFFFFFFF }

/-! ## The table -/

def fatbufblocks : UInt32 := 6

/-- FAT12BUFSIZE, FAT16BUFSIZE and FAT32BUFSIZE: entries in the buffer. -/
def bufEntries : FatSize → UInt32
  | .fat12 => 2048
  | .fat16 => 1536
  | .fat32 => 768

/-- "Get the actual entry from the table". Twelve bits lie in one or two words of 16. -/
def bufferedEntry (fatbuf : Mem) (fatsize : FatSize) (offset : Nat) : Nat :=
  match fatsize with
  | .fat32 => fat2cpu32 fatbuf (4 * offset)
  | .fat16 => fat2cpu16 fatbuf (2 * offset)
  | .fat12 =>
    let off16 := offset * 3 / 4
    let val1 := fat2cpu16 fatbuf (2 * off16)
    let val2 := fat2cpu16 fatbuf (2 * (off16 + 1))
    if offset % 4 = 0 then val1 &&& 0xfff
    else if offset % 4 = 1 then ((val2 &&& 0x00ff) <<< 4) ||| ((val1 &&& 0xf000) >>> 12)
    else if offset % 4 = 2 then ((val2 &&& 0x000f) <<< 8) ||| ((val1 &&& 0xff00) >>> 8)
    else (val1 &&& 0xfff0) >>> 4

def bufnumOf (fatsize : FatSize) (entry : UInt32) : UInt32 := entry / bufEntries fatsize

/-- "Read a new block of FAT entries into the cache." `none` is a failure; what was read until then
stays in the buffer. -/
def cacheBlock (disk : Disk) (mydata : Fsdata) (bufnum : UInt32) : Bool × Fsdata :=
  if bufnum = mydata.fatbufnum then (true, mydata)
  else
    let startblock := bufnum * fatbufblocks + mydata.fatSect.toUInt32
    let getsize := min fatbufblocks (mydata.fatlength.toUInt32 * 512)
    let (ret, fatbuf) := diskRead disk startblock getsize mydata.fatbuf 0
    if ret < 0 then (false, { mydata with fatbuf := fatbuf })
    else (true, { mydata with fatbuf := fatbuf, fatbufnum := bufnum })

/-- "Get the entry at index 'entry' in a FAT (12/16/32) table. On failure 0x00 is returned." -/
def getFatent (disk : Disk) (mydata : Fsdata) (entry : UInt32) : Fsdata × UInt32 :=
  let bufnum := bufnumOf mydata.fatsize entry
  let offset := entry - bufnum * bufEntries mydata.fatsize
  match cacheBlock disk mydata bufnum with
  | (false, mydata) => (mydata, 0)
  | (true, mydata) =>
    (mydata, UInt32.ofNat (bufferedEntry mydata.fatbuf mydata.fatsize offset.toNat))

def checkClust (x : UInt32) (fatsize : FatSize) : Bool :=
  x ≤ 1 ∨ x ≥ (if fatsize = .fat32 then 0xffffff0 else 0xfff0)

/-! ## Clusters and files -/

/-- The sector that `get_cluster` reads from, in the arithmetic of unsigned words. -/
def startSect (g : Geometry) (clustnum : UInt32) : UInt32 :=
  if clustnum > 0 then
    UInt32.ofNat (g.dataBegin.toInt % 4294967296).toNat + clustnum * g.clustSize.toUInt32
  else g.rootdirSect.toUInt32

/-- `get_cluster`, false for -1: whole sectors, and the first bytes of one more. -/
def getCluster (disk : Disk) (g : Geometry) (clustnum : UInt32) (m : Mem) (buffer : Nat)
    (size : UInt32) : Bool × Mem :=
  let startsect := startSect g clustnum
  let (ret, m) := diskRead disk startsect (size / 512) m buffer
  if ret < 0 then (false, m)
  else if size % 512 = 0 then (true, m)
  else
    let idx := size / 512
    let (ret, tmpbuf) := diskRead disk (startsect + idx) 1 disk.stack 0
    if ret < 0 then (false, m)
    else (true, blit m (buffer + idx.toNat * 512) (slice tmpbuf 0 (size % 512).toNat))

/-- dir_entry, as far as it is read; `name` and `ext` are its first eleven bytes. -/
structure DirEntry where
  name : List UInt8
  attr : UInt8
  starthi : UInt16
  start : UInt16
  size : UInt32

def DirEntry.startClust (dent : DirEntry) (fatsize : FatSize) : UInt32 :=
  if fatsize = .fat32 then dent.start.toUInt32 + (dent.starthi.toUInt32 <<< 16)
  else dent.start.toUInt32

/-- The variables of the loops of `get_contents`; `buffer` is where the next bytes go. -/
structure Reading where
  mydata : Fsdata
  mem : Mem
  buffer : Nat
  curclust : UInt32
  endclust : UInt32
  actsize : UInt32
  filesize : UInt32
  gotsize : UInt32

/-- What `get_contents` returns, a long, and the memory that it leaves. -/
structure Contents where
  ret : Int
  mem : Mem
  mydata : Fsdata

def toLong (x : UInt32) : Int := x.toInt32.toInt

def bytesperclust (g : Geometry) : UInt32 := g.clustSize.toUInt32 * 512

/-- "getit": the clusters of the run are read, and the next run starts behind it. -/
def getRun (disk : Disk) (r : Reading) : Reading ⊕ Contents :=
  match getCluster disk r.mydata.toGeometry r.curclust r.mem r.buffer r.actsize with
  | (false, mem) => .inr ⟨-1, mem, r.mydata⟩
  | (true, mem) =>
    let gotsize := r.gotsize + r.actsize
    let (mydata, curclust) := getFatent disk r.mydata r.endclust
    if checkClust curclust mydata.fatsize then .inr ⟨toLong gotsize, mem, mydata⟩
    else
      .inl { mydata := mydata, mem := mem, buffer := r.buffer + r.actsize.toNat,
             curclust := curclust, endclust := curclust,
             actsize := bytesperclust mydata.toGeometry,
             filesize := r.filesize - r.actsize, gotsize := gotsize }

def getRest (disk : Disk) (r : Reading) : Contents :=
  let actsize := r.actsize - bytesperclust r.mydata.toGeometry
  match getCluster disk r.mydata.toGeometry r.curclust r.mem r.buffer actsize with
  | (false, mem) => ⟨-1, mem, r.mydata⟩
  | (true, mem) =>
    let gotsize := r.gotsize + actsize
    let filesize := r.filesize - actsize
    let buffer := r.buffer + actsize.toNat
    match getCluster disk r.mydata.toGeometry r.endclust mem buffer filesize with
    | (false, mem) => ⟨-1, mem, r.mydata⟩
    | (true, mem) => ⟨toLong (gotsize + filesize), mem, r.mydata⟩

/-- One turn of the loops: "search for consecutive clusters" while there are bytes to come. -/
def readTurn (disk : Disk) (r : Reading) : Reading ⊕ Contents :=
  if r.actsize < r.filesize then
    let (mydata, newclust) := getFatent disk r.mydata r.endclust
    if newclust - 1 ≠ r.endclust then getRun disk { r with mydata := mydata }
    else if checkClust newclust mydata.fatsize then .inr ⟨toLong r.gotsize, r.mem, mydata⟩
    else
      .inl { r with mydata := mydata, endclust := newclust,
                    actsize := r.actsize + bytesperclust mydata.toGeometry }
  else .inr (getRest disk r)

/-- The loops, `none` where the fuel does not last. -/
def readLoop (disk : Disk) : Nat → Reading → Option Contents
  | 0, _ => none
  | fuel + 1, r =>
    match readTurn disk r with
    | .inl r => readLoop disk fuel r
    | .inr contents => some contents

def startReading (mydata : Fsdata) (dentptr : DirEntry) (m : Mem) (buffer : Nat)
    (maxsize : UInt32) : Reading :=
  let curclust := dentptr.startClust mydata.fatsize
  { mydata := mydata, mem := m, buffer := buffer, curclust := curclust, endclust := curclust,
    actsize := bytesperclust mydata.toGeometry,
    filesize := if maxsize > 0 ∧ dentptr.size > maxsize then maxsize else dentptr.size,
    gotsize := 0 }

def getContents (disk : Disk) (mydata : Fsdata) (dentptr : DirEntry) (m : Mem) (buffer : Nat)
    (maxsize : UInt32) (fuel : Nat) : Option Contents :=
  readLoop disk fuel (startReading mydata dentptr m buffer maxsize)

end Fat

/-!
## Where the clusters are (fs/fat/fat.c)

The start of the root directory is kept in 16 bits, that of the clusters in 16 bits with a sign.
Both are right as long as the clusters do not start much behind sector 32767.
-/

namespace FatLayout

open ByteMemory Fat

variable {bs : BootSector} {fatsize : FatSize} {total : Nat}

/-! ## The format -/

def fatSectors (bs : BootSector) (fatsize : FatSize) : Nat :=
  if fatsize = .fat32 then bs.fat32Length.toNat else bs.fatLength.toNat

/-- Where the tables end, and the root directory of FAT12 and FAT16 starts. -/
def rootStart (bs : BootSector) (fatsize : FatSize) : Nat :=
  bs.reserved.toNat + bs.fats.toNat * fatSectors bs fatsize

/-- Sectors of the root directory; that of FAT32 is in clusters. -/
def rootdirSectors (bs : BootSector) (fatsize : FatSize) : Nat :=
  if fatsize = .fat32 then 0 else (bs.dirEntries.toNat * 32 + 511) / 512

def clusterSector (bs : BootSector) (fatsize : FatSize) (n : Nat) : Nat :=
  rootStart bs fatsize + rootdirSectors bs fatsize + (n - 2) * bs.clusterSize.toNat

structure InVolume (bs : BootSector) (fatsize : FatSize) (total n : Nat) : Prop where
  low : 2 ≤ n
  high : clusterSector bs fatsize n + bs.clusterSize.toNat ≤ total

/-- What the format asks of a boot sector with sectors of 512 bytes: the root directory fills its
sectors, and there is a cluster. -/
structure Valid (bs : BootSector) (fatsize : FatSize) (total : Nat) : Prop where
  reserved : 0 < bs.reserved.toNat
  fats : 0 < bs.fats.toNat
  cluster : ∃ k, k ≤ 7 ∧ bs.clusterSize.toNat = 2 ^ k
  length : 0 < fatSectors bs fatsize
  entries : bs.dirEntries.toNat % 16 = 0
  width : bs.fatLength = 0 ↔ fatsize = .fat32
  sectors : total < 2 ^ 32
  one : InVolume bs fatsize total 2

/-! ## What the code makes of it -/

/-- `data_begin` as it would be without its width. -/
def exactBegin (bs : BootSector) (fatsize : FatSize) : Int :=
  rootStart bs fatsize + rootdirSectors bs fatsize - 2 * bs.clusterSize.toNat

lemma rootdirSect_toNat (bs : BootSector) (fatsize : FatSize) :
    (geometry bs fatsize).rootdirSect.toNat = rootStart bs fatsize % 65536 := by
  rw [geometry, rootStart, fatSectors]
  rw [UInt16.toNat_ofNat']
  split_ifs
  · rw [UInt16.toNat_ofNat', Nat.add_mod, Nat.mod_mul_mod, mul_comm, ← Nat.add_mod]
  · rw [mul_comm]

lemma rootdirSize_toNat (entries : bs.dirEntries.toNat % 16 = 0) (narrow : fatsize ≠ .fat32) :
    rootdirSize bs fatsize = rootdirSectors bs fatsize := by
  rw [rootdirSize, rootdirSectors, if_neg narrow, if_neg narrow, sectorSize]
  omega

lemma dataBegin_toInt (entries : bs.dirEntries.toNat % 16 = 0) :
    (geometry bs fatsize).dataBegin.toInt = (exactBegin bs fatsize).bmod 65536 := by
  have root := rootdirSect_toNat bs fatsize
  have begins : (geometry bs fatsize).dataBegin = Int16.ofInt
      (if fatsize = .fat32 then
        ((geometry bs fatsize).rootdirSect.toNat - bs.clusterSize.toNat * 2 : Int)
      else (geometry bs fatsize).rootdirSect.toNat - bs.clusterSize.toNat * 2 +
        rootdirSize bs fatsize) := rfl
  rw [begins, Int16.toInt_ofInt, root, exactBegin]
  change Int.bmod _ 65536 = _
  rw [← Int.emod_bmod, ← Int.emod_bmod (_ - _)]
  congr 1
  by_cases wide : fatsize = .fat32
  · rw [if_pos wide, rootdirSectors, if_pos wide]
    omega
  · rw [if_neg wide, rootdirSize_toNat entries wide]
    omega

lemma startSect_toNat (bs : BootSector) (fatsize : FatSize) {n : Nat} (positive : 0 < n)
    (word : n < 2 ^ 32) :
    ((startSect (geometry bs fatsize) (UInt32.ofNat n)).toNat : Int) =
      ((geometry bs fatsize).dataBegin.toInt + (n * bs.clusterSize.toNat : Nat)) % 4294967296 := by
  have number : (UInt32.ofNat n).toNat = n := UInt32.toNat_ofNat_of_lt' word
  have above : UInt32.ofNat n > 0 := by
    rw [gt_iff_lt, UInt32.lt_iff_toNat_lt, number]
    exact positive
  have size : (geometry bs fatsize).clustSize.toUInt32.toNat = bs.clusterSize.toNat := by
    change (bs.clusterSize.toUInt16.toUInt32).toNat = _
    simp
  rw [startSect, if_pos above, UInt32.toNat_add, UInt32.toNat_mul, UInt32.toNat_ofNat', number,
    size]
  generalize (geometry bs fatsize).dataBegin.toInt = begins
  generalize n * bs.clusterSize.toNat = product
  omega

lemma startSect_zero (g : Geometry) : (startSect g 0).toNat = g.rootdirSect.toNat := by
  rw [startSect, if_neg (by decide), UInt16.toNat_toUInt32]

/-! ## The layout -/

structure Exact (bs : BootSector) (fatsize : FatSize) (total : Nat) : Prop where
  clusters : ∀ n, InVolume bs fatsize total n →
    (startSect (geometry bs fatsize) (UInt32.ofNat n)).toNat = clusterSector bs fatsize n
  root : (startSect (geometry bs fatsize) 0).toNat = rootStart bs fatsize

lemma clusterSector_eq (bs : BootSector) (fatsize : FatSize) {n : Nat} (low : 2 ≤ n) :
    (clusterSector bs fatsize n : Int) =
      exactBegin bs fatsize + (n * bs.clusterSize.toNat : Nat) := by
  have product : (n - 2) * bs.clusterSize.toNat + 2 * bs.clusterSize.toNat =
      n * bs.clusterSize.toNat := by
    rw [← Nat.add_mul, Nat.sub_add_cancel low]
  rw [clusterSector, exactBegin]
  omega

lemma word_of_inVolume (valid : Valid bs fatsize total) {n : Nat}
    (inside : InVolume bs fatsize total n) : n < 2 ^ 32 := by
  obtain ⟨k, -, size⟩ := valid.cluster
  have positive : 0 < bs.clusterSize.toNat := by
    rw [size]
    exact Nat.two_pow_pos k
  have high := inside.high
  have sectors := valid.sectors
  have steps : n - 2 ≤ (n - 2) * bs.clusterSize.toNat := Nat.le_mul_of_pos_right _ positive
  rw [clusterSector] at high
  have reserved := valid.reserved
  rw [rootStart] at high
  omega

lemma exactBegin_ge (valid : Valid bs fatsize total) : -256 ≤ exactBegin bs fatsize := by
  obtain ⟨k, small, size⟩ := valid.cluster
  have bound : bs.clusterSize.toNat ≤ 2 ^ 7 := size ▸ Nat.pow_le_pow_right (by decide) small
  rw [exactBegin]
  omega

lemma rootdirSectors_le (bs : BootSector) (fatsize : FatSize) :
    rootdirSectors bs fatsize ≤ 4096 := by
  have entries := bs.dirEntries.toNat_lt
  rw [rootdirSectors]
  split_ifs <;> omega

lemma bmod_of_short {x : Int} (low : -32768 ≤ x) (high : x ≤ 32767) : x.bmod 65536 = x := by
  apply Int.bmod_eq_of_le
  · exact low
  · exact Int.lt_add_one_of_le high

lemma exact_of_fits (valid : Valid bs fatsize total)
    (fits : rootStart bs fatsize + rootdirSectors bs fatsize ≤ 32767 + 2 * bs.clusterSize.toNat) :
    Exact bs fatsize total := by
  obtain ⟨k, small, size⟩ := valid.cluster
  have bound : bs.clusterSize.toNat ≤ 2 ^ 7 := size ▸ Nat.pow_le_pow_right (by decide) small
  have low := exactBegin_ge valid
  have high : exactBegin bs fatsize ≤ 32767 := by
    rw [exactBegin]
    omega
  constructor
  · intro n inside
    have word := word_of_inVolume valid inside
    have sector := clusterSector_eq bs fatsize inside.low
    have positive : 0 < n := Nat.lt_of_lt_of_le Nat.two_pos inside.low
    have start := startSect_toNat bs fatsize positive word
    rw [dataBegin_toInt valid.entries, bmod_of_short (by omega) high, ← sector] at start
    have sectors := valid.sectors
    have last := inside.high
    omega
  · rw [startSect_zero, rootdirSect_toNat]
    exact Nat.mod_eq_of_lt (by omega)

lemma fits_of_exact (valid : Valid bs fatsize total) (exact : Exact bs fatsize total) :
    rootStart bs fatsize + rootdirSectors bs fatsize ≤ 32767 + 2 * bs.clusterSize.toNat := by
  have root := exact.root
  have first := exact.clusters 2 valid.one
  have start := startSect_toNat bs fatsize Nat.two_pos (show 2 < 2 ^ 32 by decide)
  have sector := clusterSector_eq bs fatsize (Nat.le_refl 2)
  have small := rootdirSectors_le bs fatsize
  have lowBegin : -32768 ≤ (exactBegin bs fatsize).bmod 65536 := Int.le_bmod (by decide)
  have highBegin : (exactBegin bs fatsize).bmod 65536 < 32768 := Int.bmod_lt (by decide)
  rw [startSect_zero, rootdirSect_toNat] at root
  rw [dataBegin_toInt valid.entries, first] at start
  rw [exactBegin] at *
  omega

/-- Clusters and root directory are read where they are if and only if the clusters start at most
two of them behind sector 32767. -/
theorem exact_iff (valid : Valid bs fatsize total) :
    Exact bs fatsize total ↔
      rootStart bs fatsize + rootdirSectors bs fatsize ≤ 32767 + 2 * bs.clusterSize.toNat :=
  ⟨fits_of_exact valid, exact_of_fits valid⟩

def floppy : BootSector := ⟨1, 1, 2, 224, 9, 0⟩

theorem floppy_exact :
    Exact floppy .fat12 2880 ↔ rootStart floppy .fat12 + rootdirSectors floppy .fat12 ≤ 32767 + 2 :=
  exact_iff ⟨by decide, by decide, ⟨0, by decide, rfl⟩, by decide, rfl, by decide, by decide,
    ⟨by decide, by decide⟩⟩

/-- A FAT32 volume of 16 GiB with clusters of 4 KiB: its two tables have 32736 sectors each. -/
def card : BootSector := ⟨8, 32, 2, 0, 0, 32736⟩

theorem card_not_exact : Valid card .fat32 33554432 ∧ ¬ Exact card .fat32 33554432 := by
  have valid : Valid card .fat32 33554432 :=
    ⟨by decide, by decide, ⟨3, by decide, rfl⟩, by decide, rfl, by decide, by decide,
      ⟨by decide, by decide⟩⟩
  refine ⟨valid, fun exact => ?_⟩
  have fits := fits_of_exact valid exact
  revert fits
  decide

end FatLayout

/-!
## Names in a directory (fs/fat/fat.c)

Short names, and long ones, which lie backwards in slots in front of the entry they belong to. A
long name is taken together with the bounds of the buffers it is read from and stored in: where
the code leaves one of them there is no result.
-/

namespace FatNames

open ByteMemory Fat

/-! ## Short names -/

def toLower (c : UInt8) : UInt8 := if 65 ≤ c ∧ c ≤ 90 then c + 32 else c

/-- `downcase`, of the characters in front of the terminator. -/
def downcase (str : List UInt8) : List UInt8 := str.map toLower

/-- DELETED_FLAG, and aRING, which stands for that character at the start of a name. -/
def deletedFlag : UInt8 := 0xe5
def aRing : UInt8 := 0x05

def unmark : List UInt8 → List UInt8
  | [] => []
  | c :: rest =>
    if c = deletedFlag then [] else if c = aRing then deletedFlag :: rest else c :: rest

def untilBlank (str : List UInt8) : List UInt8 := str.takeWhile fun c => c ≠ 0 ∧ c ≠ 32

/-- "Extract zero terminated short name from a directory entry", from the entry at `dirent`. -/
def getName (m : Mem) (dirent : Nat) : List UInt8 :=
  let name := untilBlank (slice m dirent 8)
  let ext := m (dirent + 8)
  let sName :=
    if ext ≠ 0 ∧ ext ≠ 32 then name ++ 46 :: untilBlank (slice m (dirent + 8) 3) else name
  downcase (unmark sName)

/-! ## Slots -/

def direntSize : Nat := 32

/-- MAX_CLUSTSIZE, the bytes of `get_vfatname_block`, and how many slots they are. -/
def maxClustsize : Nat := 65536
def maxSlots : Nat := maxClustsize / direntSize

def direntsPerClust (g : Geometry) : Nat := g.clustSize.toNat * sectorSize / direntSize

def slotId (m : Mem) (slot : Nat) : UInt8 := m (direntSize * slot)

def number (m : Mem) (slot : Nat) : UInt8 := slotId m slot &&& 0xbf

def isLast (m : Mem) (slot : Nat) : Bool := slotId m slot &&& 0x40 ≠ 0

/-- The low bytes of name0_4, name5_10 and name11_12. -/
def slotChars (m : Mem) (slot : Nat) : List UInt8 :=
  [1, 3, 5, 7, 9, 14, 16, 18, 20, 22, 24, 28, 30].map fun j => m (direntSize * slot + j)

def lNameSize : Nat := 256

/-- The loops of `slot2str` behind the characters that `l_name` has already; true if they meet the
terminator. Every character is stored before it is looked at. -/
def putChars : List UInt8 → List UInt8 → Option (Bool × List UInt8)
  | [], lName => some (false, lName)
  | c :: rest, lName =>
    if lName.length < lNameSize then
      if c = 0 then some (true, lName) else putChars rest (lName ++ [c])
    else none

def slot2str (m : Mem) (slot : Nat) (lName : List UInt8) : Option (Bool × List UInt8) :=
  putChars (slotChars m slot) lName

/-! ## Long names -/

/-- The first loop of `get_vfatname`: the numbers go down to 1, or to the end of the cluster.
`none` is -1. -/
def followSlots (cluster : Mem) (slots : Nat) : Nat → Nat → Option Nat
  | 0, slotptr => some slotptr
  | counter + 1, slotptr =>
    if slotptr < slots then
      if (number cluster slotptr).toNat ≠ counter + 1 then none
      else followSlots cluster slots counter (slotptr + 1)
    else some slotptr

/-- "while (slotptr2->id > 0x01)", with the slots of `get_vfatname_block` that are left. -/
def findFirst (block : Mem) : Nat → Nat → Option Nat
  | 0, _ => none
  | left + 1, slotptr2 =>
    if slotId block slotptr2 > 1 then findFirst block left (slotptr2 + 1) else some slotptr2

/-- "while ((__u8*)slotptr2 >= get_vfatname_block)": the slots below, whatever they hold. -/
def takeBlock (block : Mem) : Nat → List UInt8 → Option (List UInt8)
  | 0, lName => some lName
  | slotptr2 + 1, lName =>
    match slot2str block slotptr2 lName with
    | none => none
    | some (_, lName) => takeBlock block slotptr2 lName

/-- The last loop: slots below `slotptr`, until one has a terminator or says that it is the last.
There is none below the first slot of the cluster. -/
def takeSlots (cluster : Mem) : Nat → List UInt8 → Option (List UInt8)
  | 0, _ => none
  | slotptr + 1, lName =>
    match slot2str cluster slotptr lName with
    | none => none
    | some (terminated, lName) =>
      if terminated ∨ isLast cluster slotptr then some lName else takeSlots cluster slotptr lName

/-- What `get_vfatname` returns, true for 0 and false for -1, and what it leaves: the name, the
cluster with the real entry in place of the slot, `get_vfatname_block`, and the table's buffer. -/
structure LongName where
  ret : Bool
  lName : List UInt8
  cluster : Mem
  block : Mem
  mydata : Fsdata

/-- The end of `get_vfatname`: the slots below `slotptr` are taken, the terminator is stored, and
"the real directory entry" is copied. -/
def finishName (lName : List UInt8) (cluster : Mem) (retdent slotptr : Nat) (realdent : List UInt8)
    (block : Mem) (mydata : Fsdata) : Option LongName :=
  match takeSlots cluster slotptr lName with
  | none => none
  | some lName =>
    if lName.length < lNameSize then
      some { ret := true, lName := downcase (unmark lName),
             cluster := blit cluster (direntSize * retdent) realdent, block := block,
             mydata := mydata }
    else none

/-- The part with the next cluster in `get_vfatname_block`. -/
def nameAcross (mydata : Fsdata) (cluster : Mem) (retdent slotptr : Nat) (block : Mem) :
    Option LongName :=
  match findFirst block maxSlots 0 with
  | none => none
  | some slotptr2 =>
    if slotptr2 + 1 < maxSlots then
      match takeBlock block (slotptr2 + 1) [] with
      | none => none
      | some lName =>
        finishName lName cluster retdent slotptr
          (slice block (direntSize * (slotptr2 + 1)) direntSize) block mydata
    else none

/-- "Extract the full long filename starting at 'retdent' (which is really a slot)". `none` where it
leaves `cluster`, `get_vfatname_block` or `l_name`. -/
def getVfatname (disk : Disk) (mydata : Fsdata) (curclust : UInt32) (cluster : Mem) (retdent : Nat)
    (block : Mem) : Option LongName :=
  let slots := direntsPerClust mydata.toGeometry
  match followSlots cluster slots (number cluster retdent).toNat retdent with
  | none => some ⟨false, [], cluster, block, mydata⟩
  | some slotptr =>
    if slots ≤ slotptr then
      let (mydata, curclust) := getFatent disk mydata curclust
      if checkClust curclust mydata.fatsize then some ⟨false, [], cluster, block, mydata⟩
      else if mydata.clustSize.toNat * sectorSize ≤ maxClustsize then
        match getCluster disk mydata.toGeometry curclust block 0
          (bytesperclust mydata.toGeometry) with
        | (false, block) => some ⟨false, [], cluster, block, mydata⟩
        | (true, block) => nameAcross mydata cluster retdent (slotptr - 1) block
      else none
    else
      finishName [] cluster retdent slotptr (slice cluster (direntSize * slotptr) direntSize) block
        mydata

end FatNames
