import Mathlib.Algebra.Group.Int.Defs
import Mathlib.Algebra.Group.Nat.Defs
import UBoot.Lib.ByteMemory

/-!
# Pages and erase blocks (include/linux/mtd/mtd.h)

Both sizes are powers of two, and the device is a whole number of blocks.
-/

namespace Nand

def EINVAL : Int := 22

/-- The sizes in `struct mtd_info`; those of a page and a block have 32 bits. -/
structure Geometry where
  pageShift : Nat
  eraseShift : Nat
  shift_le : pageShift ≤ eraseShift
  eraseShift_lt : eraseShift < 32
  blocks : Nat
  oobsize : Nat

namespace Geometry

variable (geo : Geometry)

def writesize : Nat := 2 ^ geo.pageShift

def erasesize : Nat := 2 ^ geo.eraseShift

def size : Nat := geo.blocks * geo.erasesize

lemma writesize_pos : 0 < geo.writesize := Nat.two_pow_pos _

lemma erasesize_pos : 0 < geo.erasesize := Nat.two_pow_pos _

lemma erasesize_lt : geo.erasesize < 2 ^ 32 := Nat.pow_lt_pow_right (by omega) geo.eraseShift_lt

lemma writesize_dvd_erasesize : geo.writesize ∣ geo.erasesize := Nat.pow_dvd_pow 2 geo.shift_le

def smallPage (blocks : Nat) : Geometry where
  pageShift := 9
  eraseShift := 14
  shift_le := by decide
  eraseShift_lt := by decide
  blocks := blocks
  oobsize := 16

lemma writesize_dvd_size : geo.writesize ∣ geo.size :=
  Nat.dvd_trans geo.writesize_dvd_erasesize (Nat.dvd_mul_left _ _)

lemma page_inside {p : Nat} (h : p * geo.writesize < geo.size) :
    (p + 1) * geo.writesize ≤ geo.size := by
  obtain ⟨n, hn⟩ := geo.writesize_dvd_size
  rw [hn, mul_comm] at h ⊢
  exact Nat.mul_le_mul_left _ (Nat.lt_of_mul_lt_mul_left h)

end Geometry

end Nand

/-!
## Writing and reading pages (drivers/mtd/nand/nand_base.c)

No device operation fails. A page program stores its data; the pages programmed and
read are kept in a trace, newest first.
-/

namespace NandBase

open Nand ByteMemory

/-- `struct mtd_info` with the constants of its chip. -/
structure Mtd where
  geo : Geometry
  /-- One chip (CONFIG_SYS_NAND_MAX_CHIPS) out of `nand_flash_ids`, where the largest has 2 GiB. -/
  size_le : geo.size ≤ 2 ^ 31
  /-- What the bad block table says of a block number. -/
  bad : Nat → Bool
  /-- Pages whose reading corrects bit flips. -/
  flips : Nat → Bool
  subpageSft : Nat
  subpageSft_le : subpageSft ≤ geo.pageShift
  /-- `ecc.size`, if the chip reads subpages. -/
  subpageRead : Option Nat
  subpageRead_pos : ∀ e, subpageRead = some e → 0 < e
  /-- `ecc.write_page`: the spare bytes that go with the data of a page. -/
  writeEcc : List UInt8 → Mem → Mem
  /-- `rw_oob`, which exists only with CONFIG_MTD_NAND_YAFFS2. -/
  rwOob : Option Bool

lemma no_subpages (e : Nat) (h : (none : Option Nat) = some e) : 0 < e := by cases h

/-- `struct nand_chip` with the cells. `raw` is `ops.mode == MTD_OOB_RAW`. -/
structure Chip where
  data : Mem
  spare : Nat → Mem
  pagebuf : Option Nat
  databuf : Mem
  oobPoi : Mem
  ooboffs : Nat
  raw : Bool
  programmed : List Nat
  read : List Nat

def blankChip : Chip where
  data _ := 0xff
  spare _ _ := 0xff
  pagebuf := none
  databuf _ := 0
  oobPoi _ := 0
  ooboffs := 0
  raw := false
  programmed := []
  read := []

def EUCLEAN : Int := 117

def nandBlockIsbad (mtd : Mtd) (offs : Nat) : Int :=
  if mtd.geo.size < offs then -EINVAL
  else if mtd.bad (offs / mtd.geo.erasesize) then 1 else 0

def wrapInt (x : Nat) : Int :=
  if x % 2 ^ 32 < 2 ^ 31 then (x % 2 ^ 32 : Nat) else (x % 2 ^ 32 : Nat) - 2 ^ 32

def nandFillOob (chip : Chip) (oob : List UInt8) : Mem := blit chip.oobPoi chip.ooboffs oob

def nandWritePage (mtd : Mtd) (chip : Chip) (buf : List UInt8) (page : Nat) : Chip :=
  let oob := if chip.raw then chip.oobPoi else mtd.writeEcc buf chip.oobPoi
  { chip with
    data := blit chip.data (page * mtd.geo.writesize) buf
    spare := fun p => if p = page then oob else chip.spare p
    oobPoi := oob
    programmed := page :: chip.programmed }

/-- The loop of `nand_do_write_ops`, one page a round. -/
def writeOpsLoop (mtd : Mtd) (ram : Mem) :
    Nat → (buf : Nat) → (oob : Option Nat) → (realpage column writelen : Nat) → Chip → Option Chip
  | 0, _, _, _, _, _, _ => none
  | fuel + 1, buf, oob, realpage, column, writelen, chip =>
    let writesize := mtd.geo.writesize
    let short := column ≠ 0 ∨ writelen < writesize - 1
    let bytes := if short then min (writesize - column) writelen else writesize
    let bytesBuf := slice ram buf bytes
    let chip := if short then
        { chip with pagebuf := none, databuf := blit (fun _ => 0xff) column bytesBuf } else chip
    let wbuf := if short then slice chip.databuf 0 writesize else bytesBuf
    let chip := match oob with
      | none => chip
      | some a => { chip with oobPoi := nandFillOob chip (slice ram a mtd.geo.oobsize) }
    let chip := nandWritePage mtd chip wbuf realpage
    let left := (writelen + 2 ^ 32 - bytes) % 2 ^ 32
    if left = 0 then some chip
    else writeOpsLoop mtd ram fuel (buf + bytes) (oob.map (· + mtd.geo.oobsize)) (realpage + 1) 0
      left chip

/-- "Invalidate the page cache, when we write to the cached page". -/
def invalidate (mtd : Mtd) (chip : Chip) (ofs len : Nat) : Chip :=
  match chip.pagebuf with
  | none => chip
  | some p =>
    let start := wrapInt (p * mtd.geo.writesize)
    if (ofs : Int) ≤ start ∧ start < (ofs + len : Nat) then { chip with pagebuf := none } else chip

/-- "If we're not given explicit OOB data, let it be 0xFF". -/
def defaultOob (oob : Option Nat) (chip : Chip) : Chip :=
  if oob.isSome then chip else { chip with oobPoi := fun _ => 0xff }

/-- `nand_do_write_ops`: the result code and what was written. -/
def nandDoWriteOps (mtd : Mtd) (chip : Chip) (ram : Mem) (ofs len buf : Nat) (oob : Option Nat) :
    Option (Int × Chip) :=
  let subpagesize := mtd.geo.writesize >>> mtd.subpageSft
  if len = 0 then some (0, chip)
  else if ofs % subpagesize ≠ 0 ∨ len % subpagesize ≠ 0 then some (-EINVAL, chip)
  else
    let column := ofs % mtd.geo.writesize
    if (column ≠ 0 ∨ len % mtd.geo.writesize ≠ 0) ∧ oob.isSome then some (-EINVAL, chip)
    else
      let chip := defaultOob oob (invalidate mtd chip ofs len)
      (writeOpsLoop mtd ram (2 ^ 32) buf oob (ofs / mtd.geo.writesize) column len chip).map
        fun chip => (0, chip)

/-- One round of the de-interleaving in `nand_write`: the spare bytes behind page `i` go to the
end. -/
def shuffleRound (datasize oobsize datapages buf i : Nat) (ram : Mem) : Mem :=
  let oobtemp := slice ram (buf + datasize * (i + 1)) oobsize
  let ram := blit ram (buf + datasize * (i + 1)) (slice ram (buf + datasize * (i + 1) + oobsize)
    ((datapages - (i + 1)) * datasize + (datapages - 1) * oobsize))
  blit ram (buf + datapages * (datasize + oobsize) - oobsize) oobtemp

def shuffleLoop (datasize oobsize datapages buf : Nat) : Nat → Nat → Mem → Mem
  | 0, _, ram => ram
  | n + 1, i, ram =>
    shuffleLoop datasize oobsize datapages buf n (i + 1)
      (shuffleRound datasize oobsize datapages buf i ram)

def shuffled (mtd : Mtd) (ram : Mem) (len buf : Nat) : Mem :=
  if mtd.rwOob = some true then
    let datapages := len / mtd.geo.writesize
    shuffleLoop mtd.geo.writesize mtd.geo.oobsize datapages buf datapages 0 ram
  else ram

def nandWrite (mtd : Mtd) (chip : Chip) (ram : Mem) (ofs len buf : Nat) :
    Option (Int × Chip × Mem) :=
  let ram := shuffled mtd ram len buf
  if mtd.geo.size < ofs + len then some (-EINVAL, chip, ram)
  else if len = 0 then some (0, chip, ram)
  else
    let withOob := mtd.rwOob = some true
    let r := nandDoWriteOps mtd (if withOob then { chip with raw := true } else chip) ram ofs len buf
      (if withOob then some (buf + len) else none)
    r.map fun r =>
      -- with yaffs2 support the mode is restored, to 0 if it was not saved
      let raw := match mtd.rwOob with
        | none => r.2.raw
        | some true => chip.raw
        | some false => false
      (r.1, { r.2 with raw := raw }, ram)

/-- `nand_read_subpage`: the columns of a page it fills; its spare bytes are left out. -/
def readSubpage (mtd : Mtd) (chip : Chip) (eccsize realpage col bytes : Nat) : Mem :=
  let start := col / eccsize * eccsize
  let stop := ((col + bytes - 1) / eccsize + 1) * eccsize
  blit chip.databuf start (slice chip.data (realpage * mtd.geo.writesize + start) (stop - start))

/-- One page of `nand_do_read_ops`: the chip afterwards, the bytes it delivers, and whether bit flips
were corrected. -/
def readPage (mtd : Mtd) (chip : Chip) (realpage col bytes : Nat) : Chip × List UInt8 × Bool :=
  let writesize := mtd.geo.writesize
  let read := realpage :: chip.read
  if chip.pagebuf = some realpage then
    ({ chip with read := read }, slice chip.databuf col bytes, false)
  else if bytes = writesize then
    ({ chip with read := read, oobPoi := chip.spare realpage },
      slice chip.data (realpage * writesize) writesize, mtd.flips realpage)
  else match mtd.subpageRead with
    | some eccsize =>
      let databuf := readSubpage mtd chip eccsize realpage col bytes
      ({ chip with read := read, databuf := databuf }, slice databuf col bytes, mtd.flips realpage)
    | none =>
      let databuf := blit chip.databuf 0 (slice chip.data (realpage * writesize) writesize)
      ({ chip with
          read := read
          databuf := databuf
          oobPoi := chip.spare realpage
          pagebuf := some realpage }, slice databuf col bytes, mtd.flips realpage)

/-- The loop of `nand_do_read_ops`, one page a round. -/
def readOpsLoop (mtd : Mtd) :
    Nat → (buf realpage col readlen : Nat) → (flipped : Bool) → Chip → Mem →
      Option (Int × Chip × Mem)
  | 0, _, _, _, _, _, _, _ => none
  | fuel + 1, buf, realpage, col, readlen, flipped, chip, ram =>
    let bytes := min (mtd.geo.writesize - col) readlen
    let page := readPage mtd chip realpage col bytes
    let ram := blit ram buf page.2.1
    let flipped := flipped || page.2.2
    if readlen - bytes = 0 then some (if flipped then -EUCLEAN else 0, page.1, ram)
    else readOpsLoop mtd fuel (buf + bytes) (realpage + 1) 0 (readlen - bytes) flipped page.1 ram

def nandRead (mtd : Mtd) (chip : Chip) (ram : Mem) (ofs len buf : Nat) :
    Option (Int × Chip × Mem) :=
  if mtd.geo.size < ofs + len then some (-EINVAL, chip, ram)
  else if len = 0 then some (0, chip, ram)
  else readOpsLoop mtd (2 ^ 32) buf (ofs / mtd.geo.writesize) (ofs % mtd.geo.writesize) len
    false chip ram

end NandBase
