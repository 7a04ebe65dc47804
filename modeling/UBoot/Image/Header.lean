import UBoot.Env.Crc32
import UBoot.Lib.ByteOrder
import UBoot.Lib.Memory32

/-!
# Legacy images (include/image.h, tools/mkimage.c, tools/default_image.c, common/image.c)

What mkimage writes and lists, and what the boot loader checks of an image in memory. Numbers
of a header are big-endian. Files are lists of bytes; `none` is an exit of mkimage.
-/

namespace Image

open Memory32 Crc32

def magicNumber : UInt32 := 0x27051956

def headerSize : Nat := 64

/-- IH_TYPE_STANDALONE, IH_TYPE_KERNEL, IH_TYPE_RAMDISK, IH_TYPE_MULTI, IH_TYPE_SCRIPT and
IH_TYPE_FLATDT -/
def typeStandalone : UInt8 := 1
def typeKernel : UInt8 := 2
def typeRamdisk : UInt8 := 3
def typeMulti : UInt8 := 4
def typeScript : UInt8 := 6
def typeFlatdt : UInt8 := 8

structure Header where
  magic : UInt32
  hcrc : UInt32
  time : UInt32
  size : UInt32
  load : UInt32
  ep : UInt32
  dcrc : UInt32
  os : UInt8
  arch : UInt8
  type : UInt8
  comp : UInt8
  name : Fin 32 → UInt8

def Header.bytes (h : Header) : List UInt8 :=
  BigEndian.bytes h.magic ++ BigEndian.bytes h.hcrc ++ BigEndian.bytes h.time ++
    BigEndian.bytes h.size ++ BigEndian.bytes h.load ++ BigEndian.bytes h.ep ++
    BigEndian.bytes h.dcrc ++ [h.os, h.arch, h.type, h.comp] ++ List.ofFn h.name

def Header.ofBytes (bs : List UInt8) : Header where
  magic := BigEndian.wordAt bs 0
  hcrc := BigEndian.wordAt bs 4
  time := BigEndian.wordAt bs 8
  size := BigEndian.wordAt bs 12
  load := BigEndian.wordAt bs 16
  ep := BigEndian.wordAt bs 20
  dcrc := BigEndian.wordAt bs 24
  os := bs.getD 28 0
  arch := bs.getD 29 0
  type := bs.getD 30 0
  comp := bs.getD 31 0
  name := fun i => bs.getD (32 + i) 0

@[simp] lemma Header.bytes_length (h : Header) : h.bytes.length = 64 := by
  simp [Header.bytes]

def Header.checksum (h : Header) : UInt32 := crc32 0 { h with hcrc := 0 }.bytes

/-- `crc32 (0, data, len)`; the length is a `uInt`. -/
def checksumOf (data : List UInt8) : UInt32 := crc32 0 (data.take (data.length % 4294967296))

structure Params where
  addr : UInt32
  ep : UInt32
  os : UInt8
  arch : UInt8
  type : UInt8
  comp : UInt8
  name : List UInt8            -- without its NUL
  xflag : Bool

def checkImageTypes (type : UInt8) : Bool := 0 < type && type < typeFlatdt

/-- `copy_file`: what is appended to the image. A file without bytes cannot be mapped, and
`size` is an `int`. -/
def copyFile (xflag : Bool) (file : List UInt8) (pad : Bool) : Option (List UInt8) :=
  if file = [] then none
  else if xflag ∧ (file.length < headerSize ∨ ∃ b ∈ file.take headerSize, b ≠ 0xff) then none
  else
    let data := file.drop (if xflag then headerSize else 0)
    if 2147483648 ≤ data.length then none
    else some (data ++ if pad ∧ data.length % 4 ≠ 0 then List.replicate (4 - data.length % 4) 0
      else [])

def sizeTable (files : List (List UInt8)) : List UInt8 :=
  files.flatMap (fun file => BigEndian.bytes (UInt32.ofNat file.length)) ++ BigEndian.bytes 0

def copyFiles (xflag : Bool) : List (List UInt8) → Option (List UInt8)
  | [] => none
  | [file] => copyFile xflag file false
  | file :: rest => do
    let data ← copyFile xflag file true
    let more ← copyFiles xflag rest
    some (data ++ more)

def Params.isMulti (p : Params) : Bool := p.type = typeMulti || p.type = typeScript

def imageData (p : Params) (files : List (List UInt8)) : Option (List UInt8) :=
  if p.isMulti then (copyFiles p.xflag files).map (sizeTable files ++ ·)
  else match files with
    | [file] => copyFile p.xflag file false
    | _ => none

/-- `image_set_header`; before, the header is all 0. -/
def setHeader (p : Params) (mtime : UInt32) (data : List UInt8) : Header :=
  let h : Header := {
    magic := magicNumber, hcrc := 0, time := mtime, size := UInt32.ofNat data.length
    load := p.addr, ep := p.ep, dcrc := checksumOf data
    os := p.os, arch := p.arch, type := p.type, comp := p.comp
    name := fun i => p.name.getD i 0 }
  { h with hcrc := crc32 0 h.bytes }

/-- The file mkimage writes. For XIP the entry point is behind the header. -/
def mkimage (p : Params) (mtime : UInt32) (files : List (List UInt8)) : Option (List UInt8) :=
  if checkImageTypes p.type ∧ (p.xflag → p.ep = p.addr + 64) then
    (imageData p files).map fun data => (setHeader p mtime data).bytes ++ data
  else none

/-- `image_verify_header`, as `mkimage -l` calls it. -/
def imageVerifyHeader (file : List UInt8) : Bool :=
  let hdr := Header.ofBytes (file.take headerSize)
  hdr.magic = magicNumber && hdr.checksum = hdr.hcrc &&
    checksumOf (file.drop headerSize) = hdr.dcrc

def headerAt (mem : Mem) (hdr : UInt32) : Header := Header.ofBytes (bytesAt mem hdr headerSize)

def getData (hdr : UInt32) : UInt32 := hdr + 64

def checkMagic (mem : Mem) (hdr : UInt32) : Bool := (headerAt mem hdr).magic = magicNumber

def checkHcrc (mem : Mem) (hdr : UInt32) : Bool :=
  (headerAt mem hdr).checksum = (headerAt mem hdr).hcrc

def checkDcrc (mem : Mem) (hdr : UInt32) : Bool :=
  crc32 0 (bytesAt mem (getData hdr) (headerAt mem hdr).size.toNat) = (headerAt mem hdr).dcrc

def checkTargetArch (mem : Mem) (hdr : UInt32) : Bool := (headerAt mem hdr).arch = 2

/-- `image_get_kernel`: is the header returned? -/
def imageGetKernel (mem : Mem) (hdr : UInt32) (verify : Bool) : Bool :=
  checkMagic mem hdr && checkHcrc mem hdr && (!verify || checkDcrc mem hdr) &&
    checkTargetArch mem hdr

/-!
## The writer and the two verifiers of the header

What mkimage writes passes the checks of the boot loader. `mkimage -l` takes the length of the
data from the file, the boot loader from the header.
-/

open BigEndian (wordAt_front wordAt_behind)

lemma bytes_split (h : Header) : h.bytes =
    BigEndian.bytes h.magic ++ (BigEndian.bytes h.hcrc ++ (BigEndian.bytes h.time ++
      (BigEndian.bytes h.size ++ (BigEndian.bytes h.load ++ (BigEndian.bytes h.ep ++
        (BigEndian.bytes h.dcrc ++ ([h.os, h.arch, h.type, h.comp] ++ List.ofFn h.name))))))) := by
  simp only [Header.bytes, List.append_assoc]

lemma ofBytes_bytes (h : Header) : Header.ofBytes h.bytes = h := by
  have name : (fun i : Fin 32 => h.bytes.getD (32 + i) 0) = h.name := by
    funext i
    have behind : h.bytes.drop 32 = List.ofFn h.name := rfl
    have at_i := congrArg (fun bs : List UInt8 => bs[i.val]?) behind
    simp only [List.getElem?_drop, List.getElem?_ofFn] at at_i
    simp [List.getD_eq_getElem?_getD, at_i]
  cases h
  simp only [Header.ofBytes, Header.mk.injEq]
  refine ⟨?_, ?_, ?_, ?_, ?_, ?_, ?_, rfl, rfl, rfl, rfl, name⟩
  · rw [bytes_split, wordAt_front]
  · rw [bytes_split, wordAt_behind 0, wordAt_front]
  · rw [bytes_split, wordAt_behind 4, wordAt_behind 0, wordAt_front]
  · rw [bytes_split, wordAt_behind 8, wordAt_behind 4, wordAt_behind 0, wordAt_front]
  · rw [bytes_split, wordAt_behind 12, wordAt_behind 8, wordAt_behind 4, wordAt_behind 0,
      wordAt_front]
  · rw [bytes_split, wordAt_behind 16, wordAt_behind 12, wordAt_behind 8, wordAt_behind 4,
      wordAt_behind 0, wordAt_front]
  · rw [bytes_split, wordAt_behind 20, wordAt_behind 16, wordAt_behind 12, wordAt_behind 8,
      wordAt_behind 4, wordAt_behind 0, wordAt_front]

lemma setHeader_checksum (p : Params) (mtime : UInt32) (data : List UInt8) :
    (setHeader p mtime data).checksum = (setHeader p mtime data).hcrc := rfl

variable {data file : List UInt8}

lemma checksumOf_small (small : data.length < 4294967296) :
    checksumOf data = crc32 0 data := by
  rw [checksumOf, Nat.mod_eq_of_lt small, List.take_length]

lemma copyFile_plain (copied : copyFile false file false = some data) :
    data = file := by
  simp only [copyFile, Bool.false_eq_true, false_and, if_false, List.drop_zero,
    List.append_nil] at copied
  split at copied
  · cases copied
  · split at copied
    · cases copied
    · exact (Option.some.inj copied).symm

lemma loaded_parts {mem : Mem} {hdr : UInt32} {h : Header}
    (loaded : bytesAt mem hdr (h.bytes ++ data).length = h.bytes ++ data) :
    headerAt mem hdr = h ∧ bytesAt mem (getData hdr) data.length = data := by
  obtain ⟨first, second⟩ := bytesAt_append.mp loaded
  rw [Header.bytes_length] at first second
  exact ⟨by rw [headerAt, headerSize, first, ofBytes_bytes], second⟩

lemma file_parts {mem : Mem} {hdr : UInt32} (long : 64 ≤ file.length)
    (loaded : bytesAt mem hdr file.length = file) :
    bytesAt mem hdr headerSize = file.take headerSize ∧
      bytesAt mem (getData hdr) (file.drop headerSize).length = file.drop headerSize := by
  have split : file = file.take headerSize ++ file.drop headerSize := (List.take_append_drop ..).symm
  have size : (file.take headerSize).length = 64 := by
    rw [List.length_take]
    exact min_eq_left long
  rw [split] at loaded
  obtain ⟨first, second⟩ := bytesAt_append.mp loaded
  rw [size] at first second
  exact ⟨first, second⟩

/-- With a size that is that of the file both verifiers add up the same bytes. -/
lemma data_of_size {mem : Mem} {hdr : UInt32} (long : 64 ≤ file.length)
    (loaded : bytesAt mem hdr file.length = file)
    (size : (Header.ofBytes (file.take headerSize)).size.toNat = file.length - 64) :
    bytesAt mem (getData hdr) (Header.ofBytes (file.take headerSize)).size.toNat =
      file.drop headerSize := by
  obtain ⟨-, data⟩ := file_parts long loaded
  rw [List.length_drop] at data
  rw [size]
  exact data

/-- What mkimage writes passes the three checks with the parameters in its header and the data
behind it. A file of at least 64 bytes is listed as valid exactly when the boot loader takes it,
if its magic number or its header checksum is wrong, or the size in its header is that of the
file. -/
theorem written_image_valid_and_listed (mem : Mem) (hdr : UInt32) :
    (∀ (p : Params) (mtime : UInt32) (files : List (List UInt8)) (image : List UInt8),
      mkimage p mtime files = some image → image.length < 4294967296 →
      bytesAt mem hdr image.length = image →
        checkMagic mem hdr = true ∧ checkHcrc mem hdr = true ∧ checkDcrc mem hdr = true ∧
        (headerAt mem hdr).size.toNat = image.length - headerSize ∧
        (headerAt mem hdr).load = p.addr ∧ (headerAt mem hdr).ep = p.ep ∧
        (headerAt mem hdr).os = p.os ∧ (headerAt mem hdr).arch = p.arch ∧
        (headerAt mem hdr).type = p.type ∧ (headerAt mem hdr).comp = p.comp ∧
        ∃ payload, bytesAt mem (getData hdr) (headerAt mem hdr).size.toNat = payload ∧
          imageData p files = some payload ∧
          (p.isMulti = false → p.xflag = false → files = [payload])) ∧
    ∀ file : List UInt8, 64 ≤ file.length → file.length < 4294967296 →
      bytesAt mem hdr file.length = file →
        (Header.ofBytes (file.take headerSize)).magic ≠ magicNumber ∨
          (Header.ofBytes (file.take headerSize)).checksum ≠
            (Header.ofBytes (file.take headerSize)).hcrc ∨
          (Header.ofBytes (file.take headerSize)).size.toNat = file.length - 64 →
        imageVerifyHeader file = (checkMagic mem hdr && checkHcrc mem hdr && checkDcrc mem hdr) := by
  constructor
  · intro p mtime files image built total loaded
    rw [mkimage] at built
    split at built
    · obtain ⟨data, written, rfl⟩ := Option.map_eq_some_iff.mp built
      have small : data.length < 4294967296 := by
        rw [List.length_append, Header.bytes_length] at total
        omega
      obtain ⟨header, content⟩ := loaded_parts loaded
      have size : (setHeader p mtime data).size.toNat = data.length := by
        change (UInt32.ofNat data.length).toNat = data.length
        rw [UInt32.toNat_ofNat']
        exact Nat.mod_eq_of_lt small
      have data_crc : (setHeader p mtime data).dcrc = crc32 0 data := checksumOf_small small
      simp only [checkMagic, checkHcrc, checkDcrc, header, size, content, data_crc,
        setHeader_checksum, decide_true]
      refine ⟨rfl, trivial, trivial, ?_, rfl, rfl, rfl, rfl, rfl, rfl, data, rfl, written, ?_⟩
      · rw [List.length_append, Header.bytes_length, headerSize, Nat.add_sub_cancel_left]
      · intro single plain
        simp only [imageData, single, Bool.false_eq_true, if_false, plain] at written
        split at written
        · rw [copyFile_plain written]
        · cases written
    · cases built
  · intro file long total loaded holds
    obtain ⟨first, -⟩ := file_parts long loaded
    have small : (file.drop headerSize).length < 4294967296 := by
      rw [List.length_drop]
      omega
    have header : headerAt mem hdr = Header.ofBytes (file.take headerSize) := by
      rw [headerAt, first]
    simp only [imageVerifyHeader, checkMagic, checkHcrc, checkDcrc, header,
      checksumOf_small small]
    rcases holds with magic | hcrc | size
    · rw [decide_eq_false magic, Bool.false_and, Bool.false_and, Bool.false_and]
    · rw [decide_eq_false hcrc, Bool.and_false, Bool.false_and, Bool.false_and]
    · rw [data_of_size long loaded size]

/-- The header with another size in it, and the checksum of the data as it is. -/
def resized (h : Header) (size : UInt32) (data : List UInt8) : Header :=
  let h : Header := { h with hcrc := 0, size := size, dcrc := checksumOf data }
  { h with hcrc := h.checksum }

/-- So the size matters: with any other one that leads to another CRC there is a file that is
listed as valid and not taken. -/
theorem resized_listed_only {mem : Mem} {hdr : UInt32} {h : Header} {size : UInt32}
    (magic : h.magic = magicNumber) (small : data.length < 4294967296)
    (loaded : bytesAt mem hdr ((resized h size data).bytes ++ data).length =
      (resized h size data).bytes ++ data)
    (other : crc32 0 (bytesAt mem (getData hdr) size.toNat) ≠ crc32 0 data) :
    imageVerifyHeader ((resized h size data).bytes ++ data) = true ∧
      checkDcrc mem hdr = false := by
  obtain ⟨header, -⟩ := loaded_parts loaded
  have front : ((resized h size data).bytes ++ data).take headerSize =
      (resized h size data).bytes := List.take_left' (Header.bytes_length _)
  have behind : ((resized h size data).bytes ++ data).drop headerSize = data :=
    List.drop_left' (Header.bytes_length _)
  have checksum : (resized h size data).checksum = (resized h size data).hcrc := rfl
  have dcrc : (resized h size data).dcrc = crc32 0 data := checksumOf_small small
  constructor
  · simp only [imageVerifyHeader, front, behind, ofBytes_bytes, checksum, checksumOf_small small,
      dcrc, decide_true, Bool.and_true]
    exact decide_eq_true magic
  · rw [checkDcrc, header, dcrc]
    exact decide_eq_false other

def kernelParams : Params :=
  ⟨0x30008000, 0x30008000, 5, 2, typeKernel, 0, [76, 105, 110, 117, 120], false⟩
def kernelImage : List UInt8 := (setHeader kernelParams 0 [1, 2, 3]).bytes ++ [1, 2, 3]
def kernelMem : Mem := fun a => kernelImage.getD a.toNat 0

/-- A kernel of three bytes: written and listed. -/
theorem kernel_written_and_listed :
    (checkMagic kernelMem 0 = true ∧ checkHcrc kernelMem 0 = true ∧ checkDcrc kernelMem 0 = true) ∧
      imageVerifyHeader kernelImage =
        (checkMagic kernelMem 0 && checkHcrc kernelMem 0 && checkDcrc kernelMem 0) := by
  have both := written_image_valid_and_listed kernelMem 0
  have loaded : bytesAt kernelMem 0 kernelImage.length = kernelImage := by decide +kernel
  have written := both.1 kernelParams 0 [[1, 2, 3]] kernelImage rfl (by decide) loaded
  refine ⟨⟨written.1, written.2.1, written.2.2.1⟩, ?_⟩
  exact both.2 kernelImage (by decide) (by decide) loaded (.inr (.inr (by decide +kernel)))

def emptyHeader : Header := setHeader ⟨0, 0, 5, 2, typeKernel, 0, [], false⟩ 0 []

/-- With one byte behind that header the boot loader takes the image, and mkimage lists it as
corrupted. -/
theorem trailing_byte_rejected :
    let file := emptyHeader.bytes ++ [0]
    let mem : Mem := fun a => file.getD a.toNat 0
    64 ≤ file.length ∧ bytesAt mem 0 file.length = file ∧ imageVerifyHeader file = false ∧
      (checkMagic mem 0 && checkHcrc mem 0 && checkDcrc mem 0) = true := by
  decide +kernel

end Image
