import UBoot.Lib.NumberText

/-!
# Partition descriptions (common/cmd_mtdparts.c)

Reading and writing `mtdparts=<mtd-id>:<size>[@<offset>][(<name>)][ro],...;...`.
A string is the list of its bytes without the NUL, a pointer into it the text from
there on. `malloc` succeeds. What is printed goes into the error.
-/

namespace Mtdparts

open NumberText

abbrev Text := List UInt8

inductive DevType where
  | nor
  | nand
  | onenand
  deriving DecidableEq

def DevType.text : DevType → Text
  | .nor => [110, 111, 114]
  | .nand => [110, 97, 110, 100]
  | .onenand => [111, 110, 101, 110, 97, 110, 100]

structure EraseRegion where
  offset : UInt32
  numblocks : Nat
  erasesize : UInt32

/-- What `get_mtd_device_nm` returns; no regions means that all blocks have one size. -/
structure MtdInfo where
  size : UInt32
  erasesize : UInt32
  eraseregions : List EraseRegion

structure MtdId where
  type : DevType
  num : UInt8
  size : UInt32
  mtdId : Text
  deriving DecidableEq

/-- `struct part_info`, as far as it is read here. -/
structure Part where
  name : Text
  autoName : Bool
  size : UInt32
  offset : UInt32
  maskFlags : UInt32
  deriving DecidableEq

structure Device where
  id : MtdId
  parts : List Part
  deriving DecidableEq

inductive Message where
  | sizeTooSmall (size : UInt32)          -- partition size too small (%lx)
  | noClosingParen                        -- no closing ) found in partition name
  | emptyName                             -- empty partition name
  | afterFillUp                           -- no partitions allowed after a fill-up partition
  | unexpectedCharacter (c : UInt8)       -- unexpected character '%c' at the end of partition
  | partitionNotFound (name : Text) (id : MtdId)  -- Partition %s not found on device %s!
  | startAlignment (id : MtdId) (name : Text)     -- %s%d: partition (%s) start offset alignment incorrect
  | sizeAlignment (id : MtdId) (name : Text)      -- %s%d: partition (%s) size alignment incorrect
  | beyondFlash (id : MtdId) (offset : UInt32)    -- %s: offset %08x beyond flash size %08x
  | sizeTooBig (id : MtdId) (name : Text)         -- %s%d: partition (%s) size too big
  | exceedsFlash (id : MtdId)             -- %s: partitioning exceeds flash size
  | secondAtZero                          -- cannot add second partition at offset 0
  | noMtdId                               -- no <mtd-id> identifier
  | invalidDevice (mtdId : Text)          -- invalid mtd device '%.*s'
  | redefined (id : MtdId)                -- device %s%d redefined, please correct mtdparts variable
  | noPrefix                              -- mtdparts variable doesn't start with 'mtdparts='
  | incorrectType (id : Text)             -- incorrect device type in %s
  | incorrectNumber (id : Text)           -- incorrect device number in %s
  | incorrectDevNum                       -- mtdids: incorrect <dev-num>
  | deviceNotFound (type : DevType) (num : UInt8)     -- Device %s not found!
  | idRedefined (type : DevType) (num : UInt8)
    -- device id %s%d redefined, please correct mtdids variable
  | invalidPartnum (num : Nat) (id : MtdId)           -- invalid partition number %d for device %s%d (%s)
  | noPartnum                             -- no partition number specified
  | trailingCharacter (c : UInt8)         -- unexpected trailing character '%c'
  | noSuchDevice (type : DevType) (num : UInt8)       -- no such device %s%d
  | noSuchPartition                       -- no such partition
  deriving DecidableEq

def sizeRemaining : UInt32 := 0xFFFFFFFF
def offsetNotSpecified : UInt32 := 0xFFFFFFFF
def minPartSize : UInt32 := 4096
def mtdWriteableCmd : UInt32 := 1

def memsizeParse (ptr : Text) : UInt32 × Text :=
  let (ret, retptr) := simpleStrtoul ptr 0
  match retptr with
  | [] => (ret, [])
  | c :: more =>
    if c = 71 ∨ c = 103 then (((ret <<< 10) <<< 10) <<< 10, more)
    else if c = 77 ∨ c = 109 then ((ret <<< 10) <<< 10, more)
    else if c = 75 ∨ c = 107 then (ret <<< 10, more)
    else (ret, c :: more)

def sizeGB : UInt32 := 1024 * 1024 * 1024
def sizeMB : UInt32 := 1024 * 1024
def sizeKB : UInt32 := 1024

def memsizeFormat (size : UInt32) : Text :=
  if size % sizeGB = 0 then decimal (size / sizeGB).toNat ++ [103]
  else if size % sizeMB = 0 then decimal (size / sizeMB).toNat ++ [109]
  else if size % sizeKB = 0 then decimal (size / sizeKB).toNat ++ [107]
  else decimal size.toNat

/-- `sprintf (part->name, "0x%08lx@0x%08lx", size, offset)`. -/
def autoNameText (size offset : UInt32) : Text :=
  [48, 120] ++ hexDigits 8 size.toNat ++ [64, 48, 120] ++ hexDigits 8 offset.toNat

/-- The text before the first `c`, and the text behind it. -/
def splitAt (c : UInt8) : Text → Option (Text × Text)
  | [] => none
  | d :: t => if d = c then some ([], t) else (splitAt c t).map (fun s => (d :: s.1, s.2))

def parseSize (p : Text) : Except (List Message) (UInt32 × Text) :=
  match p with
  | 45 :: p => .ok (sizeRemaining, p)
  | p =>
    let (size, p) := memsizeParse p
    if size < minPartSize then .error [.sizeTooSmall size] else .ok (size, p)

def parseOffset (p : Text) : UInt32 × Text :=
  match p with
  | 64 :: p => memsizeParse p
  | p => (offsetNotSpecified, p)

/-- "now look for the name"; `none` is a name to be made up. -/
def parseName (p : Text) : Except (List Message) (Option Text × Text) :=
  match p with
  | 40 :: p => match splitAt 41 p with
    | none => .error [.noClosingParen]
    | some (name, p) => if name = [] then .error [.emptyName] else .ok (some name, p)
  | p => .ok (none, p)

def parseFlags (p : Text) : UInt32 × Text :=
  match p with
  | 114 :: 111 :: p => (mtdWriteableCmd, p)
  | p => (0, p)

/-- `part_parse`: the partition, and the text the next one starts at. -/
def partParse (partdef : Text) : Except (List Message) (Part × Text) := do
  let (size, p) ← parseSize partdef
  let (offset, p) := parseOffset p
  let (name, p) ← parseName p
  let (maskFlags, p) := parseFlags p
  let part : Part := match name with
    | some name => ⟨name, false, size, offset, maskFlags⟩
    | none => ⟨autoNameText size offset, true, size, offset, maskFlags⟩
  match p with
  | 44 :: p => if size = sizeRemaining then .error [.afterFillUp] else .ok (part, p)
  | [] => .ok (part, [])
  | 59 :: p => .ok (part, 59 :: p)
  | c :: _ => .error [.unexpectedCharacter c]

def EraseRegion.starts (r : EraseRegion) : List UInt32 :=
  (List.range r.numblocks).map (fun j => r.offset + UInt32.ofNat j * r.erasesize)

def partValidateEraseblock (flash : DevType → UInt8 → Option MtdInfo) (id : MtdId) (part : Part) :
    Except (List Message) Unit :=
  match flash id.type id.num with
  | none => .error [.partitionNotFound part.name id]
  | some mtd =>
    match mtd.eraseregions.getLast? with
    | none =>
      if part.offset % mtd.erasesize ≠ 0 then .error [.startAlignment id part.name]
      else if part.size % mtd.erasesize ≠ 0 then .error [.sizeAlignment id part.name]
      else .ok ()
    | some last =>
      let starts := mtd.eraseregions.flatMap EraseRegion.starts
      -- where the loops over the blocks leave `start`
      let stop := last.offset + UInt32.ofNat last.numblocks * last.erasesize
      if part.offset ∉ starts then .error [.startAlignment id part.name]
      else if part.offset + part.size ∉ starts ∧ part.offset + part.size ≠ stop then
        .error [.sizeAlignment id part.name]
      else .ok ()

def filled (id : MtdId) (part : Part) : Part :=
  if part.size = sizeRemaining then { part with size := id.size - part.offset } else part

def partValidate (flash : DevType → UInt8 → Option MtdInfo) (id : MtdId) (part : Part) :
    Except (List Message) Part :=
  let part := filled id part
  if id.size < part.offset then .error [.beyondFlash id part.offset]
  else if part.offset + part.size ≤ part.offset then .error [.sizeTooBig id part.name]
  else if id.size < part.offset + part.size then .error [.exceedsFlash id]
  else match partValidateEraseblock flash id part with
    | .error e => .error e
    | .ok () => .ok part

/-- `part_sort_add`, the list alone: before the first partition that does not start earlier. -/
def partSortAdd {α : Type} (offset : α → UInt32) (new : α) :
    List α → Except (List Message) (List α)
  | [] => .ok [new]
  | pi :: rest =>
    if offset new = offset pi ∧ offset pi = 0 then .error [.secondAtZero]
    else if offset new ≤ offset pi then .ok (new :: pi :: rest)
    else match partSortAdd offset new rest with
      | .error e => .error e
      | .ok rest => .ok (pi :: rest)

def deviceFind (devices : List Device) (type : DevType) (num : UInt8) : Option Device :=
  devices.find? (fun d => d.id.type = type ∧ d.id.num = num)

def idFind (ids : List MtdId) (type : DevType) (num : UInt8) : Option MtdId :=
  ids.find? (fun id => id.type = type ∧ id.num = num)

def idFindByMtdId (ids : List MtdId) (mtdId : Text) : Option MtdId :=
  ids.find? (fun id => id.mtdId = mtdId)

def partsLoop (flash : DevType → UInt8 → Option MtdInfo) (id : MtdId) :
    Nat → Text → UInt32 → List Part → Except (List Message) (List Part × Text)
  | 0, _, _, _ => .error []
  | fuel + 1, p, offset, parts =>
    match p with
    | [] => .ok (parts, [])
    | 59 :: p => .ok (parts, 59 :: p)
    | p => match partParse p with
      | .error e => .error e
      | .ok (part, p) =>
        let part :=
          if part.offset = offsetNotSpecified then { part with offset := offset } else part
        match partValidate flash id part with
        | .error e => .error e
        | .ok part => partsLoop flash id fuel p (part.offset + part.size) (parts ++ [part])

/-- "move partitions from tmp_list to dev->parts". -/
def sortParts : List Part → List Part → Except (List Message) (List Part)
  | sorted, [] => .ok sorted
  | sorted, part :: parts => match partSortAdd Part.offset part sorted with
    | .error e => .error e
    | .ok sorted => sortParts sorted parts

def firstOffset (devices : List Device) (id : MtdId) : UInt32 :=
  match deviceFind devices id.type id.num with
  | none => 0
  | some dev => match dev.parts.getLast? with
    | none => 0
    | some part => part.offset + part.size

/-- `device_parse`: the device, and the text the next one starts at. -/
def deviceParse (flash : DevType → UInt8 → Option MtdInfo) (ids : List MtdId)
    (devices : List Device) (mtdDev : Text) : Except (List Message) (Device × Text) :=
  match splitAt 58 mtdDev with
  | none => .error [.noMtdId]
  | some (mtdId, p) => match idFindByMtdId ids mtdId with
    | none => .error [.invalidDevice mtdId]
    | some id => match partsLoop flash id (p.length + 1) p (firstOffset devices id) [] with
      | .error e => .error e
      | .ok ([], _) => .error []
      | .ok (parts, p) => match sortParts [] parts with
        | .error e => .error e
        | .ok parts => .ok (⟨id, parts⟩, p.drop 1)

def variablePrefix : Text := [109, 116, 100, 112, 97, 114, 116, 115, 61]

abbrev Out := Nat × Text

/-- `if (len > maxlen) goto cleanup;`, the copy, and `maxlen -= len`. -/
def emit (piece : Text) (out : Out) : Option Out :=
  if out.1 < piece.length then none else some (out.1 - piece.length, out.2 ++ piece)

def emitIf (p : Prop) [Decidable p] (piece : Text) (out : Out) : Option Out :=
  if p then emit piece out else some out

/-- "add offset only when there is a gap between partitions". -/
def Gap (prev : Option Part) (part : Part) : Prop :=
  match prev with
  | none => part.offset ≠ 0
  | some prev => prev.offset + prev.size ≠ part.offset

instance (prev : Option Part) (part : Part) : Decidable (Gap prev part) := by
  unfold Gap
  split <;> exact inferInstance

def generatePart (prev : Option Part) (part : Part) (out : Out) : Option Out := do
  let out ← emit (memsizeFormat part.size) out
  let out ← emitIf (Gap prev part) (64 :: memsizeFormat part.offset) out
  let out ← emitIf (part.autoName = false) (40 :: (part.name ++ [41])) out
  emitIf (part.maskFlags ≠ 0) [114, 111] out

def generateParts : Option Part → List Part → Out → Option Out
  | _, [], out => some out
  | prev, part :: parts, out => do
    let out ← generatePart prev part out
    let out ← emitIf (parts ≠ []) [44] out
    generateParts (some part) parts out

def generateDevices : List Device → Out → Option Out
  | [], out => some out
  | dev :: devices, out => do
    let out ← emit (dev.id.mtdId ++ [58]) out
    let out ← generateParts none dev.parts out
    let out ← emitIf (devices ≠ []) [59] out
    generateDevices devices out

/-- `generate_mtdparts (buf, buflen)`: the text, or `none` where it does not fit. The nine bytes
of "mtdparts=" are not counted. -/
def generateMtdparts (devices : List Device) (buflen : Nat) : Option Text :=
  if devices = [] then some []
  else (generateDevices devices (buflen - 1, variablePrefix)).map Prod.snd

end Mtdparts
