import UBoot.Env.EnvMap
import UBoot.Mtd.Parts

/-!
# The lists of devices and partitions (common/cmd_mtdparts.c)

`part_add` and `part_del` on devices that are on the list. A partition is an object at an
address that no other object ever had, a device is known by its type and number. `none` is
a NULL pointer followed, or what `setenv` does outside its area.
-/

namespace PartLists

open EnvArea Mtdparts NumberText

/-- `part->name`: `part_parse` leaves no empty names. -/
abbrev PartName := {t : Text // t ≠ [] ∧ (0 : UInt8) ∉ t}

structure PartInfo where
  self : Nat
  name : PartName
  autoName : Bool
  size : UInt32
  offset : UInt32
  maskFlags : UInt32
  deriving DecidableEq

def PartInfo.part (p : PartInfo) : Part := ⟨p.name.val, p.autoName, p.size, p.offset, p.maskFlags⟩

structure MtdDevice where
  id : MtdId
  numParts : UInt16
  parts : List PartInfo

def MtdDevice.key (dev : MtdDevice) : DevType × UInt8 := (dev.id.type, dev.id.num)

/-- `devices`, `current_mtd_dev`, `current_mtd_partnum` and `last_partition`. -/
structure Lists where
  devices : List MtdDevice
  currentDev : Option (DevType × UInt8)
  currentPartnum : UInt8
  lastPartition : Text

inductive Line where
  | parts (m : Message)
  | env (m : SetEnv.Message)
  | currentDeleted    -- current partition deleted, resetting current to 0
  deriving DecidableEq

structure Sys where
  cfg : SetEnv.Config
  header : Nat
  flash : DevType → UInt8 → Option MtdInfo

/-- `next` is the first address that no partition has had; `out` is of the last call. -/
structure State where
  lists : Lists
  board : SetEnv.Board
  next : Nat
  out : List Line

def partitionName : Name := ⟨[112, 97, 114, 116, 105, 116, 105, 111, 110], by decide⟩
def mtddevnumName : Name := ⟨[109, 116, 100, 100, 101, 118, 110, 117, 109], by decide⟩
def mtddevnameName : Name := ⟨[109, 116, 100, 100, 101, 118, 110, 97, 109, 101], by decide⟩

def Lists.find (l : Lists) (key : DevType × UInt8) : Option MtdDevice :=
  l.devices.find? (fun dev => dev.key = key)

def Lists.setParts (l : Lists) (key : DevType × UInt8) (numParts : UInt16)
    (parts : List PartInfo) : Lists :=
  let change (dev : MtdDevice) : MtdDevice :=
    if dev.key = key then { dev with numParts := numParts, parts := parts } else dev
  { l with devices := l.devices.map change }

def mtdPartInfo (dev : MtdDevice) (partNum : UInt8) : List Line × Option PartInfo :=
  if dev.numParts.toNat ≤ partNum.toNat then ([.parts (.invalidPartnum partNum.toNat dev.id)], none)
  else ([], dev.parts[partNum.toNat]?)

def setenv (sys : Sys) (name : Name) (value : Option Text) (s : State) : Option State :=
  (SetEnv.doSetenv sys.cfg s.board name.val value.toList).map
    (fun r => { s with board := r.board, out := s.out ++ r.out.map .env })

/-- The `num_parts` of the devices in front of one, in 16 bits. -/
def partsBefore (key : DevType × UInt8) : List MtdDevice → UInt16
  | [] => 0
  | dev :: devices => if dev.key = key then 0 else dev.numParts + partsBefore key devices

def indexPartitions (sys : Sys) (s : State) : Option State :=
  match s.lists.currentDev with
  | none => (setenv sys mtddevnumName none s).bind (setenv sys mtddevnameName none)
  | some key => match s.lists.find key with
    | none => none
    | some dev =>
      let mtddevnum := partsBefore key s.lists.devices + s.lists.currentPartnum.toUInt16
      match mtdPartInfo dev s.lists.currentPartnum with
      | (_, none) => none
      | (_, some part) =>
        (setenv sys mtddevnumName (some (decimal mtddevnum.toNat)) s).bind
          (setenv sys mtddevnameName (some part.name.val))

def partitionText (key : DevType × UInt8) (partnum : UInt8) : Text :=
  key.1.text ++ decimal key.2.toNat ++ 44 :: decimal partnum.toNat

def currentSave (sys : Sys) (s : State) : Option State :=
  match s.lists.currentDev with
  | none => (setenv sys partitionName none s).bind
      (fun s => indexPartitions sys { s with lists := { s.lists with lastPartition := [] } })
  | some key =>
    let buf := partitionText key s.lists.currentPartnum
    (setenv sys partitionName (some buf) s).bind
      (fun s => indexPartitions sys { s with lists := { s.lists with lastPartition := buf } })

/-- What a call makes of the lists, what it prints, and which of `current_save` and
`index_partitions` it ends with. -/
structure Edit where
  lists : Lists
  out : List Line
  save : Bool

def deviceDel (key : DevType × UInt8) (l : Lists) : Edit :=
  let devices := l.devices.filter (fun dev => dev.key ≠ key)
  if l.currentDev = some key then
    match devices with
    | [] => ⟨{ l with devices := [], currentDev := none }, [], true⟩
    | first :: _ =>
      ⟨{ l with devices := devices, currentDev := some first.key, currentPartnum := 0 }, [], true⟩
  else ⟨{ l with devices := devices }, [], false⟩

def partDel (dev : MtdDevice) (part : PartInfo) (l : Lists) : Edit :=
  if dev.numParts = 1 then deviceDel dev.key l
  else
    let del (l : Lists) : Lists :=
      l.setParts dev.key (dev.numParts - 1) (dev.parts.filter (fun p => p.self ≠ part.self))
    if l.currentDev = some dev.key then
      match mtdPartInfo dev l.currentPartnum with
      | (out, none) => ⟨del l, out, false⟩
      | (out, some curr) =>
        if curr.self = part.self then
          ⟨del { l with currentPartnum := 0 }, out ++ [.currentDeleted], true⟩
        else if part.offset ≤ curr.offset then
          ⟨del { l with currentPartnum := l.currentPartnum - 1 }, out, true⟩
        else ⟨del l, out, true⟩
    else ⟨del l, [], false⟩

def partSortAdd (dev : MtdDevice) (part : PartInfo) (l : Lists) : Except (List Line) Edit :=
  let (out, curr) :=
    if dev.parts ≠ [] ∧ l.currentDev = some dev.key then mtdPartInfo dev l.currentPartnum
    else ([], none)
  match Mtdparts.partSortAdd PartInfo.offset part dev.parts with
  | .error e => .error (out ++ e.map .parts)
  | .ok parts =>
    let added := l.setParts dev.key (dev.numParts + 1) parts
    -- the partition the new one was linked in front of
    match dev.parts.find? (fun pi => part.offset ≤ pi.offset), curr with
    | some pi, some curr =>
      if pi.offset ≤ curr.offset then
        .ok ⟨{ added with currentPartnum := l.currentPartnum + 1 }, out, true⟩
      else .ok ⟨added, out, false⟩
    | _, _ => .ok ⟨added, out, false⟩

def partAdd (sys : Sys) (dev : MtdDevice) (part : PartInfo) (l : Lists) :
    Except (List Line) Edit :=
  match partValidate sys.flash dev.id part.part with
  | .error e => .error (e.map .parts)
  | .ok valid => partSortAdd dev { part with size := valid.size } l

def finish (sys : Sys) (e : Edit) (s : State) : Option State :=
  let s := { s with lists := e.lists, out := e.out }
  if e.save then currentSave sys s else indexPartitions sys s

inductive Op where
  /-- `part_add`, to the device with this key, of a partition allocated for it. -/
  | add (key : DevType × UInt8) (name : PartName) (autoName : Bool) (size offset maskFlags : UInt32)
  /-- `part_del`, of the partition at this address. -/
  | del (key : DevType × UInt8) (self : Nat)
  deriving DecidableEq

/-- One call; `none` also for a device or partition that is not on the lists. -/
def step (sys : Sys) (s : State) : Op → Option State
  | .add key name autoName size offset maskFlags =>
    match s.lists.find key with
    | none => none
    | some dev =>
      match partAdd sys dev ⟨s.next, name, autoName, size, offset, maskFlags⟩ s.lists with
      | .error out => some { s with next := s.next + 1, out := out }
      | .ok edit => finish sys edit { s with next := s.next + 1 }
  | .del key self =>
    match s.lists.find key with
    | none => none
    | some dev => match dev.parts.find? (fun p => p.self = self) with
      | none => none
      | some part => finish sys (partDel dev part s.lists) s

end PartLists
