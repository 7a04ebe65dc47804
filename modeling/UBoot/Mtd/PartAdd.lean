import UBoot.Mtd.CurrentPart

/-!
# Adding a partition from the command line (common/cmd_mtdparts.c)

`mtdparts add <mtd-dev> <size>[@<offset>] <name> [ro]`, once `mtdparts_init` has returned 0: a
description is put together in `tmpbuf`, parsed as if it came from the variable, and merged into the
list. The current partition, which moves along, is left out.
-/

namespace PartAdd

open Mtdparts NumberText

/-- `argv[2]` to `argv[5]`, of which the last may be missing. -/
structure Args where
  dev : Text
  size : Text
  name : Text
  flag : Option Text

inductive Line where
  | parts (m : Message)
  | noSuchDevice (dev : Text)     -- no such device %s defined in mtdids variable
  | tooLong                       -- too long partition description
  | generatedTooLong              -- generated mtdparts too long, reseting to null
  deriving DecidableEq

/-- The prefixes of `mtd_id_parse` with the rest of the text, in the order they are tried. -/
def deviceType : Text → Option (DevType × Text)
  | 110 :: 97 :: 110 :: 100 :: p => some (.nand, p)
  | 110 :: 111 :: 114 :: p => some (.nor, p)
  | 111 :: 110 :: 101 :: 110 :: 97 :: 110 :: 100 :: p => some (.onenand, p)
  | _ => none

/-- `mtd_id_parse`: the type, the number in eight bits, and the text behind it. -/
def mtdIdParse (id : Text) : Except (List Message) (DevType × UInt8 × Text) :=
  match deviceType id with
  | none => .error [.incorrectType id]
  | some (type, p) =>
    if (p.head?.map isDigit).getD false then
      .ok (type, (simpleStrtoul p 0).1.toUInt8, (simpleStrtoul p 0).2)
    else .error [.incorrectNumber id]

/-- `device_parse` stores NULL through `ret` before it reads anything. -/
structure Parsed where
  nullStore : Bool
  result : Except (List Message) (Device × Text)

/-- `device_parse (mtd_dev, ret, &dev)`, for a `ret` that may be NULL. -/
def deviceParseInto (retIsNull : Bool) (flash : DevType → UInt8 → Option MtdInfo)
    (ids : List MtdId) (devices : List Device) (mtdDev : Text) : Parsed :=
  ⟨retIsNull, deviceParse flash ids devices mtdDev⟩

def partAddDescMaxlen : UInt8 := 64
def mtdpartsMaxlen : Nat := 512

/-- `len`, a u8. The flag only counts when it has two characters. -/
def descriptionLen (id : MtdId) (args : Args) : UInt8 :=
  let len := UInt8.ofNat (id.mtdId.length + 1)
  let len := len + UInt8.ofNat args.size.length
  let len := len + UInt8.ofNat (args.name.length + 2)
  if args.flag.map List.length = some 2 then len + 2 else len

def descriptionText (id : MtdId) (args : Args) : Text :=
  id.mtdId ++ 58 :: (args.size ++ 40 :: (args.name ++ 41 :: args.flag.getD []))

/-- What a call leaves behind: the text put into `tmpbuf`, whether NULL was stored through, what the
text defines, the list, and the value `setenv` gets for "mtdparts". -/
structure Result where
  ret : Nat
  out : List Line
  tmpbuf : Option Text
  nullStore : Bool
  parsed : Option Device
  devices : List Device
  saved : Option (Option Text)

/-- `part_add`, of a partition to a device on the list. -/
def partAdd (flash : DevType → UInt8 → Option MtdInfo) (dev : Device) (part : Part) :
    Except (List Message) Device :=
  match partValidate flash dev.id part with
  | .error e => .error e
  | .ok part => match Mtdparts.partSortAdd Part.offset part dev.parts with
    | .error e => .error e
    | .ok parts => .ok { dev with parts := parts }

def replaceDevice (devices : List Device) (dev : Device) : List Device :=
  devices.map fun d => if d.id.type = dev.id.type ∧ d.id.num = dev.id.num then dev else d

/-- `device_add`, or the merge of the first partition. -/
def addDevice (flash : DevType → UInt8 → Option MtdInfo) (devices : List Device) (dev : Device) :
    Except (List Message) (List Device) :=
  match deviceFind devices dev.id.type dev.id.num with
  | none => .ok (devices ++ [dev])
  | some devTmp => match dev.parts with
    | [] => .error []
    | p :: _ => match partAdd flash devTmp p with
      | .error e => .error e
      | .ok devTmp => .ok (replaceDevice devices devTmp)

/-- The end of the command: `generate_mtdparts_save (last_parts, MTDPARTS_MAXLEN)`. -/
def saveDevices (result : Result) (devices : List Device) : Result :=
  match generateMtdparts devices mtdpartsMaxlen with
  | none => { result with
      ret := 1, out := [.generatedTooLong], devices := devices, saved := some none }
  | some buf => { result with
      ret := 0, devices := devices, saved := some (if buf = [] then none else some buf) }

def doMtdpartsAdd (flash : DevType → UInt8 → Option MtdInfo) (ids : List MtdId)
    (devices : List Device) (args : Args) : Result :=
  let reject (out : List Line) : Result := ⟨1, out, none, false, none, devices, none⟩
  match mtdIdParse args.dev with
  | .error e => reject (e.map .parts)
  | .ok (type, num, _) => match idFind ids type num with
    | none => reject [.noSuchDevice args.dev]
    | some id =>
      if partAddDescMaxlen ≤ descriptionLen id args then reject [.tooLong]
      else
        let tmpbuf := descriptionText id args
        let parsed := deviceParseInto true flash ids devices tmpbuf
        match parsed.result with
        | .error e => ⟨1, e.map .parts, some tmpbuf, parsed.nullStore, none, devices, none⟩
        | .ok (dev, _) =>
          let result : Result := ⟨1, [], some tmpbuf, parsed.nullStore, some dev, devices, none⟩
          match addDevice flash devices dev with
          | .error e => { result with out := e.map .parts }
          | .ok devices => saveDevices result devices

def Added (result : Result) : Prop :=
  ∀ dev ∈ result.parsed, ∃ dev' ∈ result.devices, dev'.id = dev.id ∧
    ∀ part ∈ dev.parts, part ∈ dev'.parts

structure Proper (devices : List Device) (result : Result) : Prop where
  fits : ∀ text ∈ result.tmpbuf, text.length + 1 ≤ partAddDescMaxlen.toNat
  pointers : result.nullStore = false
  complete : (result.ret = 1 ∧ result.devices = devices) ∨ (result.ret = 0 ∧ Added result)

/-- The command is turned away before anything is parsed: no such device, or too long in eight
bits. -/
def Rejected (ids : List MtdId) (args : Args) : Prop :=
  match mtdIdParse args.dev with
  | .error _ => True
  | .ok (type, num, _) => match idFind ids type num with
    | none => True
    | some id => partAddDescMaxlen ≤ descriptionLen id args

section
variable {flash : DevType → UInt8 → Option MtdInfo} {ids : List MtdId} {devices : List Device}
variable {args : Args}

lemma proper_reject (out : List Line) :
    Proper devices ⟨1, out, none, false, none, devices, none⟩ where
  fits text mem := absurd mem (Option.not_mem_none text)
  pointers := rfl
  complete := .inl ⟨rfl, rfl⟩

lemma rejected_prints (flash : DevType → UInt8 → Option MtdInfo) (devices : List Device)
    (rejected : Rejected ids args) :
    ∃ out, doMtdpartsAdd flash ids devices args = ⟨1, out, none, false, none, devices, none⟩ := by
  rw [Rejected] at rejected
  rw [doMtdpartsAdd]
  cases device : mtdIdParse args.dev with
  | error e => exact ⟨_, rfl⟩
  | ok read =>
    obtain ⟨type, num, rest⟩ := read
    rw [device] at rejected
    dsimp only at rejected ⊢
    cases known : idFind ids type num with
    | none => exact ⟨_, rfl⟩
    | some id =>
      rw [known] at rejected
      dsimp only at rejected ⊢
      rw [if_pos rejected]
      exact ⟨_, rfl⟩

/-- A command that is not turned away has its device and a length below 64 in eight bits. -/
structure Goes (ids : List MtdId) (args : Args) (id : MtdId) : Prop where
  device : ∃ type num rest, mtdIdParse args.dev = .ok (type, num, rest) ∧
    idFind ids type num = some id
  short : ¬ partAddDescMaxlen ≤ descriptionLen id args

lemma goes_of_not_rejected (goes : ¬ Rejected ids args) : ∃ id, Goes ids args id := by
  rw [Rejected] at goes
  cases device : mtdIdParse args.dev with
  | error e =>
    rw [device] at goes
    exact absurd trivial goes
  | ok read =>
    obtain ⟨type, num, rest⟩ := read
    rw [device] at goes
    dsimp only at goes
    cases known : idFind ids type num with
    | none =>
      rw [known] at goes
      exact absurd trivial goes
    | some id =>
      rw [known] at goes
      exact ⟨id, ⟨type, num, rest, device, known⟩, goes⟩

lemma saveDevices_keeps (result : Result) (devices : List Device) :
    (saveDevices result devices).nullStore = result.nullStore ∧
      (saveDevices result devices).tmpbuf = result.tmpbuf := by
  rw [saveDevices]
  split
  · exact ⟨rfl, rfl⟩
  · exact ⟨rfl, rfl⟩

lemma goes_stores {id : MtdId} (goes : Goes ids args id) :
    (doMtdpartsAdd flash ids devices args).nullStore = true ∧
      (doMtdpartsAdd flash ids devices args).tmpbuf = some (descriptionText id args) := by
  obtain ⟨⟨type, num, rest, device, known⟩, short⟩ := goes
  rw [doMtdpartsAdd, device]
  dsimp only
  rw [known]
  dsimp only
  rw [if_neg short, deviceParseInto]
  cases deviceParse flash ids devices (descriptionText id args) with
  | error e => exact ⟨rfl, rfl⟩
  | ok read =>
    obtain ⟨dev, behind⟩ := read
    dsimp only
    cases addDevice flash devices dev with
    | error e => exact ⟨rfl, rfl⟩
    | ok devices => exact saveDevices_keeps _ devices

end

variable {flash : DevType → UInt8 → Option MtdInfo}

/-- The command does what it promises if and only if it is turned away. -/
theorem proper_iff_rejected (flash : DevType → UInt8 → Option MtdInfo) (ids : List MtdId)
    (devices : List Device) (args : Args) :
    Proper devices (doMtdpartsAdd flash ids devices args) ↔ Rejected ids args := by
  constructor
  · refine fun proper => Classical.byContradiction fun goes => ?_
    obtain ⟨id, goes⟩ := goes_of_not_rejected goes
    have stored : (doMtdpartsAdd flash ids devices args).nullStore = true := (goes_stores goes).1
    rw [proper.pointers] at stored
    exact Bool.false_ne_true stored
  · intro rejected
    obtain ⟨out, result⟩ := rejected_prints flash devices rejected
    rw [result]
    exact proper_reject out

def nor0 : MtdId := ⟨.nor, 0, 0x100000, [97]⟩

def norFlash : DevType → UInt8 → Option MtdInfo := fun _ _ => some ⟨0x100000, 0x1000, []⟩

def ordinary : Args := ⟨[110, 111, 114, 48], [54, 52, 107], [102, 115], none⟩

theorem ordinary_not_proper :
    (doMtdpartsAdd norFlash [nor0] [] ordinary).nullStore = true ∧
      ¬ Proper [] (doMtdpartsAdd norFlash [nor0] [] ordinary) := by
  have goes : Goes [nor0] ordinary nor0 := ⟨⟨.nor, 0, [], rfl, rfl⟩, by decide⟩
  have stored : (doMtdpartsAdd norFlash [nor0] [] ordinary).nullStore = true := (goes_stores goes).1
  refine ⟨stored, fun proper => ?_⟩
  rw [proper.pointers] at stored
  exact Bool.false_ne_true stored

end PartAdd
