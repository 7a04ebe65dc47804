import Mathlib.Data.Finite.Prod
import UBoot.Lib.ByteMemory
import UBoot.Lib.FuelRecursion
import UBoot.Lib.Guarded

/-!
# DOS partition tables (disk/part_dos.c)

Both functions go from a table to the tables its extended entries name, at addresses that come from
the disk. They are run on fuel: whether they return is a question about the disk. Sectors wrap as
the words they are; `part_num` is a plain number, since C gives no meaning to a count past `int`.
-/

namespace PartDos

open ByteMemory FuelRecursion

inductive IfType where
  | unknown
  | ide
  | scsi
  | atapi
  | usb
  | doc
  | mmc
  | sd
  | sata
  | sdhc
  deriving DecidableEq

/-- block_dev_desc_t; `block_read` of one sector may fail. -/
structure BlockDev where
  ifType : IfType
  dev : Nat
  lba : UInt32
  blockRead : UInt32 → Option Mem

structure Info where
  start : UInt32
  size : UInt32
  blksz : Nat
  name : String
  type : String

def dosPartTblOffset : Nat := 0x1be
def dosPartMagicOffset : Nat := 0x1fe
def dosPbrFstypeOffset : Nat := 0x36
def dosPbrMediaTypeOffset : Nat := 0x15

def le32ToInt (m : Mem) (a : Nat) : UInt32 := UInt32.ofNat (leValue (slice m a 4))

def isExtended (partType : UInt8) : Bool := partType = 0x5 ∨ partType = 0xf ∨ partType = 0x85

def bootInd (buffer : Mem) (i : Nat) : UInt8 := buffer (dosPartTblOffset + 16 * i)
def sysInd (buffer : Mem) (i : Nat) : UInt8 := buffer (dosPartTblOffset + 16 * i + 4)
def start4 (buffer : Mem) (i : Nat) : UInt32 := le32ToInt buffer (dosPartTblOffset + 16 * i + 8)
def size4 (buffer : Mem) (i : Nat) : UInt32 := le32ToInt buffer (dosPartTblOffset + 16 * i + 12)

def entries : List Nat := [0, 1, 2, 3]

def magic (buffer : Mem) : Bool :=
  buffer dosPartMagicOffset = 0x55 ∧ buffer (dosPartMagicOffset + 1) = 0xaa

inductive BlockType where
  | noSignature
  | pbr
  | mbr
  deriving DecidableEq

/-- "FAT" at DOS_PBR_FSTYPE_OFFSET makes a PBR. -/
def testBlockType (buffer : Mem) : BlockType :=
  if ¬ magic buffer then .noSignature
  else if slice buffer dosPbrFstypeOffset 3 = [70, 65, 84] then .pbr
  else .mbr

structure Table where
  sector : UInt32
  relative : UInt32
  deriving DecidableEq

/-- The table an extended entry names; the first one below the MBR is the base of all others. -/
def extendedTable (t : Table) (buffer : Mem) (i : Nat) : Table :=
  let lbaStart := start4 buffer i + t.relative
  ⟨lbaStart, if t.sector = 0 then lbaStart else t.relative⟩

/-- "Reverse engr the fdisk part# assignment rule!" -/
def numbered (t : Table) (buffer : Mem) (i : Nat) : Bool :=
  t.sector = 0 ∨ (sysInd buffer i ≠ 0 ∧ isExtended (sysInd buffer i) = false)

/-- A line on the console. `%d` and `%10ld` show a word with its sign. -/
inductive Line where
  | heading
  | cantRead (dev : Nat) (sector : Int32)
  | badSignature (first second : UInt8)
  | pbr (lba : Int32) (media : UInt8)
  | part (num : Nat) (start size : Int32) (type : UInt8) (extended : Bool)
  deriving DecidableEq

/-- `print_one_part`, with `lba_start` and `lba_size` as the ints they are. -/
def printOnePart (buffer : Mem) (i : Nat) (t : Table) (partNum : Nat) : Line :=
  .part partNum (t.sector + start4 buffer i).toInt32 (size4 buffer i).toInt32 (sysInd buffer i)
    (isExtended (sysInd buffer i))

def printEntries (t : Table) (buffer : Mem) : List Nat → Nat → List Line × Nat
  | [], partNum => ([], partNum)
  | i :: is, partNum =>
    let rest := printEntries t buffer is (if numbered t buffer i then partNum + 1 else partNum)
    if sysInd buffer i ≠ 0 ∧ (t.sector = 0 ∨ isExtended (sysInd buffer i) = false) then
      (printOnePart buffer i t partNum :: rest.1, rest.2)
    else rest

def extendedEntries (buffer : Mem) : List Nat :=
  entries.filter fun i => isExtended (sysInd buffer i)

def printPartitionExtended (d : BlockDev) : Nat → Table × Nat → Option (List Line)
  | 0, _ => none
  | fuel + 1, (t, partNum) =>
    match d.blockRead t.sector with
    | none => some [.cantRead d.dev t.sector.toInt32]
    | some buffer =>
      match testBlockType buffer with
      | .noSignature =>
        some [.badSignature (buffer dosPartMagicOffset) (buffer (dosPartMagicOffset + 1))]
      | .pbr => some [.pbr d.lba.toInt32 (buffer dosPbrMediaTypeOffset)]
      | .mbr =>
        let first := printEntries t buffer entries partNum
        let calls := (extendedEntries buffer).mapM fun i =>
          printPartitionExtended d fuel (extendedTable t buffer i, first.2)
        calls.map fun lines => first.1 ++ lines.flatten

def printPartDos (d : BlockDev) (fuel : Nat) : Option (List Line) :=
  (printPartitionExtended d fuel (⟨0, 0⟩, 1)).map fun lines => .heading :: lines

def namePrefix : IfType → String
  | .ide => "hd"
  | .sata => "hd"
  | .atapi => "hd"
  | .scsi => "sd"
  | .usb => "usbd"
  | .doc => "docd"
  | _ => "xx"

def partName (d : BlockDev) (partNum : Nat) : String :=
  (namePrefix d.ifType).push (Char.ofNat (97 + d.dev)) ++ toString partNum

/-- The first loop: the partition that is asked for, or `part_num` behind it. -/
def infoEntries (d : BlockDev) (t : Table) (buffer : Mem) (whichPart : Nat) :
    List Nat → Nat → Info ⊕ Nat
  | [], partNum => .inr partNum
  | i :: is, partNum =>
    if bootInd buffer i &&& 0x7f = 0 ∧ sysInd buffer i ≠ 0 ∧ partNum = whichPart ∧
        isExtended (sysInd buffer i) = false then
      .inl ⟨t.sector + start4 buffer i, size4 buffer i, 512, partName d partNum, "U-Boot"⟩
    else
      infoEntries d t buffer whichPart is (if numbered t buffer i then partNum + 1 else partNum)

def getPartitionInfoExtended (d : BlockDev) (whichPart : Nat) :
    Nat → Table × Nat → Option (Option Info)
  | 0, _ => none
  | fuel + 1, (t, partNum) =>
    match d.blockRead t.sector with
    | none => some none
    | some buffer =>
      if ¬ magic buffer then some none
      else match infoEntries d t buffer whichPart entries partNum with
        | .inl info => some (some info)
        | .inr partNum =>
          match entries.find? fun i => isExtended (sysInd buffer i) with
          | none => some none
          | some i =>
            getPartitionInfoExtended d whichPart fuel (extendedTable t buffer i, partNum)

def getPartitionInfoDos (d : BlockDev) (part fuel : Nat) : Option (Option Info) :=
  getPartitionInfoExtended d part fuel (⟨0, 0⟩, 1)

end PartDos

/-!
## Which disks are read to an end (disk/part_dos.c)

Nothing is kept of the tables that were read. Both functions return if and only if no table that
they come to leads back to itself.
-/

namespace PartDosEnds

open ByteMemory FuelRecursion PartDos

variable {d : BlockDev}

def mbr : Table := ⟨0, 0⟩

/-- The tables that `print_partition_extended` goes to from a table. -/
def printed (d : BlockDev) (t : Table) : List Table :=
  match d.blockRead t.sector with
  | none => []
  | some buffer =>
    if testBlockType buffer = .mbr then (extendedEntries buffer).map (extendedTable t buffer)
    else []

/-- The table that `get_partition_info_extended` goes to: that of the first extended entry. -/
def searched (d : BlockDev) (t : Table) : List Table :=
  match d.blockRead t.sector with
  | none => []
  | some buffer =>
    if magic buffer then
      ((entries.find? fun i => isExtended (sysInd buffer i)).map (extendedTable t buffer)).toList
    else []

structure Terminates (d : BlockDev) : Prop where
  print : ∃ fuel, printPartDos d fuel ≠ none
  info : ∀ part, ∃ fuel, getPartitionInfoDos d part fuel ≠ none

/-- The calls of `print_partition_extended`, with `part_num`. -/
def printCalls (d : BlockDev) (call : Table × Nat) : List (Table × Nat) :=
  match d.blockRead call.1.sector with
  | none => []
  | some buffer =>
    if testBlockType buffer = .mbr then
      (extendedEntries buffer).map fun i =>
        (extendedTable call.1 buffer i, (printEntries call.1 buffer entries call.2).2)
    else []

def infoCalls (d : BlockDev) (whichPart : Nat) (call : Table × Nat) : List (Table × Nat) :=
  match d.blockRead call.1.sector with
  | none => []
  | some buffer =>
    if ¬ magic buffer then []
    else match infoEntries d call.1 buffer whichPart entries call.2 with
      | .inl _ => []
      | .inr partNum =>
        ((entries.find? fun i => isExtended (sysInd buffer i)).map fun i =>
          (extendedTable call.1 buffer i, partNum)).toList

lemma print_runs (d : BlockDev) : Runs (printCalls d) (printPartitionExtended d) where
  empty _ := rfl
  call fuel := by
    rintro ⟨t, partNum⟩
    rw [printPartitionExtended, printCalls]
    cases d.blockRead t.sector with
    | none => simp
    | some buffer =>
      dsimp only
      cases testBlockType buffer with
      | noSignature => simp
      | pbr => simp
      | mbr =>
        rw [if_pos rfl, ne_eq, Option.map_eq_none_iff, ← ne_eq, Guarded.mapM_ne_none,
          List.forall_mem_map]

lemma info_runs (d : BlockDev) (whichPart : Nat) :
    Runs (infoCalls d whichPart) (getPartitionInfoExtended d whichPart) where
  empty _ := rfl
  call fuel := by
    rintro ⟨t, partNum⟩
    rw [getPartitionInfoExtended, infoCalls]
    cases d.blockRead t.sector with
    | none => simp
    | some buffer =>
      dsimp only
      cases magic buffer with
      | false => simp
      | true =>
        rw [if_neg (not_not.mpr rfl), if_neg (not_not.mpr rfl)]
        cases infoEntries d t buffer whichPart entries partNum with
        | inl info => simp
        | inr partNum =>
          cases entries.find? fun i => isExtended (sysInd buffer i) with
          | none => simp
          | some i => simp

variable {whichPart : Nat}

lemma printed_eq (call : Table × Nat) : printed d call.1 = (printCalls d call).map Prod.fst := by
  rw [printed, printCalls]
  cases d.blockRead call.1.sector with
  | none => rfl
  | some buffer =>
    dsimp only
    split_ifs
    · rw [List.map_map]
      rfl
    · rfl

lemma searched_of_infoCalls {call called : Table × Nat} (mem : called ∈ infoCalls d whichPart call)
    : called.1 ∈ searched d call.1 := by
  rw [infoCalls] at mem
  rw [searched]
  cases read : d.blockRead call.1.sector with
  | none => simp [read] at mem
  | some buffer =>
    rw [read] at mem
    cases signature : magic buffer with
    | false => simp [signature] at mem
    | true =>
      simp only [signature, not_true_eq_false, if_false, if_true] at mem ⊢
      cases found : infoEntries d call.1 buffer whichPart entries call.2 with
      | inl info => simp [found] at mem
      | inr partNum =>
        rw [found] at mem
        obtain ⟨i, first, rfl⟩ := Option.map_eq_some_iff.mp (Option.mem_toList.mp mem)
        exact Option.mem_toList.mpr (Option.map_eq_some_iff.mpr ⟨i, first, rfl⟩)

lemma infoEntries_behind (t : Table) (buffer : Mem) (is : List Nat) {partNum : Nat}
    (behind : whichPart < partNum) :
    ∃ partNum', infoEntries d t buffer whichPart is partNum = .inr partNum' ∧
      whichPart < partNum' := by
  induction is generalizing partNum with
  | nil => exact ⟨partNum, rfl, behind⟩
  | cons i is ih =>
    rw [infoEntries, if_neg fun found => absurd found.2.2.1 (Nat.ne_of_gt behind)]
    apply ih
    split_ifs
    · exact Nat.lt_succ_of_lt behind
    · exact behind

lemma infoCalls_of_searched {call : Table × Nat} (behind : whichPart < call.2) {t : Table}
    (mem : t ∈ searched d call.1) :
    ∃ called ∈ infoCalls d whichPart call, called.1 = t ∧ whichPart < called.2 := by
  rw [searched] at mem
  rw [infoCalls]
  cases read : d.blockRead call.1.sector with
  | none => simp [read] at mem
  | some buffer =>
    rw [read] at mem
    cases signature : magic buffer with
    | false => simp [signature] at mem
    | true =>
      simp only [signature, not_true_eq_false, if_false, if_true] at mem ⊢
      obtain ⟨partNum, found, still⟩ := infoEntries_behind (d := d) call.1 buffer entries behind
      obtain ⟨i, first, rfl⟩ := Option.map_eq_some_iff.mp (Option.mem_toList.mp mem)
      rw [found]
      refine ⟨(extendedTable call.1 buffer i, partNum), ?_, rfl, still⟩
      exact Option.mem_toList.mpr (Option.map_eq_some_iff.mpr ⟨i, first, rfl⟩)

lemma print_ends_iff (t : Table) (partNum : Nat) :
    Ends (printCalls d) (t, partNum) ↔ Ends (printed d) t := by
  constructor
  · refine Ends.simulated (fun call t related t' mem => ?_) (R := fun call t => call.1 = t) rfl
    subst related
    rw [printed_eq, List.mem_map] at mem
    obtain ⟨called, mem, rfl⟩ := mem
    exact ⟨called, mem, rfl⟩
  · refine Ends.simulated (fun t call related called mem => ?_) (R := fun t call => call.1 = t) rfl
    subst related
    refine ⟨called.1, ?_, rfl⟩
    rw [printed_eq]
    exact List.mem_map_of_mem mem

lemma info_ends (whichPart : Nat) {t : Table} (ends : Ends (searched d) t) (partNum : Nat) :
    Ends (infoCalls d whichPart) (t, partNum) := by
  refine Ends.simulated (fun t call related called mem => ?_) (R := fun t call => call.1 = t) rfl
    ends
  subst related
  exact ⟨called.1, searched_of_infoCalls mem, rfl⟩

lemma searched_ends {partNum : Nat} {t : Table} (behind : whichPart < partNum)
    (ends : Ends (infoCalls d whichPart) (t, partNum)) : Ends (searched d) t := by
  refine Ends.simulated (fun call t related t' mem => ?_)
    (R := fun call t => call.1 = t ∧ whichPart < call.2) ⟨rfl, behind⟩ ends
  obtain ⟨rfl, behind⟩ := related
  obtain ⟨called, calls, rfl, still⟩ := infoCalls_of_searched behind mem
  exact ⟨called, calls, rfl, still⟩

instance finiteTable : Finite Table := by
  refine Finite.of_injective (fun t => (t.sector.toFin, t.relative.toFin)) fun t u same => ?_
  obtain ⟨sector, relative⟩ := Prod.mk.inj same
  cases t
  cases u
  exact congrArg₂ Table.mk (UInt32.toFin_inj.mp sector) (UInt32.toFin_inj.mp relative)

lemma print_iff (d : BlockDev) :
    (∃ fuel, printPartDos d fuel ≠ none) ↔ Ends (printed d) mbr := by
  rw [← print_ends_iff mbr 1, ← (print_runs d).returns_iff]
  simp only [printPartDos, ne_eq, Option.map_eq_none_iff]
  rfl

lemma info_iff (d : BlockDev) :
    (∀ part, ∃ fuel, getPartitionInfoDos d part fuel ≠ none) ↔ Ends (searched d) mbr := by
  constructor
  · intro returns
    exact searched_ends Nat.one_pos (((info_runs d 0).returns_iff (mbr, 1)).mp (returns 0))
  · intro ends part
    exact ((info_runs d part).returns_iff (mbr, 1)).mpr (info_ends part ends 1)

/-- Both functions return exactly if no table that either comes to leads back to itself. -/
theorem terminates_iff (d : BlockDev) :
    Terminates d ↔ NoReturn (printed d) mbr ∧ NoReturn (searched d) mbr := by
  rw [← ends_iff_noReturn, ← ends_iff_noReturn, ← print_iff, ← info_iff]
  constructor
  · exact fun terminates => ⟨terminates.print, terminates.info⟩
  · exact fun both => ⟨both.1, both.2⟩

def looped : BlockDev where
  ifType := .usb
  dev := 0
  lba := 64
  blockRead sector := some fun a =>
    if a = dosPartMagicOffset then 0x55
    else if a = dosPartMagicOffset + 1 then 0xaa
    else if a = dosPartTblOffset + 4 then 0x5
    else if a = dosPartTblOffset + 8 ∧ sector = 0 then 1
    else 0

/-- Nothing is numbered in the table, so that no partition is ever the one that is asked for. -/
theorem looped_never_read :
    (∀ fuel, printPartDos looped fuel = none) ∧
      ∀ fuel, getPartitionInfoDos looped 5 fuel = none := by
  have print : ¬ ∃ fuel, printPartDos looped fuel ≠ none := by
    rw [print_iff]
    exact not_ends_of_loop (b := ⟨1, 1⟩) (by decide) (by decide)
  have info : ¬ ∃ fuel, getPartitionInfoDos looped 5 fuel ≠ none := by
    refine mt ((info_runs looped 5).returns_iff (mbr, 1)).mp ?_
    exact not_ends_of_loop (b := (⟨1, 1⟩, 5)) (by decide) (by decide)
  exact ⟨fun fuel => not_not.mp (not_exists.mp print fuel),
    fun fuel => not_not.mp (not_exists.mp info fuel)⟩

end PartDosEnds
