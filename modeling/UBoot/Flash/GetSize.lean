import UBoot.Flash.BankTable
import UBoot.Mtd.CfiFlash

/-!
# The sector table of a CFI chip (drivers/mtd/cfi_flash.c)

`flash_get_size`, behind the probe for the widths. An access outside the four entries of
`erase_region_info` or outside `start[]` and `protect[]` is `none`.
-/

namespace FlashBanks

open CfiFlash (Vendor)

structure CfiQry where
  pId : UInt16
  pAdr : UInt16
  interfaceDesc : UInt16
  maxBufWriteSize : UInt16
  devSize : UInt8
  wordWriteTimeoutTyp : UInt8
  wordWriteTimeoutMax : UInt8
  bufWriteTimeoutTyp : UInt8
  bufWriteTimeoutMax : UInt8
  blockEraseTimeoutTyp : UInt8
  blockEraseTimeoutMax : UInt8
  numEraseRegions : UInt8
  eraseRegionInfo : Nat → UInt32

/-- What a chip answers, and the widths under which `flash_detect_cfi` has found it. -/
structure Chip where
  qry : CfiQry
  portShift : Fin 4
  chipShift : Nat
  chip_le : chipShift ≤ portShift
  manufacturerId : UInt16
  deviceId : UInt16
  readUchar : Nat → UInt8               -- `flash_read_uchar` of the extended query table
  isset : Nat → UInt8                   -- `flash_isset` of the protection of a sector

def Chip.portwidth (chip : Chip) : Nat := 2 ^ chip.portShift.val

def Chip.chipwidth (chip : Chip) : Nat := 2 ^ chip.chipShift

def vendorOf (pId : UInt16) : Option Vendor :=
  if pId = 512 then some .intelProgRegions
  else if pId = 3 then some .intelStandard
  else if pId = 1 then some .intelExtended
  else if pId = 2 then some .amdStandard
  else if pId = 4 then some .amdExtended
  else none

/-! ## Fix-ups -/

def numRegions : Nat := 4

def swapped (regions : Nat → UInt32) (i j : Nat) : Nat → UInt32 :=
  fun k => if k = i then regions j else if k = j then regions i else regions k

/-- "for (i = 0, j = qry->num_erase_regions - 1; i < j; i++, j--)" -/
def reverseLoop : (fuel : Nat) → (i j : UInt32) → (Nat → UInt32) → Option (Nat → UInt32)
  | 0, _, _, regions => some regions
  | fuel + 1, i, j, regions =>
    if i < j then
      if j.toNat < numRegions then
        reverseLoop fuel (i + 1) (j - 1) (swapped regions i.toNat j.toNat)
      else none
    else some regions

def cfiReverseGeometry (qry : CfiQry) : Option CfiQry :=
  let j := qry.numEraseRegions.toUInt32 - 1
  (reverseLoop j.toNat 0 j qry.eraseRegionInfo).map fun regions =>
    { qry with eraseRegionInfo := regions }

def Chip.cfiVersion (chip : Chip) : Nat :=
  if chip.qry.pAdr ≠ 0 then
    (chip.readUchar (chip.qry.pAdr.toNat + 3)).toNat * 256 +
      (chip.readUchar (chip.qry.pAdr.toNat + 4)).toNat
  else 0

/-- Whether `flash_fixup_amd` takes the chip for one with the boot sectors at its top. -/
def Chip.amdTop (chip : Chip) : Bool :=
  if chip.cfiVersion < 0x3131 then chip.deviceId &&& 0x80 != 0
  else chip.readUchar (chip.qry.pAdr.toNat + 0xf) == 3

def flashFixupAmd (chip : Chip) : Option CfiQry :=
  if 1 < chip.qry.numEraseRegions ∧ chip.amdTop then cfiReverseGeometry chip.qry else some chip.qry

def Chip.atmelTop (chip : Chip) : Bool :=
  let reverseGeometry :=
    chip.qry.pAdr != 0 && (chip.readUchar (chip.qry.pAdr.toNat + 6) &&& 1) == 0
  if chip.deviceId = 0xd6 ∨ chip.deviceId = 0xd2 then !reverseGeometry else reverseGeometry

def flashFixupAtmel (chip : Chip) : Option CfiQry :=
  if chip.atmelTop then cfiReverseGeometry chip.qry else some chip.qry

/-- Whether `flash_fixup_stm` takes the chip for one with the boot sectors at its top. -/
def Chip.stmTop (chip : Chip) : Bool :=
  chip.cfiVersion < 0x3131 && (chip.deviceId == 0x22CA || chip.deviceId == 0x2256)

def flashFixupStm (chip : Chip) : Option CfiQry :=
  if 1 < chip.qry.numEraseRegions ∧ chip.stmTop then cfiReverseGeometry chip.qry else some chip.qry

def Chip.fixedUp (chip : Chip) : Option CfiQry :=
  if chip.manufacturerId = 0x0001 then flashFixupAmd chip
  else if chip.manufacturerId = 0x001f then flashFixupAtmel chip
  else if chip.manufacturerId = 0x0020 then flashFixupStm chip
  else some chip.qry

/-! ## The table -/

def Chip.sizeRatio (chip : Chip) : Nat :=
  if chip.qry.interfaceDesc = 2 ∧ chip.chipwidth = 1 then chip.portwidth / chip.chipwidth / 2
  else chip.portwidth / chip.chipwidth

def eraseRegionCount (tmp : UInt32) : Nat := tmp.toNat % 0x10000 + 1

def eraseRegionSize (tmp : UInt32) : Nat :=
  if tmp.toNat / 0x10000 ≠ 0 then tmp.toNat / 0x10000 * 256 else 128

structure Sectors where
  sectCnt : Nat
  sector : UInt32
  start : Nat → UInt32
  protect : Nat → UInt8

/-- The entry of one sector; `maxSect` is CONFIG_SYS_MAX_FLASH_SECT. -/
def Sectors.put (maxSect : Nat) (vendor : Vendor) (chip : Chip) (length : Nat) (t : Sectors) :
    Option Sectors :=
  if t.sectCnt < maxSect then
    some {
      sectCnt := t.sectCnt + 1
      sector := t.sector + UInt32.ofNat length
      start := fun i => if i = t.sectCnt then t.sector else t.start i
      protect := fun i =>
        if i = t.sectCnt then if vendor.isIntel then chip.isset t.sectCnt else 0
        else t.protect i }
  else none

def sectorLoop (maxSect : Nat) (vendor : Vendor) (chip : Chip) (length : Nat) :
    (left : Nat) → Sectors → Option Sectors
  | 0, t => some t
  | left + 1, t =>
    if maxSect ≤ t.sectCnt then some t
    else (t.put maxSect vendor chip length).bind (sectorLoop maxSect vendor chip length left)

def regionLoop (maxSect : Nat) (vendor : Vendor) (chip : Chip) (regions : Nat → UInt32) :
    (left i : Nat) → Sectors → Option Sectors
  | 0, _, t => some t
  | left + 1, i, t =>
    if numRegions < i then some t
    else if i < numRegions then
      (sectorLoop maxSect vendor chip (eraseRegionSize (regions i) * chip.sizeRatio)
        (eraseRegionCount (regions i)) t).bind
          (regionLoop maxSect vendor chip regions left (i + 1))
    else none

/-- "1 << n"; what C leaves undefined is done as the processor does it. -/
def oneShl (n : Nat) : UInt32 := if n % 256 < 32 then 1 <<< UInt32.ofNat (n % 256) else 0

structure FlashInfo extends Bank where
  portwidth : Nat
  bufferSize : UInt16
  eraseBlkTout : UInt32
  writeTout : UInt32
  bufferWriteTout : UInt32

/-- `flash_get_size` for a chip that answers: what it returns, and the entry of `flash_info`. -/
def flashGetSize (maxSect : Nat) (base : UInt32) (chip : Chip) (info : FlashInfo) :
    Option (UInt32 × FlashInfo) :=
  if 0 < maxSect then
    let start := fun i => if i = 0 then base else info.start i
    match vendorOf chip.qry.pId with
    | none => some (0, { info with start := start })
    | some vendor =>
      chip.fixedUp.bind fun qry =>
        (regionLoop maxSect vendor chip qry.eraseRegionInfo chip.qry.numEraseRegions.toNat 0
          ⟨0, base, start, info.protect⟩).map fun t =>
            let size := oneShl qry.devSize.toNat * UInt32.ofNat chip.sizeRatio
            let bufWrite := oneShl qry.bufWriteTimeoutTyp.toNat *
              oneShl qry.bufWriteTimeoutMax.toNat
            let wordWrite := oneShl qry.wordWriteTimeoutTyp.toNat *
              oneShl qry.wordWriteTimeoutMax.toNat
            (size, {
              size
              sectorCount := UInt16.ofNat t.sectCnt
              flashId := 0x01000000     -- FLASH_MAN_CFI
              start := t.start
              protect := t.protect
              portwidth :=
                if chip.qry.interfaceDesc = 2 ∧ chip.chipwidth = 1 then chip.portwidth / 2
                else chip.portwidth
              bufferSize := (oneShl qry.maxBufWriteSize.toNat).toUInt16
              eraseBlkTout := oneShl qry.blockEraseTimeoutTyp.toNat *
                oneShl qry.blockEraseTimeoutMax.toNat
              writeTout := (wordWrite + 999) / 1000
              bufferWriteTout := (bufWrite + 999) / 1000 })
  else none

/-! ## What the table has to be -/

def CfiQry.lengths (qry : CfiQry) : List Nat :=
  (List.range qry.numEraseRegions.toNat).flatMap fun i =>
    List.replicate (eraseRegionCount (qry.eraseRegionInfo i))
      (eraseRegionSize (qry.eraseRegionInfo i))

/-- A structure that agrees with itself and with the size of the tables. -/
structure CfiQry.Consistent (maxSect : Nat) (qry : CfiQry) : Prop where
  regions : qry.numEraseRegions.toNat ≤ numRegions
  whole : qry.lengths.sum = 2 ^ qry.devSize.toNat
  fits : qry.lengths.length ≤ maxSect

/-- The sectors have these lengths, one after the other from the base to the end of the bank. -/
structure Bank.Describes (b : Bank) (base : UInt32) (lengths : List Nat) : Prop where
  tiled : b.Tiled
  first : b.start 0 = base
  count : b.sectorCount.toNat = lengths.length
  lengths : ∀ i, (h : i < lengths.length) → (b.start i).toNat + lengths[i] = b.sectorStop i

def GetSizeRight (maxSect : Nat) (base : UInt32) (chip : Chip) (info : FlashInfo) : Prop :=
  ∃ value info', flashGetSize maxSect base chip info = some (value, info') ∧
    (vendorOf chip.qry.pId ≠ none → chip.qry.Consistent maxSect →
      ∃ qry, chip.fixedUp = some qry ∧
        info'.Describes base (qry.lengths.map (· * chip.sizeRatio)))

/-- There are no more than four regions, one at least where a geometry is reversed without a look at
their number, and for a consistent structure the ratio is not 0, `sector_count` can count the
sectors, and the bank lies in the address space with a size that a word can hold. -/
structure GetSizeMeets (maxSect : Nat) (base : UInt32) (chip : Chip) : Prop where
  table : 0 < maxSect
  regions : vendorOf chip.qry.pId ≠ none → chip.qry.numEraseRegions.toNat ≤ numRegions
  reversed : vendorOf chip.qry.pId ≠ none → chip.qry.numEraseRegions = 0 →
    ¬ (chip.manufacturerId = 0x001f ∧ chip.atmelTop)
  fits : vendorOf chip.qry.pId ≠ none → chip.qry.Consistent maxSect →
    0 < chip.sizeRatio ∧ chip.qry.lengths.length < 0x10000 ∧
      2 ^ chip.qry.devSize.toNat * chip.sizeRatio < 0x100000000 ∧
      base.toNat + 2 ^ chip.qry.devSize.toNat * chip.sizeRatio ≤ 0x100000000

/-! ## Reversing -/

section
variable {qry : CfiQry}

lemma reverseLoop_out {fuel : Nat} {j : UInt32} (high : numRegions ≤ j.toNat)
    (regions : Nat → UInt32) : reverseLoop (fuel + 1) 0 j regions = none := by
  have behind : (0 : UInt32) < j := UInt32.lt_iff_toNat_lt.mpr (lt_of_lt_of_le (by decide) high)
  rw [reverseLoop, if_pos behind, if_neg (not_lt.mpr high)]

lemma toUInt32_sub_one (pos : 0 < qry.numEraseRegions.toNat) :
    (qry.numEraseRegions.toUInt32 - 1).toNat = qry.numEraseRegions.toNat - 1 := by
  have one_le : (1 : UInt32) ≤ qry.numEraseRegions.toUInt32 := UInt32.le_iff_toNat_le.mpr pos
  rw [UInt32.toNat_sub_of_le _ _ one_le]
  rfl

lemma cfiReverseGeometry_none
    (outside : numRegions < qry.numEraseRegions.toNat ∨ qry.numEraseRegions.toNat = 0) :
    cfiReverseGeometry qry = none := by
  have high : numRegions ≤ (qry.numEraseRegions.toUInt32 - 1).toNat := by
    rcases outside with more | zero
    · rw [toUInt32_sub_one (Nat.zero_lt_of_lt more)]
      exact Nat.le_pred_of_lt more
    · have none_there : qry.numEraseRegions = 0 := UInt8.toNat_inj.mp zero
      rw [none_there]
      decide
  obtain ⟨fuel, counts⟩ := Nat.exists_eq_succ_of_ne_zero
    (Nat.ne_of_gt (lt_of_lt_of_le (by decide) high))
  rw [cfiReverseGeometry, counts, reverseLoop_out high]
  rfl

lemma cfiReverseGeometry_some (pos : 0 < qry.numEraseRegions.toNat)
    (less : qry.numEraseRegions.toNat ≤ numRegions) :
    ∃ regions, cfiReverseGeometry qry = some { qry with eraseRegionInfo := regions } ∧
      ∀ k < qry.numEraseRegions.toNat,
        regions k = qry.eraseRegionInfo (qry.numEraseRegions.toNat - 1 - k) := by
  have few : qry.numEraseRegions = 1 ∨ qry.numEraseRegions = 2 ∨ qry.numEraseRegions = 3 ∨
      qry.numEraseRegions = 4 := by
    simp only [← UInt8.toNat_inj, numRegions] at less ⊢
    simp only [UInt8.reduceToNat]
    omega
  rcases few with count | count | count | count
  all_goals
    rw [cfiReverseGeometry, count]
    refine ⟨_, rfl, fun k inside => ?_⟩
    simp only [UInt8.reduceToNat] at inside ⊢
  · obtain rfl : k = 0 := by omega
    rfl
  · obtain rfl | rfl : k = 0 ∨ k = 1 := by omega
    all_goals rfl
  · obtain rfl | rfl | rfl : k = 0 ∨ k = 1 ∨ k = 2 := by omega
    all_goals rfl
  · obtain rfl | rfl | rfl | rfl : k = 0 ∨ k = 1 ∨ k = 2 ∨ k = 3 := by omega
    all_goals rfl

end

section
variable {qry : CfiQry} {chip : Chip}

lemma map_range_reverse (n : Nat) : (List.range n).map (n - 1 - ·) = (List.range n).reverse := by
  refine List.ext_getElem (by simp) fun i inside there => ?_
  simp

lemma lengths_perm {regions : Nat → UInt32}
    (turned : ∀ k < qry.numEraseRegions.toNat,
      regions k = qry.eraseRegionInfo (qry.numEraseRegions.toNat - 1 - k)) :
    ({ qry with eraseRegionInfo := regions } : CfiQry).lengths.Perm qry.lengths := by
  have same : ({ qry with eraseRegionInfo := regions } : CfiQry).lengths =
      ((List.range qry.numEraseRegions.toNat).map (qry.numEraseRegions.toNat - 1 - ·)).flatMap
        fun i => List.replicate (eraseRegionCount (qry.eraseRegionInfo i))
          (eraseRegionSize (qry.eraseRegionInfo i)) := by
    rw [List.flatMap_map]
    refine List.flatMap_congr fun k inside => ?_
    dsimp only
    rw [turned k (List.mem_range.mp inside)]
  rw [same, map_range_reverse]
  exact (List.reverse_perm _).flatMap_right _

/-- A structure behind the fix-ups differs in the order of its regions only. -/
structure Chip.FixedTo (chip : Chip) (qry : CfiQry) : Prop where
  fixed : chip.fixedUp = some qry
  count : qry.numEraseRegions = chip.qry.numEraseRegions
  devSize : qry.devSize = chip.qry.devSize
  lengths : qry.lengths.Perm chip.qry.lengths

lemma fixedTo_reversed (pos : 0 < chip.qry.numEraseRegions.toNat)
    (less : chip.qry.numEraseRegions.toNat ≤ numRegions)
    (fixed : chip.fixedUp = cfiReverseGeometry chip.qry) : ∃ qry, chip.FixedTo qry := by
  obtain ⟨regions, reversed, turned⟩ := cfiReverseGeometry_some pos less
  exact ⟨_, fixed.trans reversed, rfl, rfl, lengths_perm turned⟩

lemma Chip.fixedTo_same (fixed : chip.fixedUp = some chip.qry) : ∃ qry, chip.FixedTo qry :=
  ⟨_, fixed, rfl, rfl, List.Perm.refl _⟩

lemma Chip.fixedUp_some (less : chip.qry.numEraseRegions.toNat ≤ numRegions)
    (looked : chip.qry.numEraseRegions = 0 → ¬ (chip.manufacturerId = 0x001f ∧ chip.atmelTop)) :
    ∃ qry, chip.FixedTo qry := by
  have pos_of_more (more : 1 < chip.qry.numEraseRegions) : 0 < chip.qry.numEraseRegions.toNat :=
    lt_trans Nat.zero_lt_one (UInt8.lt_iff_toNat_lt.mp more)
  by_cases amd : chip.manufacturerId = 0x0001
  · have fixed : chip.fixedUp = flashFixupAmd chip := if_pos amd
    rw [flashFixupAmd] at fixed
    split at fixed
    · exact fixedTo_reversed (pos_of_more (And.left ‹_›)) less fixed
    · exact chip.fixedTo_same fixed
  by_cases atmel : chip.manufacturerId = 0x001f
  · have fixed : chip.fixedUp = flashFixupAtmel chip := (if_neg amd).trans (if_pos atmel)
    rw [flashFixupAtmel] at fixed
    split at fixed
    · refine fixedTo_reversed (pos_of_ne_zero fun zero => ?_) less fixed
      exact looked (UInt8.toNat_inj.mp zero) ⟨atmel, ‹_›⟩
    · exact chip.fixedTo_same fixed
  · by_cases stm : chip.manufacturerId = 0x0020
    · have fixed : chip.fixedUp = flashFixupStm chip :=
        (if_neg amd).trans ((if_neg atmel).trans (if_pos stm))
      rw [flashFixupStm] at fixed
      split at fixed
      · exact fixedTo_reversed (pos_of_more (And.left ‹_›)) less fixed
      · exact chip.fixedTo_same fixed
    · exact chip.fixedTo_same ((if_neg amd).trans ((if_neg atmel).trans (if_neg stm)))

lemma Chip.fixedUp_none (zero : chip.qry.numEraseRegions = 0)
    (atmel : chip.manufacturerId = 0x001f) (top : chip.atmelTop) : chip.fixedUp = none := by
  have amd : chip.manufacturerId ≠ 0x0001 := by
    rw [atmel]
    decide
  have fixed : chip.fixedUp = flashFixupAtmel chip := (if_neg amd).trans (if_pos atmel)
  rw [fixed, flashFixupAtmel, if_pos top]
  exact cfiReverseGeometry_none (.inr (congrArg UInt8.toNat zero))

end

/-! ## The loops -/

section
variable {maxSect : Nat} {vendor : Vendor} {chip : Chip}

def Sectors.add (maxSect : Nat) (vendor : Vendor) (chip : Chip) (t : Sectors) (length : Nat) :
    Sectors :=
  (t.put maxSect vendor chip length).getD t

lemma sectorLoop_spec (length left : Nat) (t : Sectors) :
    sectorLoop maxSect vendor chip length left t =
      some ((List.replicate left length).foldl (Sectors.add maxSect vendor chip) t) := by
  have full {t : Sectors} (all : maxSect ≤ t.sectCnt) (left : Nat) :
      (List.replicate left length).foldl (Sectors.add maxSect vendor chip) t = t := by
    have stays : t.add maxSect vendor chip length = t := by
      rw [Sectors.add, Sectors.put, if_neg (not_lt.mpr all)]
      rfl
    induction left with
    | zero => rfl
    | succ left ih => rw [List.replicate_succ, List.foldl_cons, stays, ih]
  induction left generalizing t with
  | zero => rfl
  | succ left ih =>
    rw [sectorLoop]
    by_cases all : maxSect ≤ t.sectCnt
    · rw [if_pos all, full all]
    · rw [if_neg all, List.replicate_succ, List.foldl_cons, Sectors.add, Sectors.put,
        if_pos (not_le.mp all)]
      exact ih _

def lengthsFrom (chip : Chip) (regions : Nat → UInt32) (left i : Nat) : List Nat :=
  (List.range' i left).flatMap fun i =>
    List.replicate (eraseRegionCount (regions i)) (eraseRegionSize (regions i) * chip.sizeRatio)

lemma regionLoop_spec (regions : Nat → UInt32) {left i : Nat} (inside : i + left ≤ numRegions)
    (t : Sectors) :
    regionLoop maxSect vendor chip regions left i t =
      some ((lengthsFrom chip regions left i).foldl (Sectors.add maxSect vendor chip) t) := by
  induction left generalizing i t with
  | zero => rfl
  | succ left ih =>
    rw [regionLoop, if_neg (by omega), if_pos (by omega), sectorLoop_spec, Option.bind_some,
      ih (by omega), lengthsFrom, lengthsFrom, List.range'_succ, List.flatMap_cons,
      List.foldl_append]

lemma regionLoop_none (regions : Nat → UInt32) {left i : Nat} (inside : i ≤ numRegions)
    (more : numRegions < i + left) (t : Sectors) :
    regionLoop maxSect vendor chip regions left i t = none := by
  induction left generalizing i t with
  | zero => omega
  | succ left ih =>
    rw [regionLoop, if_neg (not_lt.mpr inside)]
    by_cases less : i < numRegions
    · rw [if_pos less, sectorLoop_spec, Option.bind_some]
      exact ih less (by omega) _
    · rw [if_neg less]

end

/-! ## The entries -/

variable {t : Sectors}

section
variable {maxSect : Nat} {vendor : Vendor} {chip : Chip}

lemma lengthsFrom_zero (qry : CfiQry) :
    lengthsFrom chip qry.eraseRegionInfo qry.numEraseRegions.toNat 0 =
      qry.lengths.map (· * chip.sizeRatio) := by
  rw [lengthsFrom, CfiQry.lengths, List.map_flatMap, List.range_eq_range']
  refine List.flatMap_congr fun i _ => ?_
  rw [List.map_replicate]

/-- Each sector begins where those in front of it end, as far as an address can say it. -/
structure Sectors.Follows (t : Sectors) (base : UInt32) (lengths : List Nat) : Prop where
  count : t.sectCnt = lengths.length
  sector : t.sector.toNat = (base.toNat + lengths.sum) % 0x100000000
  start : ∀ i < lengths.length,
    (t.start i).toNat = (base.toNat + (lengths.take i).sum) % 0x100000000

lemma Sectors.Follows.add {base : UInt32} {lengths : List Nat} (follows : t.Follows base lengths)
    {length : Nat} (room : lengths.length < maxSect) :
    (t.add maxSect vendor chip length).Follows base (lengths ++ [length]) := by
  rw [Sectors.add, Sectors.put, if_pos (by rw [follows.count]; exact room), Option.getD_some]
  refine ⟨?_, ?_, fun i inside => ?_⟩
  · rw [List.length_append, List.length_singleton, ← follows.count]
  · have before := follows.sector
    have step : (UInt32.ofNat length).toNat = length % 0x100000000 := UInt32.toNat_ofNat'
    rw [UInt32.toNat_add, before, step, List.sum_append, List.sum_singleton]
    omega
  · rw [List.length_append, List.length_singleton] at inside
    dsimp only
    rw [follows.count]
    by_cases last : i = lengths.length
    · rw [if_pos last, last, List.take_left, follows.sector]
    · rw [if_neg last, follows.start i (by omega), List.take_append_of_le_length (by omega)]

lemma Sectors.Follows.foldl {base : UInt32} {before : List Nat} (follows : t.Follows base before)
    (lengths : List Nat) (room : before.length + lengths.length ≤ maxSect) :
    (lengths.foldl (Sectors.add maxSect vendor chip) t).Follows base (before ++ lengths) := by
  induction lengths generalizing t before with
  | nil =>
    rw [List.append_nil]
    exact follows
  | cons length lengths ih =>
    rw [List.length_cons] at room
    rw [List.foldl_cons, List.append_cons]
    exact ih (follows.add (by omega)) (by
      rw [List.length_append, List.length_singleton]
      omega)

lemma sum_take_succ {lengths : List Nat} {i : Nat} (inside : i < lengths.length) :
    (lengths.take (i + 1)).sum = (lengths.take i).sum + lengths[i] := by
  rw [List.take_succ_eq_append_getElem inside, List.sum_append, List.sum_singleton]

lemma sum_take_le (lengths : List Nat) {i j : Nat} (le : i ≤ j) :
    (lengths.take i).sum ≤ (lengths.take j).sum := by
  obtain ⟨k, rfl⟩ := Nat.exists_eq_add_of_le le
  rw [List.take_add, List.sum_append]
  exact Nat.le_add_right _ _

lemma describes_iff {base : UInt32} {lengths : List Nat} (follows : t.Follows base lengths)
    (nonempty : lengths ≠ []) (size flashId : UInt32) (protect : Nat → UInt8) :
    (⟨size, UInt16.ofNat t.sectCnt, flashId, t.start, protect⟩ : Bank).Describes base lengths ↔
      (∀ length ∈ lengths, 0 < length) ∧ lengths.length < 0x10000 ∧ size.toNat = lengths.sum ∧
        base.toNat + lengths.sum ≤ 0x100000000 := by
  have pos := List.length_pos_iff.mpr nonempty
  have low := base.toNat_lt
  have first : (t.start 0).toNat = base.toNat := by
    rw [follows.start 0 pos, List.take_zero, List.sum_nil, add_zero]
    exact Nat.mod_eq_of_lt low
  have all :
      (lengths.take (lengths.length - 1)).sum + lengths[lengths.length - 1] = lengths.sum := by
    rw [← sum_take_succ, Nat.sub_add_cancel pos, List.take_length]
  constructor
  · intro describes
    have count := describes.count
    have less : lengths.length < 0x10000 := by
      rw [← count]
      exact UInt16.toNat_lt _
    have ends (i : Nat) (inside : i < lengths.length) :
        (t.start i).toNat + lengths[i] =
          if i + 1 = lengths.length then base.toNat + size.toNat else (t.start (i + 1)).toNat := by
      have := describes.lengths i inside
      rwa [Bank.sectorStop, count, Bank.stop, first] at this
    have begins (i : Nat) (inside : i < lengths.length) :
        (t.start i).toNat = base.toNat + (lengths.take i).sum := by
      induction i with
      | zero =>
        rw [first, List.take_zero, List.sum_nil, add_zero]
      | succ i ih =>
        have before := ends i (by omega)
        rw [if_neg (by omega), ih (by omega)] at before
        rw [sum_take_succ (by omega)]
        omega
    have last := ends (lengths.length - 1) (by omega)
    rw [if_pos (by omega), begins _ (by omega)] at last
    have fits := describes.tiled.fits
    rw [Bank.stop, first] at fits
    refine ⟨fun length member => ?_, less, by omega, ?_⟩
    · obtain ⟨i, inside, rfl⟩ := List.mem_iff_getElem.mp member
      have length := describes.lengths i inside
      have longer := describes.tiled.sectors i (by rw [count]; exact inside)
      omega
    · change base.toNat + size.toNat ≤ _ at fits
      omega
  · rintro ⟨positive, less, whole, fits⟩
    have count : (UInt16.ofNat t.sectCnt).toNat = lengths.length := by
      rw [follows.count]
      exact UInt16.toNat_ofNat_of_lt' less
    have begins (i : Nat) (inside : i < lengths.length) :
        (t.start i).toNat = base.toNat + (lengths.take i).sum := by
      have before := sum_take_succ inside
      have within := sum_take_le lengths (show i + 1 ≤ lengths.length from inside)
      have longer := positive _ (List.getElem_mem inside)
      rw [List.take_length] at within
      rw [follows.start i inside]
      exact Nat.mod_eq_of_lt (by omega)
    have ends (i : Nat) (inside : i < lengths.length) :
        (t.start i).toNat + lengths[i] =
          (⟨size, UInt16.ofNat t.sectCnt, flashId, t.start, protect⟩ : Bank).sectorStop i := by
      rw [Bank.sectorStop, count, Bank.stop]
      by_cases last : i + 1 = lengths.length
      · obtain rfl : i = lengths.length - 1 := by omega
        rw [if_pos last, begins _ inside, first, whole]
        omega
      · rw [if_neg last, begins _ inside, begins _ (by omega), sum_take_succ inside]
        omega
    refine ⟨⟨?_, fun i inside => ?_, ?_⟩, UInt32.toNat_inj.mp first, count, ends⟩
    · rw [count]
      exact pos
    · rw [count] at inside
      have longer := positive _ (List.getElem_mem inside)
      rw [← ends i inside]
      exact Nat.lt_add_of_pos_right longer
    · rw [Bank.stop, first, whole]
      exact fits

end

/-! ## The call -/

section
variable {maxSect : Nat} {base : UInt32} {chip : Chip} {info : FlashInfo}

lemma sum_map_mul (lengths : List Nat) (ratio : Nat) :
    (lengths.map (· * ratio)).sum = lengths.sum * ratio := by
  induction lengths with
  | nil => exact (zero_mul ratio).symm
  | cons length lengths ih => rw [List.map_cons, List.sum_cons, List.sum_cons, ih, add_mul]

lemma eraseRegionSize_pos (tmp : UInt32) : 0 < eraseRegionSize tmp := by
  rw [eraseRegionSize]
  split
  · omega
  · decide

lemma CfiQry.lengths_pos {qry : CfiQry} {length : Nat} (member : length ∈ qry.lengths) :
    0 < length := by
  obtain ⟨i, -, there⟩ := List.mem_flatMap.mp member
  rw [List.eq_of_mem_replicate there]
  exact eraseRegionSize_pos _

lemma Chip.sizeRatio_le (chip : Chip) : chip.sizeRatio ≤ 8 := by
  have port : chip.portwidth ≤ 8 := by
    rw [Chip.portwidth]
    exact Nat.pow_le_pow_right (by decide) (Nat.le_of_lt_succ chip.portShift.isLt)
  have ratio := Nat.div_le_self chip.portwidth chip.chipwidth
  rw [Chip.sizeRatio]
  split
  · omega
  · omega

lemma oneShl_toNat {n : Nat} (less : n < 32) : (oneShl n).toNat = 2 ^ n := by
  have whole : n % 256 = n := Nat.mod_eq_of_lt (by omega)
  have shift : (UInt32.ofNat n).toNat = n := UInt32.toNat_ofNat_of_lt' (by
    change n < 4294967296
    omega)
  have small : 2 ^ n < 4294967296 := Nat.pow_lt_pow_right (by decide) less
  rw [oneShl, whole, if_pos less, UInt32.toNat_shiftLeft, shift, Nat.mod_eq_of_lt less]
  change 1 <<< n % 4294967296 = _
  rw [Nat.one_shiftLeft, Nat.mod_eq_of_lt small]

lemma size_iff (devSize : UInt8) {ratio : Nat} (pos : 0 < ratio) (le : ratio ≤ 8) :
    (oneShl devSize.toNat * UInt32.ofNat ratio).toNat = 2 ^ devSize.toNat * ratio ↔
      2 ^ devSize.toNat * ratio < 0x100000000 := by
  have small : (UInt32.ofNat ratio).toNat = ratio := UInt32.toNat_ofNat_of_lt' (by
    change ratio < 4294967296
    omega)
  constructor
  · intro same
    rw [← same]
    exact UInt32.toNat_lt _
  · intro fits
    have less : devSize.toNat < 32 := by
      refine not_le.mp fun more => ?_
      have large : 2 ^ 32 ≤ 2 ^ devSize.toNat := Nat.pow_le_pow_right (Nat.succ_pos 1) more
      have := Nat.le_mul_of_pos_right (2 ^ devSize.toNat) pos
      omega
    rw [UInt32.toNat_mul, oneShl_toNat less, small]
    exact Nat.mod_eq_of_lt fits

lemma describes_chip_iff (consistent : chip.qry.Consistent maxSect) {qry : CfiQry}
    (fixedTo : chip.FixedTo qry) (follows : t.Follows base (qry.lengths.map (· * chip.sizeRatio)))
    (flashId : UInt32) (protect : Nat → UInt8) :
    (⟨oneShl qry.devSize.toNat * UInt32.ofNat chip.sizeRatio, UInt16.ofNat t.sectCnt, flashId,
        t.start, protect⟩ : Bank).Describes base (qry.lengths.map (· * chip.sizeRatio)) ↔
      0 < chip.sizeRatio ∧ chip.qry.lengths.length < 0x10000 ∧
        2 ^ chip.qry.devSize.toNat * chip.sizeRatio < 0x100000000 ∧
        base.toNat + 2 ^ chip.qry.devSize.toNat * chip.sizeRatio ≤ 0x100000000 := by
  have sum : (qry.lengths.map (· * chip.sizeRatio)).sum =
      2 ^ chip.qry.devSize.toNat * chip.sizeRatio := by
    rw [sum_map_mul, fixedTo.lengths.sum_nat, consistent.whole]
  have some_length : ∃ length, length ∈ qry.lengths := by
    refine List.exists_mem_of_ne_nil _ fun empty => ?_
    have whole := fixedTo.lengths.sum_nat.trans consistent.whole
    rw [empty] at whole
    exact absurd whole (ne_of_lt (Nat.two_pow_pos _))
  obtain ⟨length, member⟩ := some_length
  have positive : (∀ step ∈ qry.lengths.map (· * chip.sizeRatio), 0 < step) ↔
      0 < chip.sizeRatio := by
    constructor
    · intro steps
      exact Nat.pos_of_mul_pos_left (steps _ (List.mem_map_of_mem member))
    · intro pos step inside
      obtain ⟨length, there, rfl⟩ := List.mem_map.mp inside
      exact mul_pos (qry.lengths_pos there) pos
  rw [describes_iff follows (List.ne_nil_of_mem (List.mem_map_of_mem member)), positive, sum,
    List.length_map, fixedTo.lengths.length_eq, fixedTo.devSize]
  refine and_congr_right fun pos => ?_
  rw [size_iff _ pos chip.sizeRatio_le]

end

section
variable {maxSect : Nat} {base : UInt32} {chip : Chip} {info : FlashInfo}

lemma flashGetSize_none {vendor : Vendor} (known : vendorOf chip.qry.pId = some vendor)
    (outside : numRegions < chip.qry.numEraseRegions.toNat ∨
      chip.qry.numEraseRegions = 0 ∧ chip.manufacturerId = 0x001f ∧ chip.atmelTop) :
    flashGetSize maxSect base chip info = none := by
  rw [flashGetSize, known]
  dsimp only
  split
  · rcases outside with more | ⟨zero, atmel, top⟩
    · cases chip.fixedUp with
      | none => rfl
      | some qry =>
        rw [Option.bind_some, regionLoop_none qry.eraseRegionInfo (Nat.zero_le _) (by omega)]
        rfl
    · rw [chip.fixedUp_none zero atmel top]
      rfl
  · rfl

lemma right_iff_of_fixedTo {vendor : Vendor} (table : 0 < maxSect)
    (known : vendorOf chip.qry.pId = some vendor)
    (less : chip.qry.numEraseRegions.toNat ≤ numRegions) {qry : CfiQry}
    (fixedTo : chip.FixedTo qry) :
    GetSizeRight maxSect base chip info ↔ (chip.qry.Consistent maxSect →
      0 < chip.sizeRatio ∧ chip.qry.lengths.length < 0x10000 ∧
        2 ^ chip.qry.devSize.toNat * chip.sizeRatio < 0x100000000 ∧
        base.toNat + 2 ^ chip.qry.devSize.toNat * chip.sizeRatio ≤ 0x100000000) := by
  have lengths := @lengthsFrom_zero chip qry
  rw [fixedTo.count] at lengths
  have loops (t : Sectors) := @regionLoop_spec maxSect vendor chip qry.eraseRegionInfo
    chip.qry.numEraseRegions.toNat 0 (by omega) t
  rw [lengths] at loops
  have result : ∃ (value : UInt32) (info' : FlashInfo) (t : Sectors),
      flashGetSize maxSect base chip info = some (value, info') ∧
      info'.toBank = ⟨oneShl qry.devSize.toNat * UInt32.ofNat chip.sizeRatio,
        UInt16.ofNat t.sectCnt, 0x01000000, t.start, t.protect⟩ ∧
      (chip.qry.Consistent maxSect → t.Follows base (qry.lengths.map (· * chip.sizeRatio))) := by
    rw [flashGetSize, if_pos table, known]
    dsimp only
    rw [fixedTo.fixed, Option.bind_some, loops]
    refine ⟨_, _, _, rfl, rfl, fun consistent => ?_⟩
    have nothing : Sectors.Follows ⟨0, base, fun i => if i = 0 then base else info.start i,
        info.protect⟩ base [] :=
      ⟨rfl, (Nat.mod_eq_of_lt base.toNat_lt).symm,
        fun i inside => absurd inside (Nat.not_lt_zero i)⟩
    refine nothing.foldl _ ?_
    rw [List.length_nil, zero_add, List.length_map, fixedTo.lengths.length_eq]
    exact consistent.fits
  obtain ⟨value, info', t, returned, bank, follows⟩ := result
  have accepted : vendorOf chip.qry.pId ≠ none := known ▸ Option.some_ne_none vendor
  constructor
  · rintro ⟨value', info'', returned', described⟩ consistent
    obtain ⟨rfl, rfl⟩ := Prod.mk.inj (Option.some.inj (returned'.symm.trans returned))
    obtain ⟨qry', fixed, describes⟩ := described accepted consistent
    obtain rfl := Option.some.inj (fixed.symm.trans fixedTo.fixed)
    rw [bank] at describes
    exact (describes_chip_iff consistent fixedTo (follows consistent) _ _).mp describes
  · intro fits
    refine ⟨value, info', returned, fun _ consistent => ⟨qry, fixedTo.fixed, ?_⟩⟩
    rw [bank]
    exact (describes_chip_iff consistent fixedTo (follows consistent) _ _).mpr (fits consistent)

end

/-- For every chip that answers: the call stays inside the tables and describes a consistent chip
that it accepts if and only if the condition holds. -/
theorem flash_get_size_right_iff (maxSect : Nat) (base : UInt32) (chip : Chip) (info : FlashInfo) :
    GetSizeRight maxSect base chip info ↔ GetSizeMeets maxSect base chip := by
  by_cases table : 0 < maxSect
  · cases known : vendorOf chip.qry.pId with
    | none =>
      have refused (accepted : vendorOf chip.qry.pId ≠ none) : False := accepted known
      refine iff_of_true ?_ ⟨table, fun accepted => (refused accepted).elim,
        fun accepted => (refused accepted).elim, fun accepted => (refused accepted).elim⟩
      refine ⟨0, { info with start := fun i => if i = 0 then base else info.start i }, ?_,
        fun accepted => (refused accepted).elim⟩
      rw [flashGetSize, if_pos table, known]
    | some vendor =>
      have accepted : vendorOf chip.qry.pId ≠ none := known ▸ Option.some_ne_none vendor
      by_cases outside : numRegions < chip.qry.numEraseRegions.toNat ∨
          chip.qry.numEraseRegions = 0 ∧ chip.manufacturerId = 0x001f ∧ chip.atmelTop
      · refine iff_of_false ?_ fun meets => ?_
        · rintro ⟨value, info', returned, -⟩
          rw [flashGetSize_none known outside] at returned
          cases returned
        · rcases outside with more | ⟨zero, atmel⟩
          · exact absurd (meets.regions accepted) (Nat.not_le.mpr more)
          · exact meets.reversed accepted zero atmel
      · rw [not_or, Nat.not_lt, not_and] at outside
        obtain ⟨qry, fixedTo⟩ := chip.fixedUp_some outside.1 outside.2
        rw [right_iff_of_fixedTo table known outside.1 fixedTo]
        exact ⟨fun fits => ⟨table, fun _ => outside.1, fun _ => outside.2, fun _ => fits⟩,
          fun meets => meets.fits accepted⟩
  · refine iff_of_false ?_ fun meets => table meets.table
    rintro ⟨value, info', returned, -⟩
    rw [flashGetSize, if_neg table] at returned
    cases returned

/-- A chip of the AMD command set with an 8-bit port, whose regions have four sectors of 64 KiB
each. -/
def byteChip (interfaceDesc : UInt16) (numEraseRegions : UInt8) : Chip where
  qry := {
    pId := 2
    pAdr := 0
    interfaceDesc
    maxBufWriteSize := 0
    devSize := 18
    wordWriteTimeoutTyp := 0
    wordWriteTimeoutMax := 0
    bufWriteTimeoutTyp := 0
    bufWriteTimeoutMax := 0
    blockEraseTimeoutTyp := 0
    blockEraseTimeoutMax := 0
    numEraseRegions
    eraseRegionInfo := fun _ => 0x01000003 }
  portShift := 0
  chipShift := 0
  chip_le := Nat.le_refl 0
  manufacturerId := 0x04
  deviceId := 0
  readUchar := fun _ => 0
  isset := fun _ => 0

def blankInfo : FlashInfo := ⟨⟨0, 0, 0, fun _ => 0, fun _ => 0⟩, 0, 0, 0, 0, 0⟩

/-- The fifth of five regions is read from behind the four entries, and an x8/x16 chip on an 8-bit
port has sectors that all begin at the base. -/
theorem fifth_region_read :
    flashGetSize 128 0 (byteChip 0 5) blankInfo = none ∧
      ¬ GetSizeRight 128 0 (byteChip 0 5) blankInfo ∧
      (byteChip 2 1).qry.Consistent 128 ∧ ¬ GetSizeRight 128 0 (byteChip 2 1) blankInfo := by
  have read : flashGetSize 128 0 (byteChip 0 5) blankInfo = none :=
    @flashGetSize_none _ _ _ _ .amdStandard rfl (.inl (by decide))
  have consistent : (byteChip 2 1).qry.Consistent 128 := ⟨by decide, by decide, by decide⟩
  refine ⟨read, ?_, consistent, fun right => ?_⟩
  · rintro ⟨value, info', returned, -⟩
    rw [read] at returned
    cases returned
  · have fixedTo : (byteChip 2 1).FixedTo (byteChip 2 1).qry := ⟨rfl, rfl, rfl, List.Perm.refl _⟩
    have fits := (@right_iff_of_fixedTo _ _ _ _ .amdStandard (by decide) rfl (by decide) _
      fixedTo).mp right consistent
    exact absurd fits.1 (by decide)

end FlashBanks
