import UBoot.Mtd.CurrentPart

/-!
# Partitions stay on the device (common/cmd_mtdparts.c)

`part_validate` keeps every partition on its device, whatever wrapped before. What the text says is
another matter: a number past 32 bits is read as its remainder, and the partition that the text
defines need not fit although the one that is read does.
-/

namespace Mtdparts

open NumberText

lemma shiftLeft_ten (a : UInt32) : (a <<< 10).toNat = a.toNat * 1024 % 4294967296 := by
  have hten : (10 : UInt32).toNat % 32 = 10 := rfl
  rw [UInt32.toNat_shiftLeft, hten, Nat.shiftLeft_eq]

lemma partValidate_ok_iff {flash : DevType → UInt8 → Option MtdInfo} {id : MtdId}
    {part part' : Part} : partValidate flash id part = .ok part' ↔
      part' = filled id part ∧ ¬ id.size < part'.offset ∧
      ¬ part'.offset + part'.size ≤ part'.offset ∧ ¬ id.size < part'.offset + part'.size ∧
      partValidateEraseblock flash id part' = .ok () := by
  simp only [partValidate]
  generalize filled id part = q
  constructor
  · intro h
    split_ifs at h with hbeyond hbig hexceeds
    cases hblock : partValidateEraseblock flash id q with
    | error e => simp [hblock] at h
    | ok u =>
      rw [hblock] at h
      obtain rfl : q = part' := Except.ok.inj h
      exact ⟨rfl, hbeyond, hbig, hexceeds, hblock⟩
  · rintro ⟨rfl, hbeyond, hbig, hexceeds, hblock⟩
    rw [if_neg hbeyond, if_neg hbig, if_neg hexceeds, hblock]

/-- `memsize_parse` without the width of its value. -/
def memsizeValue (ptr : Text) : Nat :=
  match (simpleStrtoul ptr 0).2 with
  | [] => strtoulValue ptr 0
  | c :: _ =>
    if c = 71 ∨ c = 103 then strtoulValue ptr 0 * 1024 * 1024 * 1024
    else if c = 77 ∨ c = 109 then strtoulValue ptr 0 * 1024 * 1024
    else if c = 75 ∨ c = 107 then strtoulValue ptr 0 * 1024
    else strtoulValue ptr 0

structure Definition where
  size : Option Nat
  offset : Option Nat

def sizeNumber (partdef : Text) : Option Nat :=
  match partdef with
  | 45 :: _ => none
  | p => some (memsizeValue p)

def offsetNumber (p : Text) : Option Nat :=
  match p with
  | 64 :: p => some (memsizeValue p)
  | _ => none

def definition (partdef : Text) : Definition :=
  match parseSize partdef with
  | .error _ => ⟨sizeNumber partdef, none⟩
  | .ok (_, p) => ⟨sizeNumber partdef, offsetNumber p⟩

/-- The definitions of a device, one after the other as the loop of `device_parse` goes. -/
def definitions : Nat → Text → List Definition
  | 0, _ => []
  | fuel + 1, p =>
    match p with
    | [] => []
    | 59 :: _ => []
    | p => definition p :: match partParse p with
      | .error _ => []
      | .ok (_, p) => definitions fuel p

def deviceDefinitions (mtdDev : Text) : List Definition :=
  match splitAt 58 mtdDev with
  | none => []
  | some (_, p) => definitions (p.length + 1) p

structure Definition.Narrow (d : Definition) : Prop where
  size : ∀ n ∈ d.size, n < 2 ^ 32
  offset : ∀ n ∈ d.offset, n < 2 ^ 32

/-- `SIZE_REMAINING` and `OFFSET_NOT_SPECIFIED` are numbers that give nothing. -/
def given (number : Option Nat) : Option Nat := number.filter (· ≠ 2 ^ 32 - 1)

structure Place where
  offset : Nat
  size : Nat

/-- A definition without an offset starts where the last partition ended, one without a size goes up
to the end of the device. -/
def Definition.place (deviceSize running : Nat) (d : Definition) : Place where
  offset := (given d.offset).getD running
  size := (given d.size).getD (deviceSize - (given d.offset).getD running)

def placements (deviceSize : Nat) : Nat → List Definition → List Place
  | _, [] => []
  | running, d :: ds =>
    let place := d.place deviceSize running
    place :: placements deviceSize (place.offset + place.size) ds

def Part.place (part : Part) : Place := ⟨part.offset.toNat, part.size.toNat⟩

structure Fits (deviceSize erasesize : Nat) (place : Place) : Prop where
  positive : 0 < place.size
  inside : place.offset + place.size ≤ deviceSize
  start : erasesize ∣ place.offset
  length : erasesize ∣ place.size

section
variable {flash : DevType → UInt8 → Option MtdInfo} {id : MtdId} {mtd : MtdInfo} {part part' : Part}

lemma dvd_of_mod {a b : UInt32} (divides : a % b = 0) : b.toNat ∣ a.toNat := by
  have mod := congrArg UInt32.toNat divides
  rw [UInt32.toNat_mod] at mod
  exact Nat.dvd_of_mod_eq_zero mod

lemma partValidateEraseblock_uniform (flashed : flash id.type id.num = some mtd)
    (uniform : mtd.eraseregions = [])
    (ok : partValidateEraseblock flash id part = .ok ()) :
    mtd.erasesize.toNat ∣ part.offset.toNat ∧ mtd.erasesize.toNat ∣ part.size.toNat := by
  rw [partValidateEraseblock, flashed] at ok
  dsimp only at ok
  rw [uniform] at ok
  dsimp only [List.getLast?_nil] at ok
  split_ifs at ok with start length
  exact ⟨dvd_of_mod (not_not.mp start), dvd_of_mod (not_not.mp length)⟩

lemma sum_of_not_le {offset size : UInt32} (above : ¬ offset + size ≤ offset) :
    0 < size.toNat ∧ (offset + size).toNat = offset.toNat + size.toNat := by
  rw [UInt32.le_iff_toNat_le, UInt32.toNat_add] at above
  rw [UInt32.toNat_add]
  have sizeBound : size.toNat < 2 ^ 32 := size.toNat_lt
  omega

lemma partValidate_fits (flashed : flash id.type id.num = some mtd)
    (uniform : mtd.eraseregions = []) (ok : partValidate flash id part = .ok part') :
    Fits id.size.toNat mtd.erasesize.toNat part'.place ∧
      (part'.offset + part'.size).toNat = part'.place.offset + part'.place.size := by
  obtain ⟨-, -, notBig, notExceeds, block⟩ := partValidate_ok_iff.mp ok
  obtain ⟨positive, sum⟩ := sum_of_not_le notBig
  obtain ⟨start, length⟩ := partValidateEraseblock_uniform flashed uniform block
  rw [UInt32.lt_iff_toNat_lt, sum, not_lt] at notExceeds
  exact ⟨⟨positive, notExceeds, start, length⟩, sum⟩

end

variable {p : Text}

lemma memsizeParse_value (ptr : Text) :
    (memsizeParse ptr).1 = UInt32.ofNat (memsizeValue ptr) := by
  have value := simpleStrtoul_value ptr 0
  have shift (n : Nat) : UInt32.ofNat n <<< 10 = UInt32.ofNat (n * 1024) := by
    rw [← UInt32.toNat_inj, shiftLeft_ten, UInt32.toNat_ofNat', UInt32.toNat_ofNat']
    omega
  rw [memsizeParse, memsizeValue]
  generalize simpleStrtoul ptr 0 = read at value ⊢
  obtain ⟨ret, retptr⟩ := read
  subst value
  cases retptr with
  | nil => rfl
  | cons c more =>
    dsimp only
    split_ifs
    · rw [shift, shift, shift]
    · rw [shift, shift]
    · exact shift _
    · rfl

def kept (number : Option Nat) : UInt32 := number.elim 0xFFFFFFFF UInt32.ofNat

lemma parseSize_kept {partdef : Text} {size : UInt32} (ok : parseSize partdef = .ok (size, p)) :
    size = kept (sizeNumber partdef) := by
  revert ok
  fun_cases sizeNumber partdef with
  | case1 p =>
    intro ok
    exact (Prod.mk.inj (Except.ok.inj ok)).1.symm
  | case2 partdef notDash =>
    rw [parseSize]
    · intro ok
      dsimp only at ok
      split_ifs at ok
      exact (Prod.mk.inj (Except.ok.inj ok)).1.symm.trans (memsizeParse_value partdef)
    · exact notDash

lemma parseOffset_kept (p : Text) : (parseOffset p).1 = kept (offsetNumber p) := by
  fun_cases offsetNumber p with
  | case1 p => exact memsizeParse_value p
  | case2 p notAt =>
    rw [parseOffset]
    · rfl
    · exact notAt

lemma partParse_kept {partdef : Text} {part : Part} (ok : partParse partdef = .ok (part, p)) :
    part.size = kept (definition partdef).size ∧
      part.offset = kept (definition partdef).offset := by
  rw [partParse] at ok
  cases sized : parseSize partdef with
  | error e =>
    rw [sized] at ok
    cases ok
  | ok read =>
    obtain ⟨size, behind⟩ := read
    have sizeKept := parseSize_kept sized
    have offsetKept := parseOffset_kept behind
    rw [sized] at ok
    rw [definition, sized]
    dsimp only [bind, Except.bind] at ok ⊢
    rw [← sizeKept, ← offsetKept]
    cases named : parseName (parseOffset behind).2 with
    | error e =>
      rw [named] at ok
      cases ok
    | ok name =>
      obtain ⟨name, flags⟩ := name
      rw [named] at ok
      dsimp only at ok
      split at ok
      · split_ifs at ok
        cases ok
        cases name <;> exact ⟨rfl, rfl⟩
      · cases ok
        cases name <;> exact ⟨rfl, rfl⟩
      · cases ok
        cases name <;> exact ⟨rfl, rfl⟩
      · cases ok

variable {result : List Part × Text}

def placed (running : UInt32) (part : Part) : Part :=
  if part.offset = offsetNotSpecified then { part with offset := running } else part

section
variable {flash : DevType → UInt8 → Option MtdInfo} {id : MtdId} {mtd : MtdInfo}
variable {fuel : Nat} {p rest : Text} {running : UInt32} {parts : List Part}

inductive Turn (flash : DevType → UInt8 → Option MtdInfo) (id : MtdId) (fuel : Nat) (p : Text)
    (running : UInt32) (parts : List Part) (result : List Part × Text) : Prop where
  | stop (nothing : definitions (fuel + 1) p = []) (same : result.1 = parts)
  | next {part valid : Part} {rest : Text}
      (parsed : partParse p = .ok (part, rest))
      (checked : partValidate flash id (placed running part) = .ok valid)
      (defined : definitions (fuel + 1) p = definition p :: definitions fuel rest)
      (goes : partsLoop flash id fuel rest (valid.offset + valid.size) (parts ++ [valid]) =
        .ok result)

lemma partsLoop_turn (ok : partsLoop flash id (fuel + 1) p running parts = .ok result) :
    Turn flash id fuel p running parts result := by
  rw [partsLoop.eq_def] at ok
  dsimp only at ok
  split at ok
  · cases ok
    exact .stop rfl rfl
  · cases ok
    exact .stop rfl rfl
  · rename_i notEmpty notSemicolon
    split at ok
    · cases ok
    rename_i part rest parsed
    split at ok
    · cases ok
    rename_i valid checked
    refine .next parsed checked ?_ ok
    rw [definitions, parsed]
    · exact notEmpty
    · exact notSemicolon

end

variable {flash : DevType → UInt8 → Option MtdInfo} {running : UInt32} {parts : List Part}

lemma partsLoop_fits {id : MtdId} {mtd : MtdInfo} (flashed : flash id.type id.num = some mtd)
    (uniform : mtd.eraseregions = []) {fuel : Nat}
    (ok : partsLoop flash id fuel p running parts = .ok result)
    (before : ∀ part ∈ parts, Fits id.size.toNat mtd.erasesize.toNat part.place) :
    ∀ part ∈ result.1, Fits id.size.toNat mtd.erasesize.toNat part.place := by
  induction fuel generalizing p running parts with
  | zero => cases ok
  | succ fuel ih =>
    cases partsLoop_turn ok with
    | stop nothing same =>
      rw [same]
      exact before
    | next parsed checked defined goes =>
      refine ih goes fun part mem => ?_
      rcases List.mem_append.mp mem with mem | mem
      · exact before part mem
      · rw [List.mem_singleton.mp mem]
        exact (partValidate_fits flashed uniform checked).1

lemma given_of_narrow {number : Option Nat} (narrow : ∀ n ∈ number, n < 2 ^ 32) :
    given number = if kept number = 0xFFFFFFFF then none else some (kept number).toNat := by
  cases number with
  | none => rfl
  | some n =>
    have bound : n < 2 ^ 32 := narrow n rfl
    have same : (UInt32.ofNat n).toNat = n := UInt32.toNat_ofNat_of_lt' bound
    have last : kept (some n) = 0xFFFFFFFF ↔ n = 2 ^ 32 - 1 := by
      rw [← UInt32.toNat_inj]
      change (UInt32.ofNat n).toNat = 2 ^ 32 - 1 ↔ n = 2 ^ 32 - 1
      rw [same]
    by_cases all : n = 2 ^ 32 - 1
    · rw [if_pos (last.mpr all), given, Option.filter_some, if_neg (by simp [all])]
    · rw [if_neg (mt last.mp all), given, Option.filter_some, if_pos (by simpa using all)]
      exact congrArg some same.symm

lemma checked_place {id : MtdId} {rest : Text} {part valid : Part}
    (parsed : partParse p = .ok (part, rest))
    (checked : partValidate flash id (placed running part) = .ok valid)
    (narrow : (definition p).Narrow) :
    valid.place = (definition p).place id.size.toNat running.toNat := by
  obtain ⟨sizeKept, offsetKept⟩ := partParse_kept parsed
  obtain ⟨rfl, notBeyond, -⟩ := partValidate_ok_iff.mp checked
  have offset : (placed running part).offset.toNat =
      (given (definition p).offset).getD running.toNat := by
    rw [given_of_narrow narrow.offset, ← offsetKept, placed]
    by_cases unset : part.offset = 0xFFFFFFFF
    · rw [if_pos unset, if_pos (show part.offset = offsetNotSpecified from unset)]
      rfl
    · rw [if_neg unset, if_neg (show ¬ part.offset = offsetNotSpecified from unset)]
      rfl
  have size : (placed running part).size = part.size := by
    rw [placed]
    split_ifs
    · rfl
    · rfl
  rw [Definition.place, ← offset, given_of_narrow narrow.size, ← sizeKept, ← size]
  rw [filled] at notBeyond ⊢
  by_cases remaining : (placed running part).size = 0xFFFFFFFF
  · rw [if_pos (show (placed running part).size = sizeRemaining from remaining)] at notBeyond ⊢
    rw [if_pos remaining]
    have inside : (placed running part).offset ≤ id.size := UInt32.not_lt.mp notBeyond
    exact congrArg (Place.mk _) (UInt32.toNat_sub_of_le _ _ inside)
  · rw [if_neg (show ¬ (placed running part).size = sizeRemaining from remaining),
      if_neg remaining]
    rfl

lemma partsLoop_placements {id : MtdId} {mtd : MtdInfo} (flashed : flash id.type id.num = some mtd)
    (uniform : mtd.eraseregions = []) {fuel : Nat}
    (ok : partsLoop flash id fuel p running parts = .ok result)
    (narrow : ∀ d ∈ definitions fuel p, d.Narrow) :
    ∃ new, result.1 = parts ++ new ∧
      new.map Part.place = placements id.size.toNat running.toNat (definitions fuel p) := by
  induction fuel generalizing p running parts with
  | zero => cases ok
  | succ fuel ih =>
    cases partsLoop_turn ok with
    | stop nothing same =>
      refine ⟨[], ?_, ?_⟩
      · rw [same, List.append_nil]
      · rw [nothing]
        rfl
    | next parsed checked defined goes =>
      rename_i part valid rest
      rw [defined, List.forall_mem_cons] at narrow
      obtain ⟨new, result, places⟩ := ih goes narrow.2
      have place := checked_place parsed checked narrow.1
      have sum := (partValidate_fits flashed uniform checked).2
      refine ⟨valid :: new, ?_, ?_⟩
      · rw [result, List.append_assoc]
        rfl
      · rw [List.map_cons, places, defined, placements, sum, place]

lemma narrow_of_inside {deviceSize running : Nat} (device : deviceSize < 2 ^ 32)
    {ds : List Definition}
    (inside : ∀ place ∈ placements deviceSize running ds, place.offset + place.size ≤ deviceSize) :
    ∀ d ∈ ds, d.Narrow := by
  induction ds generalizing running with
  | nil => exact fun d mem => absurd mem List.not_mem_nil
  | cons d ds ih =>
    rw [placements, List.forall_mem_cons] at inside
    obtain ⟨here, rest⟩ := inside
    have wide {n : Nat} (large : 2 ^ 32 ≤ n) : given (some n) = some n := by
      rw [given, Option.filter_some, if_pos]
      simp only [decide_eq_true_eq]
      omega
    refine List.forall_mem_cons.mpr ⟨⟨fun n size => ?_, fun n offset => ?_⟩, ih rest⟩
    · refine not_le.mp fun large => ?_
      rw [Definition.place, Option.mem_def.mp size, wide large] at here
      dsimp only [Option.getD_some] at here
      omega
    · refine not_le.mp fun large => ?_
      rw [Definition.place, Option.mem_def.mp offset, wide large] at here
      dsimp only [Option.getD_some] at here
      omega

lemma mem_sortParts {sorted result : List Part} (ok : sortParts sorted parts = .ok result)
    (part : Part) : part ∈ result ↔ part ∈ sorted ∨ part ∈ parts := by
  induction parts generalizing sorted with
  | nil =>
    cases ok
    simp
  | cons first parts ih =>
    rw [sortParts] at ok
    cases added : partSortAdd Part.offset first sorted with
    | error e => simp [added] at ok
    | ok mid =>
      rw [added] at ok
      obtain ⟨pre, post, rfl, rfl, -⟩ := PartLists.partSortAdd_split added
      rw [ih ok]
      simp only [List.mem_append, List.mem_cons]
      tauto

structure Read (flash : DevType → UInt8 → Option MtdInfo) (devices : List Device) (mtdDev : Text)
    (dev : Device) (parts : List Part) (p rest : Text) : Prop where
  defined : deviceDefinitions mtdDev = definitions (p.length + 1) p
  loop : partsLoop flash dev.id (p.length + 1) p (firstOffset devices dev.id) [] = .ok (parts, rest)
  sort : sortParts [] parts = .ok dev.parts

lemma deviceParse_read {ids : List MtdId} {devices : List Device} {mtdDev rest : Text}
    {dev : Device} (ok : deviceParse flash ids devices mtdDev = .ok (dev, rest)) :
    ∃ parts p rest, Read flash devices mtdDev dev parts p rest := by
  rw [deviceParse] at ok
  cases named : splitAt 58 mtdDev with
  | none => simp [named] at ok
  | some name =>
    obtain ⟨mtdId, p⟩ := name
    rw [named] at ok
    dsimp only at ok
    cases found : idFindByMtdId ids mtdId with
    | none => simp [found] at ok
    | some id =>
      rw [found] at ok
      dsimp only at ok
      cases loop : partsLoop flash id (p.length + 1) p (firstOffset devices id) [] with
      | error e => simp [loop] at ok
      | ok read =>
        obtain ⟨parts, behind⟩ := read
        rw [loop] at ok
        cases parts with
        | nil => cases ok
        | cons part parts =>
          dsimp only at ok
          cases sorted : sortParts [] (part :: parts) with
          | error e => simp [sorted] at ok
          | ok result =>
            rw [sorted] at ok
            cases ok
            refine ⟨part :: parts, p, behind, ?_, loop, sorted⟩
            rw [deviceDefinitions, named]

/-- The partitions that are accepted are on the device, and so are those that the text defines if
and only if none of its numbers exceeds 32 bits. -/
theorem accepted_on_device_iff {flash : DevType → UInt8 → Option MtdInfo} {ids : List MtdId}
    {devices : List Device} {mtdDev rest : Text} {dev : Device} {mtd : MtdInfo}
    (accepted : deviceParse flash ids devices mtdDev = .ok (dev, rest))
    (flashed : flash dev.id.type dev.id.num = some mtd) (uniform : mtd.eraseregions = []) :
    ((∀ part ∈ dev.parts, Fits dev.id.size.toNat mtd.erasesize.toNat part.place) ∧
      ∀ place ∈ placements dev.id.size.toNat (firstOffset devices dev.id).toNat
        (deviceDefinitions mtdDev), place.offset + place.size ≤ dev.id.size.toNat) ↔
      ∀ d ∈ deviceDefinitions mtdDev, d.Narrow := by
  obtain ⟨parts, p, behind, read⟩ := deviceParse_read accepted
  have fits := partsLoop_fits flashed uniform read.loop fun part mem => absurd mem List.not_mem_nil
  constructor
  · exact fun both => narrow_of_inside dev.id.size.toNat_lt both.2
  · intro narrow
    rw [read.defined] at narrow ⊢
    obtain ⟨new, same, places⟩ := partsLoop_placements flashed uniform read.loop narrow
    refine ⟨fun part mem => ?_, fun place mem => ?_⟩
    · rcases (mem_sortParts read.sort part).mp mem with none | mem
      · exact absurd none List.not_mem_nil
      · exact fits part mem
    · rw [← places, List.mem_map] at mem
      obtain ⟨part, mem, rfl⟩ := mem
      rw [List.nil_append] at same
      exact (fits part (same ▸ mem)).inside

/-- A NOR flash of one MiB with erase blocks of 4 KiB. -/
def smallFlash : DevType → UInt8 → Option MtdInfo := fun _ _ => some ⟨0x100000, 0x1000, []⟩

def smallId : MtdId := ⟨.nor, 0, 0x100000, [97]⟩

def narrowText : Text := [97, 58, 54, 52, 107]

def narrowDevice : Device := ⟨smallId, [⟨autoNameText 65536 0xFFFFFFFF, true, 65536, 0, 0⟩]⟩

lemma narrowText_accepted :
    deviceParse smallFlash [smallId] [] narrowText = .ok (narrowDevice, []) := by
  rfl

theorem narrow_on_device :
    ((∀ part ∈ narrowDevice.parts, Fits 0x100000 0x1000 part.place) ∧
      ∀ place ∈ placements 0x100000 0 (deviceDefinitions narrowText),
        place.offset + place.size ≤ 0x100000) ↔
      ∀ d ∈ deviceDefinitions narrowText, d.Narrow :=
  accepted_on_device_iff narrowText_accepted
    (show smallFlash .nor 0 = some ⟨0x100000, 0x1000, []⟩ from rfl) rfl

/-- "a:4194308k": four GiB and four KiB, of which 4096 is read. -/
def wideText : Text := [97, 58, 52, 49, 57, 52, 51, 48, 56, 107]

def wideDevice : Device := ⟨smallId, [⟨autoNameText 4096 0xFFFFFFFF, true, 4096, 0, 0⟩]⟩

theorem wide_accepted :
    deviceParse smallFlash [smallId] [] wideText = .ok (wideDevice, []) ∧
      ¬ ∀ place ∈ placements 0x100000 0 (deviceDefinitions wideText),
        place.offset + place.size ≤ 0x100000 := by
  have places : placements 0x100000 0 (deviceDefinitions wideText) = [⟨0, 4294971392⟩] := by rfl
  refine ⟨by rfl, ?_⟩
  rw [places, List.forall_mem_singleton]
  decide

end Mtdparts
