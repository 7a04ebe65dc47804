import UBoot.Image.Multi
import UBoot.Monitor.Bootm

/-!
# Booting a legacy image (common/cmd_bootm.c, common/image.c)

`do_bootm` up to the call of the boot function, with the memory it leaves. All addresses are
taken to be memory. `none` is a component table that did not end.
-/

namespace Image

open Memory32 Bootm

inductive Arg where
  | dash
  | number (value : UInt32)
deriving DecidableEq

def Arg.value : Arg → UInt32
  | dash => 0
  | number value => value

/-- A `bootm` command: the environment's `verify`, `load_addr`, and the arguments. -/
structure BootCommand where
  verify : Bool
  load_addr : UInt32
  argv : Option (UInt32 × Option Arg)

def BootCommand.imgAddr (c : BootCommand) : UInt32 := (c.argv.map Prod.fst).getD c.load_addr

def BootCommand.second (c : BootCommand) : Option Arg := c.argv.bind Prod.snd

def setLoad (mem : Mem) (hdr load : UInt32) : Mem :=
  copyBytes (fun i => (BigEndian.bytes load).getD i 0) 4 0 (hdr + 16) mem

lemma setLoad_type (mem : Mem) (hdr load : UInt32) :
    (headerAt (setLoad mem hdr load) hdr).type = (headerAt mem hdr).type := by
  have typeByte (mem : Mem) : (headerAt mem hdr).type = mem (hdr + 30) := rfl
  rw [typeByte, typeByte, setLoad, copyBytes_eq _ _ _ _ _ (by omega)]
  have behind : hdr + 30 - (hdr + 16) = 14 := by grind
  rw [behind]
  exact if_neg (by decide)

def kernelPart (fuel : Nat) (mem : Mem) (hdr : UInt32) : Option (UInt32 × UInt32) :=
  let h := headerAt mem hdr
  if h.type = typeMulti then imageMultiGetimg fuel mem hdr 0
  else if h.type = typeKernel ∨ h.type = typeStandalone then some (getData hdr, h.size)
  else some (0, 0)

def standaloneLoad (mem : Mem) (c : BootCommand) : Mem :=
  match c.second with
  | some arg =>
    if (headerAt mem c.imgAddr).type = typeStandalone then setLoad mem c.imgAddr arg.value else mem
  | none => mem

/-- `boot_get_kernel`: the memory, `os_data` and `os_len`. -/
def bootGetKernel (fuel : Nat) (mem : Mem) (c : BootCommand) : Option (Mem × UInt32 × UInt32) :=
  if checkMagic mem c.imgAddr ∧ imageGetKernel mem c.imgAddr c.verify then
    (kernelPart fuel mem c.imgAddr).map fun part => (standaloneLoad mem c, part)
  else some (mem, 0, 0)

lemma standaloneLoad_type (mem : Mem) (c : BootCommand) :
    (headerAt (standaloneLoad mem c) c.imgAddr).type = (headerAt mem c.imgAddr).type := by
  unfold standaloneLoad
  split
  · split
    · exact setLoad_type mem c.imgAddr _
    · rfl
  · rfl

lemma standaloneLoad_other {mem : Mem} {c : BootCommand}
    (other : (headerAt mem c.imgAddr).type ≠ typeStandalone) : standaloneLoad mem c = mem := by
  unfold standaloneLoad
  split
  · exact if_neg other
  · rfl

/-- `image_get_ramdisk`: is the header returned? -/
def imageGetRamdisk (mem : Mem) (rd_addr : UInt32) (verify : Bool) : Bool :=
  let rd_hdr := headerAt mem rd_addr
  checkMagic mem rd_addr && checkHcrc mem rd_addr && (!verify || checkDcrc mem rd_addr) &&
    rd_hdr.os = 5 && rd_hdr.arch = 2 && rd_hdr.type = typeRamdisk

/-- `rd_data` and `rd_len` of `boot_get_ramdisk`; the inner `none` is a bad image. -/
def ramdiskPart (fuel : Nat) (mem : Mem) (c : BootCommand) : Option (Option (UInt32 × UInt32)) :=
  match c.second with
  | some .dash => some (some (0, 0))
  | some (.number rd_addr) =>
    if checkMagic mem rd_addr ∧ imageGetRamdisk mem rd_addr c.verify then
      some (some (getData rd_addr, (headerAt mem rd_addr).size))
    else some none
  | none =>
    if (headerAt mem c.imgAddr).type = typeMulti then
      (imageMultiGetimg fuel mem c.imgAddr 1).map some
    else some (some (0, 0))

/-- `boot_get_ramdisk`: `rd_start` and `rd_end`. -/
def bootGetRamdisk (fuel : Nat) (mem : Mem) (c : BootCommand) :
    Option (Option (UInt32 × UInt32)) :=
  (ramdiskPart fuel mem c).map fun part => part.map fun (rd_data, rd_len) =>
    if rd_data = 0 then (0, 0) else (rd_data, rd_data + rd_len)

/-- `gunzip`: the memory and the length, from the destination, the source and its length. -/
abbrev Gunzip := Mem → UInt32 → UInt32 → UInt32 → Option (Mem × UInt32)

def overlapResult (os : ImageInfo) (load_end : UInt32) : Int :=
  if os.load < os.stop ∧ os.start < load_end then bootmErrOverlap else 0

/-- `bootm_load_os`: its result and the memory. -/
def bootmLoadOs (gunzip : Gunzip) (mem : Mem) (os : ImageInfo) : Int × Mem :=
  if os.comp = ihCompNone then
    (overlapResult os (os.load + os.imageLen),
      if os.load = os.start then mem
      else if os.load ≠ os.imageStart then memmove os.load os.imageStart os.imageLen.toNat mem
      else mem)
  else if os.comp = ihCompGzip then
    match gunzip mem os.load os.imageStart os.imageLen with
    | none => (bootmErrReset, mem)
    | some (mem, len) => (overlapResult os (os.load + len), mem)
  else (bootmErrUnimplemented, mem)

structure Boot where
  fn : BootFn
  mem : Mem
  os : ImageInfo
  rd_start : UInt32
  rd_end : UInt32

inductive Ended where
  | refused
  | reset
  | standalone
  | wild                         -- `boot_os` has no such entry
  | boots (b : Boot)

def Ended.boot : Ended → Option Boot
  | boots b => some b
  | _ => none

def osInfo (mem : Mem) (hdr data len : UInt32) : ImageInfo :=
  let h := headerAt mem hdr
  { start := hdr, stop := hdr + 64 + h.size, imageStart := data, imageLen := len, load := h.load
    comp := h.comp.toNat, type := h.type.toNat, os := h.os.toNat }

/-- `do_bootm` from `bootm_load_os` on. An overlap is only reported. -/
def loadAndBoot (gunzip : Gunzip) (mem : Mem) (os : ImageInfo) (rd_start rd_end : UInt32) : Ended :=
  let (ret, mem) := bootmLoadOs gunzip mem os
  if ret = bootmErrReset then .reset
  else if ret = bootmErrUnimplemented then .refused
  else if os.type = ihTypeStandalone then .standalone
  else match bootOs[os.os]? with
    | none => .wild
    | some none => .refused
    | some (some fn) => .boots { fn, mem, os, rd_start, rd_end }

def doBootm (fuel : Nat) (gunzip : Gunzip) (mem : Mem) (c : BootCommand) : Option Ended :=
  (bootGetKernel fuel mem c).bind fun (mem, data, len) =>
    if len = 0 then some .refused
    else
      let os := osInfo mem c.imgAddr data len
      let ramdisk := if os.os = ihOsLinux then bootGetRamdisk fuel mem c else some (some (0, 0))
      ramdisk.map fun found =>
        match found with
        | none => .refused
        | some (rd_start, rd_end) => loadAndBoot gunzip mem os rd_start rd_end

def InRam (data len : UInt32) : Prop :=
  0x30000000 ≤ data.toNat ∧ data.toNat + len.toNat ≤ 0x34000000

/-- `[os.load, os.load + image_len)` is the kernel that was found. -/
def KernelLoaded (mem : Mem) (b : Boot) : Prop :=
  bytesAt b.mem b.os.load b.os.imageLen.toNat = bytesAt mem b.os.imageStart b.os.imageLen.toNat

def RamdiskKept (mem : Mem) (b : Boot) : Prop :=
  bytesAt b.mem b.rd_start (b.rd_end - b.rd_start).toNat =
    bytesAt mem b.rd_start (b.rd_end - b.rd_start).toNat

instance (mem : Mem) (b : Boot) : Decidable (KernelLoaded mem b) := by
  unfold KernelLoaded
  infer_instance

instance (mem : Mem) (b : Boot) : Decidable (RamdiskKept mem b) := by
  unfold RamdiskKept
  infer_instance

def RamdiskApart (b : Boot) : Prop :=
  ∀ i < (b.rd_end - b.rd_start).toNat,
    b.os.imageLen.toNat ≤ (b.rd_start + UInt32.ofNat i - b.os.load).toNat

instance (b : Boot) : Decidable (RamdiskApart b) := by
  unfold RamdiskApart
  infer_instance

variable {fuel : Nat} {gunzip : Gunzip} {mem : Mem} {c : BootCommand} {b : Boot}

lemma loadAndBoot_boots {os : ImageInfo} {rd_start rd_end : UInt32}
    (boots : loadAndBoot gunzip mem os rd_start rd_end = .boots b) :
    os.type ≠ ihTypeStandalone ∧
      b = ⟨b.fn, (bootmLoadOs gunzip mem os).2, os, rd_start, rd_end⟩ := by
  unfold loadAndBoot at boots
  by_cases reset : (bootmLoadOs gunzip mem os).1 = bootmErrReset
  · simp [reset] at boots
  by_cases other : (bootmLoadOs gunzip mem os).1 = bootmErrUnimplemented
  · simp [other, bootmErrReset, bootmErrUnimplemented] at boots
  by_cases plain : os.type = ihTypeStandalone
  · simp [reset, other, plain] at boots
  simp only [reset, other, plain, if_false] at boots
  refine ⟨plain, ?_⟩
  rcases entry : bootOs[os.os]? with _ | _ | fn
  · simp [entry] at boots
  · simp [entry] at boots
  · simp only [entry, Ended.boots.injEq] at boots
    rw [← boots]

lemma bootGetKernel_found {mem' : Mem} {data len : UInt32} (nonempty : len ≠ 0)
    (found : bootGetKernel fuel mem c = some (mem', data, len)) :
    imageGetKernel mem c.imgAddr c.verify = true ∧
      kernelPart fuel mem c.imgAddr = some (data, len) ∧ mem' = standaloneLoad mem c := by
  unfold bootGetKernel at found
  split at found
  · rename_i checked
    obtain ⟨part, kernel, result⟩ := Option.map_eq_some_iff.mp found
    cases result
    exact ⟨checked.2, kernel, rfl⟩
  · cases found
    exact absurd rfl nonempty

lemma doBootm_boots (linux : (headerAt mem c.imgAddr).os = 5)
    (boots : doBootm fuel gunzip mem c = some (.boots b)) :
    imageGetKernel mem c.imgAddr c.verify = true ∧
      kernelPart fuel mem c.imgAddr = some (b.os.imageStart, b.os.imageLen) ∧
      b.os.imageLen ≠ 0 ∧ b.os = osInfo mem c.imgAddr b.os.imageStart b.os.imageLen ∧
      bootGetRamdisk fuel mem c = some (some (b.rd_start, b.rd_end)) ∧
      b.mem = (bootmLoadOs gunzip mem b.os).2 := by
  obtain ⟨⟨mem', data, len⟩, got, rest⟩ := Option.bind_eq_some_iff.mp boots
  dsimp only at rest
  by_cases empty : len = 0
  · rw [if_pos empty] at rest
    cases rest
  rw [if_neg empty] at rest
  obtain ⟨found, ramdisk, outcome⟩ := Option.map_eq_some_iff.mp rest
  rcases found with _ | ⟨rd_start, rd_end⟩
  · cases outcome
  obtain ⟨plain, same⟩ := loadAndBoot_boots outcome
  obtain ⟨checked, kernel, kept⟩ := bootGetKernel_found empty got
  have type_ne : (headerAt mem c.imgAddr).type ≠ typeStandalone := by
    intro standalone
    apply plain
    rw [kept]
    exact congrArg UInt8.toNat ((standaloneLoad_type mem c).trans standalone)
  rw [standaloneLoad_other type_ne] at kept
  subst kept
  have os_linux : (osInfo mem' c.imgAddr data len).os = ihOsLinux := congrArg UInt8.toNat linux
  rw [if_pos os_linux] at ramdisk
  rw [same]
  exact ⟨checked, kernel, empty, rfl, ramdisk, rfl⟩

lemma bootmLoadOs_moved {os : ImageInfo} (plain : os.comp = ihCompNone)
    (ram : InRam os.imageStart os.imageLen) : (bootmLoadOs gunzip mem os).2 =
      if os.load = os.start then mem else moved os.load os.imageStart os.imageLen.toNat mem := by
  rw [bootmLoadOs, if_pos plain]
  obtain ⟨low, high⟩ := ram
  by_cases in_place : os.load = os.start
  · rw [if_pos in_place, if_pos in_place]
  rw [if_neg in_place, if_neg in_place]
  by_cases here : os.load = os.imageStart
  · rw [if_neg (not_not.mpr here), here, moved_self]
  · rw [if_pos here]
    exact memmove_eq (by omega) (by omega)

lemma bootGetRamdisk_checked {range : UInt32 × UInt32}
    (found : bootGetRamdisk fuel mem c = some (some range)) {rd_addr : UInt32}
    (given : c.second = some (.number rd_addr)) :
    imageGetRamdisk mem rd_addr c.verify = true := by
  simp only [bootGetRamdisk, ramdiskPart, given] at found
  split at found
  · rename_i checked
    exact checked.2
  · cases found

/-- When the boot function is called for an uncompressed image in RAM, kernel and ramdisk
have been checked. The kernel is where it is to be loaded; where that is the address of the
image, nothing was moved. The ramdisk is as it was if the kernel was not loaded over it. -/
theorem booted_parts_intact (linux : (headerAt mem c.imgAddr).os = 5)
    (plain : (headerAt mem c.imgAddr).comp = 0)
    (ram : ∀ data len, kernelPart fuel mem c.imgAddr = some (data, len) → InRam data len)
    (boots : doBootm fuel gunzip mem c = some (.boots b)) :
    imageGetKernel mem c.imgAddr c.verify = true ∧
      kernelPart fuel mem c.imgAddr = some (b.os.imageStart, b.os.imageLen) ∧
      b.os.imageLen ≠ 0 ∧ b.os = osInfo mem c.imgAddr b.os.imageStart b.os.imageLen ∧
      bootGetRamdisk fuel mem c = some (some (b.rd_start, b.rd_end)) ∧
      (∀ rd_addr, c.second = some (.number rd_addr) →
        imageGetRamdisk mem rd_addr c.verify = true) ∧
      (b.os.load ≠ c.imgAddr → KernelLoaded mem b) ∧
      (b.os.load = c.imgAddr → b.mem = mem) ∧
      (b.os.load = c.imgAddr ∨ RamdiskApart b → RamdiskKept mem b) := by
  obtain ⟨checked, kernel, nonempty, info, ramdisk, loaded⟩ := doBootm_boots linux boots
  have comp : b.os.comp = ihCompNone := by
    rw [info]
    exact congrArg UInt8.toNat plain
  have start : b.os.start = c.imgAddr := by
    rw [info]
    rfl
  rw [bootmLoadOs_moved comp (ram _ _ kernel), start] at loaded
  have length := b.os.imageLen.toNat_lt
  refine ⟨checked, kernel, nonempty, info, ramdisk,
    fun rd_addr given => bootGetRamdisk_checked ramdisk given, ?_, ?_, ?_⟩
  · intro elsewhere
    rw [if_neg elsewhere] at loaded
    rw [KernelLoaded, loaded]
    exact bytesAt_moved _ _ mem length
  · intro in_place
    rw [loaded, if_pos in_place]
  · intro safe
    apply bytesAt_congr
    intro i inside
    rw [loaded]
    by_cases in_place : b.os.load = c.imgAddr
    · rw [if_pos in_place]
    · rw [if_neg in_place]
      have apart := safe.resolve_left in_place i inside
      exact if_neg (Nat.not_lt.mpr apart)

/-- The first image from `at1` on, the second from `at2` on, 0 elsewhere. -/
def twoImages (at1 at2 : UInt32) (image1 image2 : List UInt8) : Mem := fun a =>
  if (a - at1).toNat < image1.length then image1.getD (a - at1).toNat 0
  else image2.getD (a - at2).toNat 0

def linuxImage (type : UInt8) (load : UInt32) (files : List (List UInt8)) : List UInt8 :=
  (mkimage ⟨load, load + 64, 5, 2, type, 0, [], false⟩ 0 files).getD []

lemma exists_boot (ended : Option Ended) {P : Boot → Prop} [DecidablePred P]
    (found : (ended.bind Ended.boot).any (fun b => decide (P b)) = true) :
    ∃ b, ended = some (.boots b) ∧ P b := by
  rcases ended with _ | (_ | _ | _ | _ | b)
  · cases found
  · cases found
  · cases found
  · cases found
  · cases found
  · exact ⟨b, rfl, of_decide_eq_true found⟩

def separateMem : Mem := twoImages 0x32000000 0x32001000
  (linuxImage typeKernel 0x30008000 [[1, 2, 3]]) (linuxImage typeRamdisk 0 [[4, 5]])

def separateCommand : BootCommand := ⟨true, 0, some (0x32000000, some (.number 0x32001000))⟩

theorem separate_ramdisk_intact :
    ∃ b, doBootm 0 (fun _ _ _ _ => none) separateMem separateCommand = some (.boots b) ∧
      b.os.load ≠ 0x32000000 ∧ KernelLoaded separateMem b ∧ RamdiskKept separateMem b := by
  obtain ⟨b, boots, elsewhere, apart⟩ := exists_boot
    (doBootm 0 (fun _ _ _ _ => none) separateMem separateCommand)
    (P := fun b => b.os.load ≠ 0x32000000 ∧ RamdiskApart b) (by decide +kernel)
  have part : kernelPart 0 separateMem 0x32000000 = some (0x32000040, 3) := by decide +kernel
  obtain ⟨-, -, -, -, -, -, kernel, -, ramdisk⟩ := booted_parts_intact
    (c := separateCommand) (by decide +kernel) (by decide +kernel)
    (fun data len found => by
      obtain ⟨rfl, rfl⟩ := Prod.mk.inj (Option.some.inj (part.symm.trans found))
      exact ⟨by decide, by decide⟩) boots
  exact ⟨b, boots, elsewhere, kernel elsewhere, ramdisk (.inr apart)⟩

def inPlaceMem : Mem := twoImages 0x30008000 0 (linuxImage typeKernel 0x30008000 [[1, 2, 3]]) []

def overMem : Mem :=
  twoImages 0x30008000 0 (linuxImage typeMulti 0x30008050 [[1, 2, 3], [4, 5]]) []

/-- An image that is to run in place is booted with its header at the load address, and a kernel
that is loaded over the ramdisk of its own image is booted after a warning. -/
theorem in_place_and_overwritten :
    let command : BootCommand := ⟨true, 0, some (0x30008000, none)⟩
    (∃ b, doBootm 0 (fun _ _ _ _ => none) inPlaceMem command = some (.boots b) ∧
      ¬KernelLoaded inPlaceMem b) ∧
    ∃ b, doBootm 3 (fun _ _ _ _ => none) overMem command = some (.boots b) ∧
      b.rd_start ≠ 0 ∧ ¬RamdiskKept overMem b := by
  constructor
  · exact exists_boot _ (by decide +kernel)
  · exact exists_boot _ (by decide +kernel)

end Image
