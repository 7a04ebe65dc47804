import UBoot.Lib.Runs

/-!
# The sub-commands of `bootm` (common/cmd_bootm.c)

`do_bootm_subcommand`, `bootm_start` and `bootm_load_os`, as configured without FIT images and
device trees. What an image, the ramdisk arguments and `gunzip` give is part of the input.
-/

namespace Bootm

inductive BootFn where
  | linux
  | netbsd
  | rtems
  | vxworks
  | qnxelf
deriving DecidableEq

def ihOsLinux : Nat := 5

/-- `boot_os`: IH_OS_NETBSD is 2, IH_OS_VXWORKS 14, IH_OS_QNX 16, IH_OS_RTEMS 18. -/
def bootOs : List (Option BootFn) :=
  [none, none, some .netbsd, none, none, some .linux, none, none, none, none, none, none, none,
    none, some .vxworks, none, some .qnxelf, none, some .rtems]

structure ImageInfo where
  start : UInt32
  stop : UInt32
  imageStart : UInt32
  imageLen : UInt32
  load : UInt32
  comp : Nat
  type : Nat
  os : Nat
deriving DecidableEq

/-- The part of `bootm_headers_t` that the sub-commands look at. -/
structure Images where
  os : ImageInfo
  legacyHdrValid : Bool
  state : Nat
deriving DecidableEq

def Images.zero : Images :=
  { os := ⟨0, 0, 0, 0, 0, 0, 0, 0⟩, legacyHdrValid := false, state := 0 }

inductive Sub where
  | start
  | loados
  | cmdline
  | bdt
  | prep
  | go
deriving DecidableEq

def Sub.number : Sub → Nat
  | .start => 0x01
  | .loados => 0x02
  | .cmdline => 0x10
  | .bdt => 0x20
  | .prep => 0x40
  | .go => 0x80

def Sub.callsOs : Sub → Bool
  | .start | .loados => false
  | .cmdline | .bdt | .prep | .go => true

def ihTypeStandalone : Nat := 1
def ihTypeKernel : Nat := 2
def ihTypeMulti : Nat := 4

/-- A legacy image in memory: the outcome of each check, and its header. -/
structure Image where
  address : UInt32
  magic : Bool
  headerCrc : Bool
  dataCrc : Bool
  arch : Bool
  type : Nat
  comp : Nat
  os : Nat
  load : UInt32
  imageEnd : UInt32
  data : UInt32
  dataLen : UInt32
  firstData : UInt32             -- `image_multi_getimg` of part 0
  firstLen : UInt32

/-- One `bootm` command line with what it finds. -/
structure Command where
  sub : Option Sub               -- `find_cmd_tbl`
  image : Image
  verify : Bool
  load : Option UInt32           -- the load address given for a standalone image
  ramdisk : Bool                 -- `boot_get_ramdisk` succeeds
  gunzip : Option UInt32         -- the length it gives

def imageGetKernel (c : Command) : Bool :=
  c.image.magic && c.image.headerCrc && (!c.verify || c.image.dataCrc) && c.image.arch

/-- `boot_get_kernel`: where the data of a usable image is. -/
def bootGetKernel (c : Command) : Option (UInt32 × UInt32) :=
  if imageGetKernel c then
    if c.image.type = ihTypeKernel then some (c.image.data, c.image.dataLen)
    else if c.image.type = ihTypeMulti then some (c.image.firstData, c.image.firstLen)
    else if c.image.type = ihTypeStandalone then some (c.image.data, c.image.dataLen)
    else none
  else none

/-- The load address in the header, which `boot_get_kernel` may have changed. -/
def loadAddress (c : Command) : UInt32 :=
  if c.image.type = ihTypeStandalone then c.load.getD c.image.load else c.image.load

def bootmStart (c : Command) : Int × Images :=
  match bootGetKernel c with
  | none => (1, Images.zero)
  | some (data, len) =>
    let images := { Images.zero with
      os := { Images.zero.os with imageStart := data, imageLen := len }, legacyHdrValid := true }
    if len = 0 then (1, images)
    else
      let images := { images with os := { images.os with
        type := c.image.type, comp := c.image.comp, os := c.image.os, stop := c.image.imageEnd,
        load := loadAddress c } }
      if c.image.os = ihOsLinux ∧ c.ramdisk = false then (1, images)
      else (0, { images with os := { images.os with start := c.image.address }, state := 1 })

def bootmErrReset : Int := -1
def bootmErrOverlap : Int := -2
def bootmErrUnimplemented : Int := -3

def ihCompNone : Nat := 0
def ihCompGzip : Nat := 1

/-- `bootm_load_os`: its result and, where it gets so far, the end of what is loaded. -/
def bootmLoadOs (os : ImageInfo) (gunzip : Option UInt32) : Int :=
  let loaded :=
    if os.comp = ihCompNone then Except.ok (os.load + os.imageLen)
    else if os.comp = ihCompGzip then match gunzip with
      | none => .error bootmErrReset
      | some len => .ok (os.load + len)
    else .error bootmErrUnimplemented
  match loaded with
  | .error e => e
  | .ok load_end => if os.load < os.stop ∧ os.start < load_end then bootmErrOverlap else 0

/-- A call through the entry of `boot_os`; `none` outside the table, `some none` for null. -/
structure Call where
  flag : Sub
  entry : Option (Option BootFn)
deriving DecidableEq

/-- A boot function answers 1, that it does not know the flag; only `go` boots. -/
structure Outcome where
  images : Images
  call : Option Call
  ret : Option Int               -- `none`: no function was there to call

def doBootmSubcommand (images : Images) (c : Command) : Outcome :=
  match c.sub with
  | none => ⟨images, none, some 1⟩
  | some sub =>
    if sub = .start then
      let (ret, started) := bootmStart c
      ⟨started, none, some ret⟩
    else if sub.number ≤ images.state then ⟨images, none, some 1⟩
    else
      let next := { images with state := images.state ||| sub.number }
      let boot_fn := bootOs[images.os.os]?
      if sub = .loados then ⟨next, none, some (bootmLoadOs images.os c.gunzip)⟩
      else match boot_fn with
        | some (some _) => ⟨next, some ⟨sub, boot_fn⟩, some (if sub = .go then 0 else 1)⟩
        | _ => ⟨next, some ⟨sub, boot_fn⟩, none⟩

structure Event where
  sub : Option Sub
  ret : Int
deriving DecidableEq

structure State where
  images : Images
  log : List Event

def init : State := ⟨Images.zero, []⟩

def step (s : State) (c : Command) : Option State :=
  let o := doBootmSubcommand s.images c
  match o.ret with
  | none => none
  | some ret => some ⟨o.images, ⟨c.sub, ret⟩ :: s.log⟩

end Bootm
