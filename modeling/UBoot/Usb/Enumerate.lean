import UBoot.Lib.Dialogue
import UBoot.Usb.ConfigStores

/-!
# The enumeration of the bus (common/usb.c)

`usb_new_device`, `usb_hub_configure` and `usb_hub_port_connect_change` call each other for a tree
of hubs; what the devices send are the replies of the environment. Only messages that are looked at
ask for one: the results of requests that set or clear a feature are ignored. The enumeration
stops at the first store that is out of place.
-/

namespace UsbScan

open Dialogue
open ParseConfig (Bytes wTotalLength ifDesc epDesc)
open ConfigStores (usbParseConfig usbParseConfig_ok_iff StoresFit)

def usbMaxDevice : Nat := 32
def usbMaxChildren : Nat := 8
def usbMaxHub : Nat := 16
def usbBufsiz : Nat := 512

/-! ## The tables -/

inductive Speed where
  | full
  | low
  | high
  deriving DecidableEq

/-- `struct usb_device`, as far as the enumeration uses it. Devices are known by their indices in
`usb_dev`. -/
structure UsbDevice where
  devnum : Int
  speed : Speed
  config : Bytes
  maxchild : Nat
  parent : Option Nat
  children : Nat → Option Nat

/-- `struct usb_hub_device`, with the bytes of its descriptor. -/
structure UsbHubDevice where
  pusb_dev : Option Nat
  desc : Bytes

def hubDescriptorSize : Nat := 11

/-- `DeviceRemovable` and `PortPowerCtrlMask` in the descriptor, of two bytes each -/
def deviceRemovable : Nat := 7
def portPowerCtrlMask : Nat := 9
def bitmapSize : Nat := (usbMaxChildren + 1 + 7) / 8

example : hubDescriptorSize = deviceRemovable + 2 * bitmapSize ∧
    portPowerCtrlMask = deviceRemovable + bitmapSize := by decide

structure State where
  usb_dev : Nat → UsbDevice
  dev_index : Nat
  hub_dev : Nat → UsbHubDevice
  usb_hub_index : Nat

def State.setDev (s : State) (dev : Nat) (d : UsbDevice) : State :=
  { s with usb_dev := Function.update s.usb_dev dev d }

def State.setHub (s : State) (hub : Nat) (h : UsbHubDevice) : State :=
  { s with hub_dev := Function.update s.hub_dev hub h }

/-! ## Messages -/

/-- The result of `usb_control_msg`, what the buffer has got, and what is found behind `children`
where a port beyond the table is looked up. -/
structure Reply where
  result : Int
  data : Bytes
  stray : Bool

inductive Query where
  | other
  | reset (port dev_index : Nat)             -- the status of a port that is reset for a new device
  | hubDescriptor (desc buffer : Bytes)      -- all of it, when its first four bytes are there
  | configHead (tmpbuf config : Bytes)       -- the first nine bytes of a configuration
  | configuration (tmpbuf config : Bytes)    -- `wTotalLength` bytes of it

inductive Fault where
  | null
  | index
  | copy
  | parse
  | endless
  deriving DecidableEq

abbrev Enum (α : Type) : Type := Prog Query Reply Fault α

def ask (q : Query) : Enum Reply := .ask q .done

/-- The first `n` bytes of a buffer are overwritten. -/
def filled (buffer data : Bytes) (n : Nat) : Bytes := fun a => if a < n then data a else buffer a

def le16 (data : Bytes) (a : Nat) : UInt16 := (data a).toUInt16 ||| (data (a + 1)).toUInt16 <<< 8

def portStatus (r : Reply) : UInt16 := le16 r.data 0

def portChange (r : Reply) : UInt16 := le16 r.data 2

/-- A connection (USB_PORT_STAT_CONNECTION, or its change), likewise an enabled port. -/
def connection : UInt16 := 0x0001
def enable : UInt16 := 0x0002
def lowSpeed : UInt16 := 0x0200
def highSpeed : UInt16 := 0x0400

/-! ## Allocation -/

def usbAllocNewDevice (s : State) : Option (Nat × State) :=
  if s.dev_index = usbMaxDevice then none
  else
    let d := s.usb_dev s.dev_index
    some (s.dev_index, { s.setDev s.dev_index { d with
      devnum := s.dev_index + 1, maxchild := 0, children := fun _ => none, parent := none } with
        dev_index := s.dev_index + 1 })

def usbHubAllocate (s : State) : Option (Nat × State) :=
  if s.usb_hub_index < usbMaxHub then
    some (s.usb_hub_index, { s with usb_hub_index := s.usb_hub_index + 1 })
  else none

/-! ## Hubs -/

/-- What a try of `hub_port_reset` makes of the status of the port. -/
def resetTry (again : Enum (Option UInt16)) (r : Reply) : Enum (Option UInt16) :=
  if r.result < 0 then pure none
  else if portChange r &&& connection ≠ 0 ∨ portStatus r &&& connection = 0 then pure none
  else if portStatus r &&& enable ≠ 0 then pure (some (portStatus r))
  else again

/-- The tries of `hub_port_reset`: the status of the port, or `none` for -1. -/
def hubPortReset (q : Query) : (tries : Nat) → Enum (Option UInt16)
  | 0 => pure none
  | tries + 1 => do
    let r ← ask q
    resetTry (hubPortReset q tries) r

def maxTries : Nat := 5

def State.hasChild (s : State) (dev port : Nat) (stray : Bool) : Bool :=
  if port < usbMaxChildren then ((s.usb_dev dev).children port).isSome else stray

/-- A new device behind a port: the stores before `usb_new_device` is called for it. -/
def attach (s : State) (dev port : Nat) (status : UInt16) : Except Fault (Nat × State) :=
  match usbAllocNewDevice s with
  | none => .error .null                     -- `usb->speed`
  | some (usb, s) =>
    let speed := if status &&& highSpeed ≠ 0 then Speed.high
      else if status &&& lowSpeed ≠ 0 then .low else .full
    let s := s.setDev usb { s.usb_dev usb with speed }
    if port < usbMaxChildren then
      let d := s.usb_dev dev
      let s := s.setDev dev { d with children := Function.update d.children port (some usb) }
      .ok (usb, s.setDev usb { s.usb_dev usb with parent := some dev })
    else .error .index

/-- `usb_hub_port_connect_change`, where `usbNewDevice` is called for the new device. -/
def usbHubPortConnectChange (usbNewDevice : Nat → State → Enum (Int × State)) (dev port : Nat)
    (s : State) : Enum State := do
  let r ← ask .other
  if r.result < 0 then pure s
  else
    let none_before := portStatus r &&& connection = 0 ∧ portStatus r &&& enable = 0
    if (none_before ∨ s.hasChild dev port r.stray) ∧ portStatus r &&& connection = 0 then pure s
    else
      match ← hubPortReset (.reset port s.dev_index) maxTries with
      | none => pure s
      | some status =>
        match attach s dev port status with
        | .error fault => .fault fault
        | .ok (usb, s) => do
          let done ← usbNewDevice usb s
          pure done.2

/-- `for (i = 0; i < (hub->desc.bNbrPorts + 1 + 7) / 8; i++)`, which copies a bitmap to
`DeviceRemovable` -/
def copyBitmap (buffer : Bytes) (source : Nat) : (left i : Nat) → Bytes → Except Fault Bytes
  | 0, _, desc => .ok desc
  | left + 1, i, desc =>
    if i < bitmapSize then
      copyBitmap buffer source left (i + 1)
        (Function.update desc (deviceRemovable + i) (buffer (source + i)))
    else .error .index

/-- The copy of the hub descriptor, `wHubCharacteristics`, and 0xff in both bitmaps. -/
def copied (desc buffer : Bytes) : Bytes :=
  let desc := filled desc buffer (buffer 0).toNat
  let desc := Function.update (Function.update desc 3 (buffer 3)) 4 (buffer 4)
  fun a => if deviceRemovable ≤ a ∧ a < deviceRemovable + 2 * bitmapSize then 0xff else desc a

/-- What is stored to `hub->desc`. Both loops write to `DeviceRemovable`. -/
def storeDescriptor (desc buffer : Bytes) : Except Fault Bytes :=
  if hubDescriptorSize < (buffer 0).toNat then .error .copy
  else
    let desc := copied desc buffer
    let count := ((desc 2).toNat + 1 + 7) / 8
    match copyBitmap buffer deviceRemovable count 0 desc with
    | .error fault => .error fault
    | .ok desc => copyBitmap buffer portPowerCtrlMask count 0 desc

/-- A port in the last loop of `usb_hub_configure`. -/
def configurePort (usbNewDevice : Nat → State → Enum (Int × State)) (dev i : Nat) (s : State) :
    Enum State := do
  let r ← ask .other
  if r.result < 0 then pure s
  else
    let s ← if portChange r &&& connection ≠ 0 then
        usbHubPortConnectChange usbNewDevice dev i s
      else pure s
    if portChange r &&& enable ≠ 0 ∧ portStatus r &&& enable = 0 ∧
        portStatus r &&& connection ≠ 0 ∧ s.hasChild dev i r.stray then
      usbHubPortConnectChange usbNewDevice dev i s
    else pure s

/-- `for (i = 0; i < dev->maxchild; i++)`. No call below stores to `dev->maxchild`. -/
def configurePorts (usbNewDevice : Nat → State → Enum (Int × State)) (dev : Nat) :
    (left i : Nat) → State → Enum State
  | 0, _, s => pure s
  | left + 1, i, s => do
    let s ← configurePort usbNewDevice dev i s
    configurePorts usbNewDevice dev left (i + 1) s

/-- `usb_hub_configure`, from the copy of the descriptor in `buffer` on -/
def useDescriptor (usbNewDevice : Nat → State → Enum (Int × State)) (dev hub : Nat) (s : State)
    (buffer : Bytes) : Enum State :=
  match storeDescriptor (s.hub_dev hub).desc buffer with
  | .error fault => .fault fault
  | .ok desc => do
    let s := s.setHub hub { s.hub_dev hub with desc }
    let s := s.setDev dev { s.usb_dev dev with maxchild := (buffer 2).toNat }
    let status ← ask .other
    if status.result < 0 then pure s
    else configurePorts usbNewDevice dev (s.usb_dev dev).maxchild 0 s

def usbHubConfigure (usbNewDevice : Nat → State → Enum (Int × State)) (dev : Nat) (s : State) :
    Enum State :=
  match usbHubAllocate s with
  | none => pure s
  | some (hub, s) => do
    let s := s.setHub hub { s.hub_dev hub with pusb_dev := some dev }
    let r ← ask .other
    if r.result < 0 then pure s
    else
      let r' ← ask (.hubDescriptor (s.hub_dev hub).desc r.data)
      if r'.result < 0 then pure s
      else useDescriptor usbNewDevice dev hub s (filled r.data r'.data (r.data 0).toNat)

/-- What `usb_hub_probe` wants to see of the first interface. -/
def isHub (config : Bytes) : Bool :=
  config (ifDesc 0 + 5) = 9 ∧ (config (ifDesc 0 + 6) = 0 ∨ config (ifDesc 0 + 6) = 1) ∧
    config (ifDesc 0 + 4) = 1 ∧ config (epDesc 0 0 + 2) &&& 0x80 ≠ 0 ∧
    config (epDesc 0 0 + 3) &&& 3 = 3

/-! ## Devices -/

def portOf (s : State) (parent dev : Nat) : Option Nat :=
  (List.range (s.usb_dev parent).maxchild).find? fun j => (s.usb_dev parent).children j = some dev

def secondReset (s : State) (dev : Nat) : Enum Bool :=
  match (s.usb_dev dev).parent with
  | none => pure true
  | some parent =>
    match portOf s parent dev with
    | none => pure false
    | some _ => do
      let status ← hubPortReset .other maxTries
      pure status.isSome

/-- `usb_new_device` up to the configuration: `tmpbuf`, or `none` where 1 is returned, and the
number of the device. -/
def address (dev : Nat) (s : State) : Enum (Option Bytes × State) := do
  let addr := (s.usb_dev dev).devnum
  let s := s.setDev dev { s.usb_dev dev with devnum := 0 }
  let r ← ask .other
  if r.result < 0 then pure (none, s)
  else
    let found ← secondReset s dev
    if found then
      let s := s.setDev dev { s.usb_dev dev with devnum := addr }
      let set ← ask .other
      if set.result < 0 then pure (none, s)
      else
        let whole ← ask .other
        if whole.result < 18 then pure (none, s) else pure (some r.data, s)
    else pure (none, s)

/-- `usb_get_configuration_no`: what it leaves in the buffer. -/
def usbGetConfigurationNo (tmpbuf config : Bytes) : Enum Bytes := do
  let r ← ask (.configHead tmpbuf config)
  let buffer := filled tmpbuf r.data 9
  if r.result < 9 ∨ usbBufsiz < wTotalLength buffer then pure buffer
  else
    let r ← ask (.configuration buffer config)
    pure (filled buffer r.data (wTotalLength buffer))

/-- `dev->config` behind `usb_parse_config`, whose result is ignored. -/
def parsed (block config : Bytes) : Enum Bytes :=
  match usbParseConfig 65536 block config with
  | some (.ok r) => pure r.2
  | _ => .fault .parse

/-- `usb_get_configuration_no` and `usb_parse_config` -/
def readConfiguration (tmpbuf config : Bytes) : Enum Bytes := do
  let block ← usbGetConfigurationNo tmpbuf config
  parsed block config

/-- `usb_new_device`. Packet sizes and strings are left out. -/
def usbNewDevice : (fuel : Nat) → (dev : Nat) → State → Enum (Int × State)
  | 0, _, _ => .fault .endless
  | fuel + 1, dev, s => do
    let found ← address dev s
    let s := found.2
    match found.1 with
    | none => pure (1, s)
    | some tmpbuf => do
      let config ← readConfiguration tmpbuf (s.usb_dev dev).config
      let s := s.setDev dev { s.usb_dev dev with config }
      let set ← ask .other
      if set.result ≠ 0 then pure (-1, s)
      else if isHub config then do
        let s ← usbHubConfigure (usbNewDevice fuel) dev s
        pure (0, s)
      else pure (0, s)

def unknown : UsbDevice := ⟨-1, .full, fun _ => 0, 0, none, fun _ => none⟩

/-- `usb_scan_devices`, with what an earlier enumeration has left in `hub_dev`. -/
def usbScanDevices (hub_dev : Nat → UsbHubDevice) : Enum (Int × State) :=
  match usbAllocNewDevice ⟨fun _ => unknown, 0, hub_dev, 0⟩ with
  | none => .fault .null
  | some (dev, s) => usbNewDevice usbMaxDevice dev s

/-! ## When it returns -/

def Completes (r : Reply) : Prop :=
  0 ≤ r.result ∧ portChange r &&& connection = 0 ∧ portStatus r &&& connection ≠ 0 ∧
    portStatus r &&& enable ≠ 0

/-- A descriptor that the structure in `hub_dev` has room for, with bitmaps for fewer than 16
ports. -/
def DescriptorFits (desc buffer : Bytes) : Prop :=
  (buffer 0).toNat ≤ hubDescriptorSize ∧ (filled desc buffer (buffer 0).toNat 2).toNat ≤ 15

/-- A new device is one of the first eight behind its hub, and one of the first 32; descriptors of
hubs fit; and so does a block that is parsed, also one left over from a message that failed. -/
def Ok : Query → Reply → Prop
  | .other, _ => True
  | .reset port dev_index, r => Completes r → port < usbMaxChildren ∧ dev_index < usbMaxDevice
  | .hubDescriptor desc buffer, r =>
    0 ≤ r.result → DescriptorFits desc (filled buffer r.data (buffer 0).toNat)
  | .configHead tmpbuf config, r =>
    r.result < 9 ∨ usbBufsiz < wTotalLength (filled tmpbuf r.data 9) →
      StoresFit (filled tmpbuf r.data 9) config
  | .configuration tmpbuf config, r => StoresFit (filled tmpbuf r.data (wTotalLength tmpbuf)) config

open Prog

/-! ### Hubs -/

lemma exact_reset {α : Type} {post : α → Prop} {q : Query} {f : Option UInt16 → Enum α}
    (good : Prop) (ok_iff : ∀ r, Ok q r ↔ (Completes r → good))
    (failed : Exact Ok post (f none)) (completed : good → ∀ status, Exact Ok post (f (some status)))
    (wrong : ¬good → ∀ status, ∃ e, f (some status) = .fault e) (tries : Nat) :
    Exact Ok post (hubPortReset q tries >>= f) := by
  induction tries with
  | zero => exact failed
  | succ tries ih =>
    intro r
    rw [ok_iff r]
    change (_ → Exact Ok post (resetTry (hubPortReset q tries) r >>= f)) ∧
      (_ → ∃ e, resetTry (hubPortReset q tries) r >>= f = .fault e)
    unfold resetTry
    by_cases error : r.result < 0
    · rw [if_pos error]
      exact ⟨fun _ => failed, fun fails => absurd (fun done => by have := done.1; omega) fails⟩
    rw [if_neg error]
    by_cases lost : portChange r &&& connection ≠ 0 ∨ portStatus r &&& connection = 0
    · rw [if_pos lost]
      refine ⟨fun _ => failed, fun fails => absurd (fun done => ?_) fails⟩
      exact (lost.elim (fun changed => changed done.2.1) fun none => done.2.2.1 none).elim
    rw [if_neg lost]
    obtain ⟨unchanged, connected⟩ := not_or.mp lost
    by_cases enabled : portStatus r &&& enable ≠ 0
    · rw [if_pos enabled]
      have done : Completes r := ⟨by omega, not_not.mp unchanged, connected, enabled⟩
      refine ⟨fun fine => completed (fine done) _, fun fails => wrong (fun fine => ?_) _⟩
      exact fails fun _ => fine
    · rw [if_neg enabled]
      exact ⟨fun _ => ih, fun fails => absurd (fun done => absurd done.2.2.2 enabled) fails⟩

def Within (low : Nat) (s : State) : Prop := low ≤ s.dev_index ∧ s.dev_index ≤ usbMaxDevice

lemma attach_ok {s : State} {dev port : Nat} {status : UInt16} (inside : port < usbMaxChildren)
    (room : s.dev_index < usbMaxDevice) :
    ∃ usb s', attach s dev port status = .ok (usb, s') ∧ s'.dev_index = s.dev_index + 1 := by
  unfold attach usbAllocNewDevice
  rw [if_neg (Nat.ne_of_lt room)]
  dsimp only
  rw [if_pos inside]
  exact ⟨_, _, rfl, rfl⟩

lemma attach_error {s : State} {dev port : Nat} {status : UInt16}
    (wrong : ¬(port < usbMaxChildren ∧ s.dev_index < usbMaxDevice))
    (few : s.dev_index ≤ usbMaxDevice) : ∃ e, attach s dev port status = .error e := by
  unfold attach usbAllocNewDevice
  by_cases full : s.dev_index = usbMaxDevice
  · rw [if_pos full]
    exact ⟨_, rfl⟩
  rw [if_neg full]
  dsimp only
  rw [if_neg fun inside => wrong ⟨inside, Nat.lt_of_le_of_ne few full⟩]
  exact ⟨_, rfl⟩

lemma copyBitmap_ok_iff {buffer desc : Bytes} {source left i : Nat} (start : i ≤ bitmapSize) :
    (∃ desc', copyBitmap buffer source left i desc = .ok desc') ↔ i + left ≤ bitmapSize := by
  induction left generalizing i desc with
  | zero => exact iff_of_true ⟨desc, rfl⟩ start
  | succ left ih =>
    rw [copyBitmap]
    by_cases inside : i < bitmapSize
    · rw [if_pos inside, ih inside]
      omega
    · rw [if_neg inside]
      exact iff_of_false nofun (by omega)

lemma copied_ports (desc buffer : Bytes) :
    copied desc buffer 2 = filled desc buffer (buffer 0).toNat 2 := by
  change Function.update (Function.update (filled desc buffer (buffer 0).toNat) 3 (buffer 3)) 4
    (buffer 4) 2 = _
  rw [Function.update_of_ne (by decide), Function.update_of_ne (by decide)]

lemma storeDescriptor_ok_iff (desc buffer : Bytes) :
    (∃ desc', storeDescriptor desc buffer = .ok desc') ↔ DescriptorFits desc buffer := by
  unfold storeDescriptor DescriptorFits
  by_cases long : hubDescriptorSize < (buffer 0).toNat
  · rw [if_pos long]
    exact iff_of_false nofun fun fits => absurd fits.1 (Nat.not_le.mpr long)
  rw [if_neg long, and_iff_right (Nat.not_lt.mp long), ← copied_ports]
  dsimp only
  generalize copied desc buffer = desc
  have bound : 0 + ((desc 2).toNat + 1 + 7) / 8 ≤ bitmapSize ↔ (desc 2).toNat ≤ 15 := by
    change _ ≤ 2 ↔ _
    omega
  have both (source : Nat) (old : Bytes) :=
    @copyBitmap_ok_iff buffer old source (((desc 2).toNat + 1 + 7) / 8) 0 (Nat.zero_le _)
  rw [← bound, ← both deviceRemovable desc]
  cases first : copyBitmap buffer deviceRemovable (((desc 2).toNat + 1 + 7) / 8) 0 desc with
  | error fault => exact iff_of_false nofun nofun
  | ok desc' =>
    refine iff_of_true ?_ ⟨desc', rfl⟩
    exact (both portPowerCtrlMask desc').mpr ((both deviceRemovable desc).mp ⟨desc', first⟩)

/-! ### Ports -/

lemma exact_other {α : Type} {post : α → Prop} {f : Reply → Enum α}
    (each : ∀ r, Exact Ok post (f r)) : Exact Ok post (ask .other >>= f) :=
  exact_ask (fun _ => trivial) each

lemma Within.refl {s : State} (few : s.dev_index ≤ usbMaxDevice) : Within s.dev_index s :=
  ⟨Nat.le_refl _, few⟩

def GoesWell (new : Nat → State → Enum (Int × State)) (low : Nat) : Prop :=
  ∀ dev s, low ≤ s.dev_index → s.dev_index ≤ usbMaxDevice →
    Exact Ok (fun r => Within s.dev_index r.2) (new dev s)

variable {new : Nat → State → Enum (Int × State)} {low : Nat} {s : State}

lemma exact_connectChange (well : GoesWell new (low + 1)) (more : low ≤ s.dev_index)
    (few : s.dev_index ≤ usbMaxDevice) (dev port : Nat) :
    Exact Ok (Within s.dev_index) (usbHubPortConnectChange new dev port s) := by
  have unchanged : Exact Ok (Within s.dev_index) (pure s : Enum State) := Within.refl few
  refine exact_other fun r => ?_
  split
  · exact unchanged
  dsimp only
  split
  · exact unchanged
  refine exact_reset (port < usbMaxChildren ∧ s.dev_index < usbMaxDevice) (fun _ => Iff.rfl)
    unchanged ?_ ?_ maxTries
  · rintro ⟨inside, room⟩ status
    obtain ⟨usb, s', attached, count⟩ := @attach_ok s dev port status inside room
    dsimp only
    rw [attached]
    refine (well usb s' (by omega) (by omega)).bind fun r within => ?_
    exact ⟨by have := within.1; omega, within.2⟩
  · intro wrong status
    obtain ⟨e, stopped⟩ := @attach_error s dev port status wrong few
    dsimp only
    rw [stopped]
    exact ⟨e, rfl⟩

lemma exact_configurePort (well : GoesWell new (low + 1)) (more : low ≤ s.dev_index)
    (few : s.dev_index ≤ usbMaxDevice) (dev i : Nat) :
    Exact Ok (Within s.dev_index) (configurePort new dev i s) := by
  refine exact_other fun r => ?_
  split
  · exact Within.refl few
  have again (s' : State) (within : Within s.dev_index s') :
      Exact Ok (Within s.dev_index) (if portChange r &&& enable ≠ 0 ∧
        portStatus r &&& enable = 0 ∧ portStatus r &&& connection ≠ 0 ∧
        s'.hasChild dev i r.stray then usbHubPortConnectChange new dev i s' else pure s') := by
    split
    · have more' : low ≤ s'.dev_index := Nat.le_trans more within.1
      refine (exact_connectChange well more' within.2 dev i).mono fun s'' within' => ?_
      exact ⟨Nat.le_trans within.1 within'.1, within'.2⟩
    · exact within
  split
  · exact (exact_connectChange well more few dev i).bind again
  · exact again s (Within.refl few)

lemma exact_configurePorts (well : GoesWell new (low + 1)) (more : low ≤ s.dev_index)
    (few : s.dev_index ≤ usbMaxDevice) (dev left i : Nat) :
    Exact Ok (Within s.dev_index) (configurePorts new dev left i s) := by
  induction left generalizing s i with
  | zero => exact Within.refl few
  | succ left ih =>
    refine (exact_configurePort well more few dev i).bind fun s' within => ?_
    refine (ih (Nat.le_trans more within.1) within.2 (i + 1)).mono fun s'' within' => ?_
    exact ⟨Nat.le_trans within.1 within'.1, within'.2⟩

lemma exact_useDescriptor (well : GoesWell new (low + 1)) (more : low ≤ s.dev_index)
    (few : s.dev_index ≤ usbMaxDevice) (dev hub : Nat) {buffer : Bytes}
    (fits : DescriptorFits (s.hub_dev hub).desc buffer) :
    Exact Ok (Within s.dev_index) (useDescriptor new dev hub s buffer) := by
  obtain ⟨desc, stored⟩ := (storeDescriptor_ok_iff _ _).mpr fits
  unfold useDescriptor
  rw [stored]
  refine exact_other fun r => ?_
  split
  · exact Within.refl few
  · exact exact_configurePorts (s := (s.setHub hub _).setDev dev _) well more few dev _ 0

lemma useDescriptor_fault {dev hub : Nat} {buffer : Bytes}
    (large : ¬DescriptorFits (s.hub_dev hub).desc buffer) :
    ∃ e, useDescriptor new dev hub s buffer = .fault e := by
  unfold useDescriptor
  cases stored : storeDescriptor (s.hub_dev hub).desc buffer with
  | error e => exact ⟨e, rfl⟩
  | ok desc => exact absurd ((storeDescriptor_ok_iff _ _).mp ⟨desc, stored⟩) large

lemma exact_hubConfigure (well : GoesWell new (low + 1)) (more : low ≤ s.dev_index)
    (few : s.dev_index ≤ usbMaxDevice) (dev : Nat) :
    Exact Ok (Within s.dev_index) (usbHubConfigure new dev s) := by
  unfold usbHubConfigure usbHubAllocate
  by_cases room : s.usb_hub_index < usbMaxHub
  case neg =>
    rw [if_neg room]
    exact Within.refl few
  rw [if_pos room]
  refine exact_other fun r => ?_
  split
  · exact Within.refl few
  intro r'
  by_cases error : r'.result < 0
  · refine ⟨fun _ => ?_, fun large => absurd (fun some => absurd some (Int.not_le.mpr error)) large⟩
    dsimp only [Prog.bind]
    rw [if_pos error]
    exact Within.refl few
  · dsimp only [Prog.bind]
    rw [if_neg error]
    refine ⟨fun fits => ?_, fun large => useDescriptor_fault fun fits => large fun _ => fits⟩
    let hubs := { s with usb_hub_index := s.usb_hub_index + 1 }
    exact exact_useDescriptor (s := hubs.setHub s.usb_hub_index _) well more few dev _
      (fits (Int.not_lt.mp error))

/-! ### Devices -/

lemma exact_secondReset (s : State) (dev : Nat) :
    Exact Ok (fun _ => True) (secondReset s dev) := by
  have done (b : Bool) : Exact Ok (fun _ => True) (pure b : Enum Bool) := trivial
  unfold secondReset
  cases (s.usb_dev dev).parent with
  | none => exact done true
  | some parent =>
    dsimp only
    cases portOf s parent dev with
    | none => exact done false
    | some port =>
      have always (r : Reply) : Ok .other r ↔ (Completes r → True) :=
        iff_of_true trivial fun _ => trivial
      exact exact_reset True always (done false) (fun _ _ => done true)
        (fun wrong => absurd trivial wrong) maxTries

lemma exact_address (dev : Nat) (s : State) :
    Exact Ok (fun r => r.2.dev_index = s.dev_index) (address dev s) := by
  refine exact_other fun r => ?_
  split
  · exact rfl
  refine (exact_secondReset _ dev).bind fun found _ => ?_
  split
  case isFalse => exact rfl
  refine exact_other fun set => ?_
  split
  · exact rfl
  refine exact_other fun whole => ?_
  split
  · exact rfl
  · exact rfl

lemma exact_parsed {block config : Bytes} (fits : StoresFit block config) :
    Exact Ok (fun _ => True) (parsed block config) := by
  obtain ⟨r, run⟩ := (usbParseConfig_ok_iff block config).mpr fits
  unfold parsed
  rw [run]
  trivial

lemma parsed_fault {block config : Bytes} (large : ¬StoresFit block config) :
    ∃ e, parsed block config = .fault e := by
  unfold parsed
  split
  · next r run => exact absurd ((usbParseConfig_ok_iff block config).mp ⟨r, run⟩) large
  · exact ⟨_, rfl⟩

lemma exact_readConfiguration (tmpbuf config : Bytes) :
    Exact Ok (fun _ => True) (readConfiguration tmpbuf config) := by
  intro r
  dsimp only [Prog.bind]
  by_cases early : r.result < 9 ∨ usbBufsiz < wTotalLength (filled tmpbuf r.data 9)
  · rw [if_pos early]
    refine ⟨fun fits => exact_parsed (fits early), fun large => parsed_fault fun fits => ?_⟩
    exact large fun _ => fits
  · rw [if_neg early]
    refine ⟨fun _ r' => ⟨fun fits => exact_parsed fits, fun large => parsed_fault large⟩, ?_⟩
    exact fun large => absurd (fun short => absurd short early) large

lemma exact_newDevice (fuel dev : Nat) {s : State} (few : s.dev_index ≤ usbMaxDevice)
    (enough : usbMaxDevice < fuel + s.dev_index) :
    Exact Ok (fun r => Within s.dev_index r.2) (usbNewDevice fuel dev s) := by
  induction fuel generalizing dev s with
  | zero => omega
  | succ fuel ih =>
    refine (exact_address dev s).bind fun found same => ?_
    have kept : Within s.dev_index found.2 := ⟨Nat.le_of_eq same.symm, same.symm ▸ few⟩
    cases found.1 with
    | none => exact kept
    | some tmpbuf =>
      refine (exact_readConfiguration _ _).bind fun config _ => ?_
      refine exact_other fun set => ?_
      split
      · exact kept
      split
      · have well : GoesWell (usbNewDevice fuel) (s.dev_index + 1) := fun dev s' more few' =>
          ih dev few' (by omega)
        let t := found.2.setDev dev { found.2.usb_dev dev with config }
        exact (exact_hubConfigure (s := t) well kept.1 kept.2 dev).bind fun s' within =>
          ⟨Nat.le_trans kept.1 within.1, within.2⟩
      · exact kept

lemma exact_scanDevices (hub_dev : Nat → UsbHubDevice) :
    Exact Ok (fun _ => True) (usbScanDevices hub_dev) := by
  obtain ⟨dev, s, allocated, one⟩ : ∃ dev s,
      usbAllocNewDevice ⟨fun _ => unknown, 0, hub_dev, 0⟩ = some (dev, s) ∧ s.dev_index = 1 :=
    ⟨_, _, if_neg (show 0 ≠ usbMaxDevice by decide), rfl⟩
  unfold usbScanDevices
  rw [allocated]
  refine (exact_newDevice usbMaxDevice dev ?_ ?_).mono fun r _ => trivial
  · rw [one]
    decide
  · rw [one]
    decide

/-- The enumeration returns, with all its stores in place, if and only if every new device finds
room behind its hub and among the devices, and every descriptor fits. -/
theorem scan_returns_iff (hub_dev : Nat → UsbHubDevice) (replies : Nat → Reply) :
    Returns (usbScanDevices hub_dev) replies ↔
      ∀ n, Runs.StepsMeet step (Meets Ok) (usbScanDevices hub_dev) (first replies n) :=
  returns_iff (exact_scanDevices hub_dev) replies

/-! ### A hub with 16 ports -/

def hubConfiguration : Bytes := fun a =>
  [9, 2, 25, 0, 1, 1, 0, 0xe0, 0, 9, 4, 0, 0, 1, 9, 0, 0, 0, 7, 5, 0x81, 3, 2, 0, 255].getD a 0

def sixteenPorts : Bytes := fun a =>
  [13, 0x29, 16, 0, 0, 50, 0, 0, 0, 0, 0xff, 0xff, 0xff].getD a 0

def largeHub (i : Nat) : Reply :=
  [⟨18, fun _ => 0, false⟩, ⟨0, fun _ => 0, false⟩, ⟨18, fun _ => 0, false⟩,
    ⟨9, hubConfiguration, false⟩, ⟨25, hubConfiguration, false⟩, ⟨0, fun _ => 0, false⟩,
    ⟨4, sixteenPorts, false⟩, ⟨13, sixteenPorts, false⟩].getD i ⟨-1, fun _ => 0, false⟩

theorem largeHub_overruns : ¬Returns (usbScanDevices fun _ => ⟨none, fun _ => 0⟩) largeHub :=
  not_returns_of_fault (n := 8) (e := .copy) (by rfl)

end UsbScan
