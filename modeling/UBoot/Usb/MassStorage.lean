import UBoot.Lib.ByteOrder
import UBoot.Lib.Memory32
import Mathlib.Data.Fin.Basic

/-!
# Reading blocks from USB mass storage (common/usb_storage.c)

`usb_stor_read` over the bulk-only transport. A device is given by its blocks and by what it does
in each command: the status after each transfer and the bytes that it moves. `usb_bulk_msg` stores
and reports exactly these bytes. A reset changes nothing that is read here, and `cmdlen` is
always 12.
-/

namespace MassStorage

open Memory32 BigEndian

structure Csw where
  dCSWSignature : UInt32
  dCSWTag : UInt32
  dCSWDataResidue : UInt32
  bCSWStatus : UInt8

structure Conduct where
  cbw : UInt32                   -- `dev->status` after the CBW
  data : UInt32                  -- after the data phase
  count : Nat                    -- the bytes that are moved in it, if that many are asked for
  sense : Nat → UInt8            -- the bytes, if the command is not READ(10)
  clearData : UInt32             -- after the stall of the data phase was cleared
  csw : UInt32 × Csw             -- after the status phase, with what is then in `csw`
  clearStatus : UInt32           -- after the stall of the status phase was cleared
  cswAgain : UInt32 × Csw        -- after the second status phase

/-- A device, with its behaviour for each CBW that was sent since the start. -/
structure Device where
  disk : UInt32 → Nat → UInt8
  conduct : Nat → Conduct

/-- `usb_dev`; `devnum` is -1 for an entry that is not in use. -/
structure Bus where
  devnum : Fin 32 → Int
  device : Fin 32 → Device

structure Desc where
  target : Int
  blksz : UInt32

inductive Pdata where
  | buffer (a : UInt32)
  | sense

/-- The memory of the caller, `usb_ccb`, the CBWs sent so far, whose number is the next `CBWTag`,
and the flag of common/usb.c. -/
structure State where
  mem : Mem
  sense_buf : Nat → UInt8
  cmd : List UInt8
  datalen : UInt32
  pdata : Pdata
  cbws : Nat
  asynch_allowed : Bool

def usDirections : List UInt8 :=
  [0x28, 0x81, 0x14, 0x14, 0x20, 0x01, 0x90, 0x77, 0x0c, 0x20, 0x00, 0x04, 0x00, 0x00, 0x00, 0x00,
    0x00, 0x00, 0x00, 0x00, 0x00, 0x01, 0x00, 0x01, 0x00, 0x00, 0x00, 0x00, 0x00, 0x00, 0x00, 0x00]

/-- `US_DIRECTION`: whether the data phase is IN. -/
def usDirection (x : UInt8) : Bool :=
  (usDirections.getD (x >>> 3).toNat 0 >>> (x &&& 7)) &&& 1 = 1

def SCSI_TST_U_RDY : UInt8 := 0x00
def SCSI_REQ_SENSE : UInt8 := 0x03
def SCSI_READ10 : UInt8 := 0x28

def stalled (status : UInt32) : Bool := status &&& 0x2 ≠ 0

def CSWSIGNATURE : UInt32 := 0x53425355

/-- The byte `k` of the blocks from `blknr` on. -/
def Device.byteFrom (dev : Device) (desc : Desc) (blknr : UInt32) (k : Nat) : UInt8 :=
  dev.disk (blknr + UInt32.ofNat (k / desc.blksz.toNat)) (k % desc.blksz.toNat)

/-- The data a device moves: for READ(10) the blocks from the one in the command on. -/
def answer (dev : Device) (desc : Desc) (c : Conduct) (cmd : List UInt8) (k : Nat) : UInt8 :=
  if cmd.getD 0 0 = SCSI_READ10 then dev.byteFrom desc (wordAt cmd 2) k else c.sense k

/-- `usb_bulk_msg` stores the bytes that come in. -/
def State.receive (s : State) (count : Nat) (byte : Nat → UInt8) : State :=
  match s.pdata with
  | .buffer a => { s with mem := copyBytes byte count 0 a s.mem }
  | .sense => { s with sense_buf := fun i => if i < count then byte i else s.sense_buf i }

/-- The data phase: `data_actlen`, unless the command fails here. A length that is negative as an
`int` is refused. -/
def dataPhase (dev : Device) (desc : Desc) (c : Conduct) (s : State) : Option Nat × State :=
  if s.datalen = 0 then (some 0, s)
  else if 2147483648 ≤ s.datalen.toNat then (none, s)
  else
    let data_actlen := min c.count s.datalen.toNat
    let s := if usDirection (s.cmd.getD 0 0) then s.receive data_actlen (answer dev desc c s.cmd)
      else s
    if c.data = 0 then (some data_actlen, s)
    else if stalled c.data ∧ c.clearData = 0 then (some data_actlen, s)
    else (none, s)

def statusPhase (c : Conduct) : Option Csw :=
  if c.csw.1 = 0 then some c.csw.2
  else if stalled c.csw.1 ∧ c.clearStatus = 0 ∧ c.cswAgain.1 = 0 then some c.cswAgain.2
  else none

/-- The checks of `csw`. The residue is computed there, but not used. -/
def cswResult (csw : Csw) (tag : UInt32) (data_actlen datalen : Nat) : Int :=
  if csw.dCSWSignature ≠ CSWSIGNATURE then -1
  else if csw.dCSWTag ≠ tag then -1
  else if 2 < csw.bCSWStatus then -1
  else if csw.bCSWStatus = 2 then -1
  else if datalen < data_actlen then -1
  else if csw.bCSWStatus = 1 then -1
  else 0

def bbbTransport (dev : Device) (desc : Desc) (s : State) : Int × State :=
  let c := dev.conduct s.cbws
  let tag := UInt32.ofNat s.cbws
  let s := { s with cbws := s.cbws + 1 }
  if c.cbw ≠ 0 then (-1, s)
  else
    let (data_actlen, s) := dataPhase dev desc c s
    match data_actlen with
    | none => (-1, s)
    | some n => match statusPhase c with
      | none => (-1, s)
      | some csw => (cswResult csw tag n s.datalen.toNat, s)

/-- The first 12 bytes of `srb->cmd` are written. -/
def State.setCmd (s : State) (cdb : List UInt8) : State := { s with cmd := cdb ++ s.cmd.drop 12 }

def usbRequestSense (dev : Device) (desc : Desc) (s : State) : State :=
  let ptr := s.pdata
  let s := { s.setCmd [SCSI_REQ_SENSE, 0, 0, 0, 18, 0, 0, 0, 0, 0, 0, 0] with
    datalen := 18, pdata := .sense }
  { (bbbTransport dev desc s).2 with pdata := ptr }

def usbTestUnitReady (dev : Device) (desc : Desc) : (retries : Nat) → State → Int × State
  | retries, s =>
    let (result, s) := bbbTransport dev desc
      { s.setCmd [SCSI_TST_U_RDY, 0, 0, 0, 0, 0, 0, 0, 0, 0, 0, 0] with datalen := 0 }
    if result = 0 then (0, s)
    else match retries with
      | 0 => (-1, usbRequestSense dev desc s)
      | retries + 1 => usbTestUnitReady dev desc retries (usbRequestSense dev desc s)

def read10 (start : UInt32) (blocks : UInt16) : List UInt8 :=
  [SCSI_READ10, 0] ++ bytes start ++
    [0, UInt8.ofNat (blocks.toNat / 256), UInt8.ofNat blocks.toNat, 0, 0, 0]

def usbRead10 (dev : Device) (desc : Desc) (s : State) (start : UInt32) (blocks : UInt16) :
    Int × State :=
  bbbTransport dev desc (s.setCmd (read10 start blocks))

def Desc.len (desc : Desc) (smallblks : Nat) : UInt32 := desc.blksz * UInt32.ofNat smallblks

def readChunk (dev : Device) (desc : Desc) (start : UInt32) (smallblks : Nat) (buf_addr : UInt32) :
    (retry : Nat) → State → Bool × State
  | retry, s =>
    let (result, s) := usbRead10 dev desc
      { s with datalen := desc.len smallblks, pdata := .buffer buf_addr } start
      (UInt16.ofNat smallblks)
    if result = 0 then (true, s)
    else match retry with
      | 0 => (false, usbRequestSense dev desc s)
      | retry + 1 => readChunk dev desc start smallblks buf_addr retry (usbRequestSense dev desc s)

/-- The loop of `usb_stor_read`: the blocks that are left, where it ends. USB_MAX_READ_BLK is
20. -/
def readLoop (dev : Device) (desc : Desc) (start : UInt32) (blks : Nat) (buf_addr : UInt32)
    (s : State) : Nat × State :=
  let smallblks := min 20 blks
  let (read, s) := readChunk dev desc start smallblks buf_addr 2 s
  if !read then (blks, s)
  else if blks - smallblks = 0 then (0, s)
  else readLoop dev desc (start + UInt32.ofNat smallblks) (blks - smallblks)
    (buf_addr + s.datalen) s
termination_by blks

/-- The search for the device stops at the first entry that has its number or is not in use. -/
def Bus.find (bus : Bus) (target : Int) : Option (Fin 32) :=
  match Fin.find? fun i => bus.devnum i = -1 ∨ bus.devnum i = target with
  | none => some (Fin.last 31)
  | some i => if bus.devnum i = -1 then none else some i

def usbStorRead (bus : Bus) (desc : Desc) (s : State) (blknr blkcnt buffer : UInt32) :
    UInt32 × State :=
  if blkcnt = 0 then (0, s)
  else match bus.find desc.target with
    | none => (0, s)
    | some d =>
      let dev := bus.device d
      let (result, s) := usbTestUnitReady dev desc 10 { s with asynch_allowed := false }
      if result ≠ 0 then (0, s)
      else
        let (blks, s) := readLoop dev desc blknr blkcnt.toNat buffer s
        (blkcnt - UInt32.ofNat blks, { s with asynch_allowed := true })

end MassStorage
