import Mathlib.Data.List.Basic
import Mathlib.Logic.Function.Basic

/-!
# The parser of configuration descriptors (common/usb.c)

`usb_parse_config` walks through the descriptors that a device has sent and copies them into the
tables of `dev->config`. Here it stops at the first access that is out of place: a read of the
buffer behind `wTotalLength`, an index behind a table, a copy that is longer than its structure.
-/

namespace ParseConfig

def usbMaxInterfaces : Nat := 8
def usbMaxEndpoints : Nat := 16

def usbDtConfig : UInt8 := 0x02
def usbDtInterface : UInt8 := 0x04
def usbDtEndpoint : UInt8 := 0x05

/-- `sizeof (struct usb_endpoint_descriptor)`, which is aligned to 2 -/
def endpointSize : Nat := 10

def interfaceSize : Nat := 172

def configSize : Nat := 1386

example : interfaceSize = 12 + usbMaxEndpoints * endpointSize ∧
    configSize = 10 + usbMaxInterfaces * interfaceSize := by decide

/-- The bytes of the buffer or of `dev->config`, by their offsets. -/
abbrev Bytes := Nat → UInt8

/-- `wTotalLength`, of a configuration descriptor in the buffer or in `dev->config`. -/
def wTotalLength (config : Bytes) : Nat := (config 2).toNat + 256 * (config 3).toNat

def noOfIf : Nat := 9

def ifDesc (ifno : Nat) : Nat := 10 + 172 * ifno

def epDesc (ifno epno : Nat) : Nat := ifDesc ifno + 12 + 10 * epno

inductive Fault where
  | read
  | table
  | copy
  deriving DecidableEq

def readByte (buffer : Bytes) (index : Nat) : Except Fault UInt8 :=
  if index < wTotalLength buffer then .ok (buffer index) else .error .read

/-- `memcpy`, of `len` bytes of the buffer from `index` on. -/
def copied (config : Bytes) (place : Nat) (buffer : Bytes) (index len : Nat) : Bytes := fun a =>
  if place ≤ a ∧ a < place + len then buffer (index + (a - place)) else config a

/-- `memcpy (place, &buffer[index], buffer[index])`, into a structure of `size` bytes. -/
def copyDescriptor (buffer config : Bytes) (place size index : Nat) : Except Fault Bytes :=
  let len := (buffer index).toNat
  if wTotalLength buffer < index + len then .error .read
  else if size < len then .error .copy
  else .ok (copied config place buffer index len)

/-- `dev->config` and the variables of the loop. -/
structure Walk where
  config : Bytes
  index : Nat
  ifno : Int
  currIfNum : Int

def newInterface (buffer : Bytes) (w : Walk) : Except Fault Walk :=
  let ifno := (w.config noOfIf).toNat
  let config := Function.update w.config noOfIf (w.config noOfIf + 1)
  if ifno < usbMaxInterfaces then
    (copyDescriptor buffer config (ifDesc ifno) interfaceSize w.index).map fun config =>
      let config := Function.update config (ifDesc ifno + 9) 0
      let config := Function.update config (ifDesc ifno + 10) 1
      { w with config, ifno, currIfNum := (config (ifDesc ifno + 2)).toNat }
  else .error .table

/-- "found alternate setting for the interface" -/
def alternateSetting (w : Walk) : Except Fault Walk :=
  if 0 ≤ w.ifno ∧ w.ifno < usbMaxInterfaces then
    let numAltsetting := ifDesc w.ifno.toNat + 10
    .ok { w with
      config := Function.update w.config numAltsetting (w.config numAltsetting + 1) }
  else .error .table

def newEndpoint (buffer : Bytes) (w : Walk) : Except Fault Walk :=
  if 0 ≤ w.ifno ∧ w.ifno < usbMaxInterfaces then
    let noOfEp := ifDesc w.ifno.toNat + 9
    let epno := (w.config noOfEp).toNat
    let config := Function.update w.config noOfEp (w.config noOfEp + 1)
    if epno < usbMaxEndpoints then
      (copyDescriptor buffer config (epDesc w.ifno.toNat epno) endpointSize w.index).map
        fun config => { w with config }
    else .error .table
  else .error .table

def Walk.forward (buffer : Bytes) (w : Walk) : Walk :=
  { w with index := w.index + (buffer w.index).toNat }

def body (buffer : Bytes) (w : Walk) : Except Fault (Option Walk) :=
  (readByte buffer (w.index + 1)).bind fun bDescriptorType =>
    if bDescriptorType = usbDtInterface then
      (readByte buffer (w.index + 2)).bind fun bInterfaceNumber =>
        let found := if bInterfaceNumber.toNat ≠ w.currIfNum then newInterface buffer w
          else alternateSetting w
        found.map fun w => some (w.forward buffer)
    else if bDescriptorType = usbDtEndpoint then
      (newEndpoint buffer w).map fun w => some (w.forward buffer)
    else if buffer w.index = 0 then .ok none
    else .ok (some (w.forward buffer))

/-- The loop: `dev->config` in the end, `none` when the fuel is used up. -/
def parseLoop (buffer : Bytes) : (fuel : Nat) → Walk → Option (Except Fault Bytes)
  | 0, _ => none
  | fuel + 1, w =>
    if w.index + 1 < wTotalLength w.config then
      match body buffer w with
      | .error fault => some (.error fault)
      | .ok none => some (.ok w.config)
      | .ok (some w) => parseLoop buffer fuel w
    else some (.ok w.config)

def firstConfig (buffer config : Bytes) : Bytes :=
  Function.update (copied config 0 buffer 0 (buffer 0).toNat) noOfIf 0

/-- `usb_parse_config`: what it returns, and `dev->config`. -/
def usbParseConfig (fuel : Nat) (buffer config : Bytes) : Option (Except Fault (Int × Bytes)) :=
  match readByte buffer 1 with
  | .error fault => some (.error fault)
  | .ok bDescriptorType =>
    if bDescriptorType ≠ usbDtConfig then some (.ok (-1, config))
    else
      match copyDescriptor buffer config 0 configSize 0 with
      | .error fault => some (.error fault)
      | .ok config =>
        let config := Function.update config noOfIf 0
        (parseLoop buffer fuel ⟨config, (config 0).toNat, -1, -1⟩).map fun r =>
          r.map fun config => (1, config)

/-- The interfaces and endpoints that `usb_set_maxpacket` visits. -/
def visited (config : Bytes) : List (Nat × Nat) :=
  (List.range (config 4).toNat).flatMap fun i =>
    (List.range (config (ifDesc i + 4)).toNat).map fun ii => (i, ii)

end ParseConfig
