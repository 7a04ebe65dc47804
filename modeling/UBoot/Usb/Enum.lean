import UBoot.Lib.Runs

/-!
# Endpoint 0 of the USB slave (drivers/usb/slave/usbenum.c, CONFIG_USB_UART)

`Ep0Handler` and the request handlers below it. Every packet is put and sent by one call, so
the bytes a call puts are the packet it sends.
-/

namespace Usb

def ep0MaxPacketSize : Nat := 8

inductive Ep0State where
  | idle
  | tx
  | txConfig
  | rx
  | status
  | stall
deriving DecidableEq

/-- A `tConfigHeader`; the first section holds the configuration descriptor itself. -/
structure Config where
  sections : List (List UInt8)
  count : sections.length < 256
  sizes : ∀ sec ∈ sections, sec.length < 65536
  first : ∃ sec rest, sections = sec :: rest ∧ 9 ≤ sec.length

/-- A `tDeviceInfo`; `bLength` is the first byte, `bNumConfigurations` byte 17. -/
structure Device where
  device : List UInt8
  configs : List Config
  strings : List (List UInt8)
  length_byte : device[0]?.map UInt8.toNat = some device.length
  num_configurations : device[17]?.map UInt8.toNat = some configs.length
  string_lengths : ∀ str ∈ strings, str[0]?.map UInt8.toNat = some str.length

inductive Place where
  | device
  | string (i : Nat)
  | section (config i : Nat)
  | lineCoding                   -- `sLineCoding`, a local of one call
deriving DecidableEq

structure Pointer where
  place : Place
  offset : Nat
deriving DecidableEq

def Pointer.advance (n : Nat) (p : Pointer) : Pointer := { p with offset := p.offset + n }

/-- The object at a place; `coding` is the line coding while its call lasts. -/
def Device.contents (dev : Device) (coding : Option (List UInt8)) : Place → Option (List UInt8)
  | .device => some dev.device
  | .string i => dev.strings[i]?
  | .section config i => dev.configs[config]?.bind (fun cfg => cfg.sections[i]?)
  | .lineCoding => coding

inductive Fault where
  | index (i : Nat)                                     -- outside its table
  | read (source : Option Pointer) (count : Nat)        -- bytes of no live object
  | store (target : Option Pointer) (bytes : List UInt8) -- received into no buffer
  | endless
deriving DecidableEq

structure Packet where
  bytes : List UInt8
  last : Bool                    -- EP0_DATA_END
deriving DecidableEq

structure State where
  ep0State : Ep0State
  ep0Data : Option Pointer
  ep0DataRemain : Nat
  outDataSize : Nat
  configuration : Nat
  configIndex : Nat
  configSection : Nat
  sectionOffset : Nat
  funcAddr : Nat
  acks : List Bool
  sent : List Packet
deriving DecidableEq

def init : State :=
  { ep0State := .idle, ep0Data := none, ep0DataRemain := 0, outDataSize := 0, configuration := 1,
    configIndex := 0, configSection := 0, sectionOffset := 0, funcAddr := 0, acks := [], sent := [] }

def dataAck (s : State) (last : Bool) : State := { s with acks := s.acks ++ [last] }

/-- `USBEndpointDataSend` of the bytes put in this call. -/
def dataSend (s : State) (bytes : List UInt8) (last : Bool) : State :=
  { s with sent := s.sent ++ [⟨bytes, last⟩] }

def stallEp0 (s : State) : State := { s with ep0State := .idle }

def dataPut (dev : Device) (coding : Option (List UInt8)) (source : Option Pointer) (count : Nat) :
    Except Fault (List UInt8) :=
  if count = 0 then .ok []
  else match source with
    | none => .error (.read source count)
    | some p => match dev.contents coding p.place with
      | none => .error (.read source count)
      | some bytes =>
        if p.offset + count ≤ bytes.length then .ok ((bytes.drop p.offset).take count)
        else .error (.read source count)

/-- `USBEndpointDataGet` through `pEP0Data`. No request gives it a buffer: it is null, in a
descriptor, or left over from the line coding of an earlier call. -/
def dataGet (target : Option Pointer) (bytes : List UInt8) : Except Fault Unit :=
  if bytes = [] then .ok () else .error (.store target bytes)

def stateRx (s : State) (fifo : Nat → UInt8) : Except Fault State := do
  let numBytes := min s.ep0DataRemain ep0MaxPacketSize
  dataGet s.ep0Data ((List.range numBytes).map fifo)
  let t := { s with
    ep0State := .rx
    ep0Data := s.ep0Data.map (Pointer.advance numBytes)
    ep0DataRemain := s.ep0DataRemain - numBytes }
  if s.ep0DataRemain < ep0MaxPacketSize then .ok { dataAck t true with ep0State := .idle }
  else .ok (dataAck t false)

def finish (s : State) (numBytes : Nat) (bytes : List UInt8) : State :=
  if numBytes = ep0MaxPacketSize then dataSend s bytes false
  else { dataSend s bytes true with ep0State := .idle }

def txState (s : State) (numBytes : Nat) : State :=
  { s with
    ep0State := .tx
    ep0Data := s.ep0Data.map (Pointer.advance numBytes)
    ep0DataRemain := s.ep0DataRemain - numBytes }

def stateTx (dev : Device) (coding : Option (List UInt8)) (s : State) : Except Fault State := do
  let numBytes := min s.ep0DataRemain ep0MaxPacketSize
  let bytes ← dataPut dev coding s.ep0Data numBytes
  .ok (finish (txState s numBytes) numBytes bytes)

def Config.size (cfg : Config) : Nat := cfg.sections.foldl (fun len sec => len + sec.length) 0

/-- `wTotalLength`, an `unsigned short` at byte 2. -/
def patch (total : Nat) (header : List UInt8) : List UInt8 :=
  (header.set 2 (UInt8.ofNat total)).set 3 (UInt8.ofNat (total / 256))

/-- The variables of `USBDEP0StateTxConfig` that its loop changes. -/
structure Filling where
  put : List UInt8
  toSend : Nat
  configSection : Nat
  sectionOffset : Nat

def putHeader (dev : Device) (cfg : Config) (s : State) (numBytes : Nat) :
    Except Fault Filling := do
  let count := min numBytes 9
  let header ← dataPut dev none s.ep0Data count
  let rest := numBytes - count
  if cfg.sections[0]?.map List.length = some count then
    .ok ⟨patch cfg.size header, rest, 1, 0⟩
  else .ok ⟨patch cfg.size header, rest, s.configSection, count⟩

/-- One round: part of one section. `ucConfigSection` and `ucSectionOffset` are bytes; with an
offset past the end of the section its rest wraps to a huge number. -/
def putSection (cfg : Config) (f : Filling) : Except Fault Filling :=
  match cfg.sections[f.configSection]? with
  | none => .error (.index f.configSection)
  | some sec =>
    if sec.length < f.sectionOffset then .error (.read none f.toSend)
    else
      let secBytes := min (sec.length - f.sectionOffset) f.toSend
      let put := f.put ++ (sec.drop f.sectionOffset).take secBytes
      let offset := (f.sectionOffset + secBytes) % 256
      if offset = sec.length then .ok ⟨put, f.toSend - secBytes, (f.configSection + 1) % 256, 0⟩
      else .ok ⟨put, f.toSend - secBytes, f.configSection, offset⟩

def putSections (cfg : Config) : Nat → Filling → Except Fault Filling
  | 0, _ => .error .endless
  | fuel + 1, f =>
    if f.toSend = 0 then .ok f
    else match putSection cfg f with
      | .error e => .error e
      | .ok g => putSections cfg fuel g

def fillPacket (dev : Device) (fuel : Nat) (cfg : Config) (s : State) (numBytes : Nat) :
    Except Fault Filling := do
  if s.sectionOffset = 0 ∧ s.configSection = 0 then
    let f ← putHeader dev cfg s numBytes
    putSections cfg fuel f
  else putSections cfg fuel ⟨[], numBytes, s.configSection, s.sectionOffset⟩

def txConfigState (cfg : Config) (s : State) (f : Filling) (numBytes : Nat) : State :=
  let remain := if cfg.sections.length ≤ f.configSection then 0 else s.ep0DataRemain - numBytes
  { s with
    ep0State := .txConfig
    configSection := f.configSection
    sectionOffset := f.sectionOffset
    ep0DataRemain := remain
    ep0Data :=
      if remain = 0 then s.ep0Data
      else some ⟨.section s.configIndex f.configSection, f.sectionOffset⟩ }

def stateTxConfig (dev : Device) (fuel : Nat) (s : State) : Except Fault State :=
  match dev.configs[s.configIndex]? with
  | none => .error (.index s.configIndex)
  | some cfg => do
    let numBytes := min s.ep0DataRemain ep0MaxPacketSize
    let f ← fillPacket dev fuel cfg s numBytes
    .ok (finish (txConfigState cfg s f numBytes) numBytes f.put)

structure Request where
  requestType : Nat
  request : Nat
  value : Nat
  length : Nat

def Request.ofBytes (bytes : Nat → UInt8) : Request :=
  { requestType := (bytes 0).toNat
    request := (bytes 1).toNat
    value := (bytes 2).toNat + 256 * (bytes 3).toNat
    length := (bytes 6).toNat + 256 * (bytes 7).toNat }

/-- The standard requests have bits 5 and 6 of `bmRequestType` clear. -/
def Request.isStandard (req : Request) : Bool := req.requestType / 32 % 4 == 0

def lengthByte (bytes : List UInt8) : Nat := (bytes[0]?.getD 0).toNat

def limit (s : State) (req : Request) : State :=
  { s with ep0DataRemain := min s.ep0DataRemain req.length }

def getDescriptor (dev : Device) (fuel : Nat) (s : State) (req : Request) : Except Fault State :=
  let s := dataAck s false
  let index := req.value % 256
  match req.value / 256 with
  | 1 => stateTx dev none (limit { s with
      ep0Data := some ⟨.device, 0⟩, ep0DataRemain := lengthByte dev.device } req)
  | 2 =>
    if ((dev.device[17]?.getD 0).toNat ≤ index) then
      .ok { stallEp0 s with ep0Data := none, ep0DataRemain := 0 }
    else match dev.configs[index]? with
      | none => .error (.index index)
      | some cfg => stateTxConfig dev fuel (limit { s with
          configSection := 0, sectionOffset := 0, ep0Data := some ⟨.section index 0, 0⟩,
          ep0DataRemain := cfg.size, configIndex := index } req)
  | 3 => match dev.strings[index]? with
    | none => .error (.index index)
    | some str => stateTx dev none (limit { s with
        ep0Data := some ⟨.string index, 0⟩, ep0DataRemain := lengthByte str } req)
  | _ => .ok (stallEp0 s)

def setAddress (s : State) (req : Request) : State :=
  { dataAck s true with funcAddr := (req.value ||| 0x80) % 256, ep0State := .idle }

def setConfiguration (dev : Device) (s : State) (req : Request) : State :=
  if (dev.device[17]?.getD 0).toNat < req.value then stallEp0 (dataAck s true)
  else { dataAck s true with configuration := req.value, ep0State := .idle }

/-- The table `g_psUSBDStdRequests`; requests 0, 1, 3, 7, 8, 10, 11 and 12 only print. -/
def standardRequest (dev : Device) (fuel : Nat) (s : State) (req : Request) :
    Except Fault State :=
  match req.request with
  | 5 => .ok (setAddress s req)
  | 6 => getDescriptor dev fuel s req
  | 9 => .ok (setConfiguration dev s req)
  | n => if n = 2 ∨ n = 4 ∨ 13 ≤ n then .ok (stallEp0 s) else .ok s

def lineCoding : List UInt8 := [0x00, 0xc2, 0x01, 0x00, 0, 0, 8]

def classRequest (dev : Device) (s : State) (req : Request) : Except Fault State :=
  match req.request with
  | 0x20 => .ok (dataAck { s with
      ep0State := .rx, outDataSize := req.length, ep0DataRemain := req.length } false)
  | 0x21 => stateTx dev (some lineCoding) (dataAck { s with
      ep0Data := some ⟨.lineCoding, 0⟩, ep0DataRemain := 7, outDataSize := 7 } false)
  | 0x22 => .ok (dataAck { s with ep0State := .idle } true)
  | _ => .ok (stallEp0 s)

def readAndDispatchRequest (dev : Device) (fuel : Nat) (s : State) (fifo : Nat → UInt8) :
    Except Fault State :=
  let req := Request.ofBytes fifo
  if req.isStandard then standardRequest dev fuel s req else classRequest dev s req

/-- What an interrupt finds in EP0_CSR and in the FIFO. -/
structure Interrupt where
  setupEnd : Bool
  sentStall : Bool
  outPktReady : Bool
  fifo : Nat → UInt8

def abandon (s : State) (i : Interrupt) : State :=
  { (if i.outPktReady then dataAck s false else s) with ep0State := .idle }

def ep0Handler (dev : Device) (fuel : Nat) (s : State) (i : Interrupt) : Except Fault State :=
  if i.setupEnd then .ok (abandon s i)
  else if i.sentStall then .ok (abandon s i)
  else match s.ep0State with
    | .idle => if i.outPktReady then readAndDispatchRequest dev fuel s i.fifo else .ok s
    | .tx => stateTx dev none s
    | .txConfig => stateTxConfig dev fuel s
    | .rx => stateRx s i.fifo
    | .stall => if i.sentStall then .ok (stallEp0 s) else .ok s
    | .status => .ok s

def step (dev : Device) (fuel : Nat) (s : State) (i : Interrupt) : Option State :=
  (ep0Handler dev fuel s i).toOption

end Usb
