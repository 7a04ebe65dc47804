import UBoot.Lib.Runs
import Mathlib.Algebra.GroupWithZero.Nat
import Mathlib.Data.List.FinRange
import Mathlib.Logic.Function.Basic

/-!
# The OHCI host controller driver (cpu/arm920t/s3c24x0/usb_ohci.c)

`submit_common_msg` and what it calls, one step for the submit and one for each turn of the
polling loop; between them the controller retires descriptors and hands over its done list.
Data toggles and the chain of the EDs are left out. `devgone` is never set.
-/

namespace Ohci

-- for the numerals of the index types
scoped instance neZero_16 : NeZero 16 := ⟨Nat.succ_ne_zero 15⟩
scoped instance neZero_32 : NeZero 32 := ⟨Nat.succ_ne_zero 31⟩
scoped instance neZero_64 : NeZero 64 := ⟨Nat.succ_ne_zero 63⟩

/-- A pointer into `ptd`, which has NUM_TD entries. -/
abbrev TdPtr := Option (Fin 64)

/-- `struct td`; `cc` is the condition code in `hwINFO`. -/
structure Td where
  cc : Fin 16
  hwCBP : UInt32
  hwNextTD : TdPtr
  hwBE : UInt32
  index : UInt8
  ed : Fin 32
  usb_dev : Bool                 -- not null
  data : UInt32
deriving DecidableEq

inductive EdState where
  | new
  | unlink
  | oper
  | del
  | urbDel
deriving DecidableEq

/-- `struct ed`; `halted` is bit 0 of `hwHeadP`. -/
structure Ed where
  hwTailP : TdPtr
  hwHeadP : TdPtr
  halted : Bool
  state : EdState
deriving DecidableEq

structure UrbPriv where
  ed : Fin 32
  length : UInt16
  td_cnt : UInt16
  control : Bool                 -- `usb_pipecontrol (pipe)`
  actual_length : UInt32
  td : Nat → TdPtr

/-- NUM_EDS. The entries of `ed` from here on are what lies behind `ohci_dev.ed`. -/
def numEds : Nat := 8

/-- The globals of the driver, `hcca.done_head` with its bit 0, and the controller's own list
of what it has retired. -/
structure State where
  td : Fin 64 → Td
  ed : Fin 32 → Ed
  urb : UrbPriv
  urb_finished : Bool
  disabled : Nat
  done_head : TdPtr
  done_other : Bool
  hcDoneHead : TdPtr

def State.setTd (s : State) (t : Fin 64) (d : Td) : State :=
  { s with td := Function.update s.td t d }

def State.setEd (s : State) (e : Fin 32) (d : Ed) : State :=
  { s with ed := Function.update s.ed e d }

def State.setUrbTd (s : State) (i : Nat) (t : TdPtr) : State :=
  { s with urb := { s.urb with td := Function.update s.urb.td i t } }

def State.init : State where
  td := fun _ => ⟨0, 0, none, 0, 0, 0, false, 0⟩
  ed := fun _ => ⟨none, none, false, .new⟩
  urb := ⟨0, 0, 0, false, 0, fun _ => none⟩
  urb_finished := true
  disabled := 0
  done_head := none
  done_other := false
  hcDoneHead := none

def tdAlloc (s : State) : TdPtr := (List.finRange 64).find? fun i => !(s.td i).usb_dev

def State.setOwner (s : State) (t : Fin 64) (owned : Bool) : State :=
  s.setTd t { s.td t with usb_dev := owned }

@[simp] lemma setTd_self (s : State) (t : Fin 64) (d : Td) : (s.setTd t d).td t = d := by
  simp [State.setTd]

@[simp] lemma setTd_ne (s : State) {t i : Fin 64} (d : Td) (other : i ≠ t) :
    (s.setTd t d).td i = s.td i := by
  simp [State.setTd, other]

@[simp] lemma setEd_self (s : State) (e : Fin 32) (d : Ed) : (s.setEd e d).ed e = d := by
  simp [State.setEd]

@[simp] lemma setEd_ne (s : State) {e i : Fin 32} (d : Ed) (other : i ≠ e) :
    (s.setEd e d).ed i = s.ed i := by
  simp [State.setEd, other]

@[simp] lemma setTd_ed (s : State) (t : Fin 64) (d : Td) : (s.setTd t d).ed = s.ed := rfl

@[simp] lemma setTd_urb (s : State) (t : Fin 64) (d : Td) : (s.setTd t d).urb = s.urb := rfl

@[simp] lemma setEd_td (s : State) (e : Fin 32) (d : Ed) : (s.setEd e d).td = s.td := rfl

@[simp] lemma setEd_urb (s : State) (e : Fin 32) (d : Ed) : (s.setEd e d).urb = s.urb := rfl

@[simp] lemma setUrbTd_self (s : State) (i : Nat) (t : TdPtr) :
    (s.setUrbTd i t).urb.td i = t := by
  simp [State.setUrbTd]

@[simp] lemma setUrbTd_ne (s : State) {i j : Nat} (t : TdPtr) (other : j ≠ i) :
    (s.setUrbTd i t).urb.td j = s.urb.td j := by
  simp [State.setUrbTd, other]

lemma owner_setOwner (s : State) (t i : Fin 64) (owned : Bool) :
    ((s.setOwner t owned).td i).usb_dev = if i = t then owned else (s.td i).usb_dev := by
  by_cases here : i = t
  · subst here
    rw [if_pos rfl, State.setOwner, setTd_self]
  · rw [if_neg here, State.setOwner, setTd_ne s _ here]

structure Call where
  endpoint : Fin 16
  control : Bool
  out : Bool
  maxsize : Nat                  -- `usb_maxpacket (dev, pipe)`
  buffer : UInt32
  transfer_len : Nat
  setup : UInt32

def Call.edIndex (c : Call) : Fin 32 :=
  ⟨2 * c.endpoint + (if c.control then 0 else if c.out then 1 else 0), by
    have := c.endpoint.isLt
    split
    · omega
    · split <;> omega⟩

def Call.size (c : Call) : Nat :=
  if c.control then if c.transfer_len = 0 then 2 else (c.transfer_len - 1) / 4096 + 3
  else (c.transfer_len - 1) / 4096 + 1

def epAddEd (s : State) (c : Call) : Option State :=
  let ed := s.ed c.edIndex
  if ed.state = .del ∨ ed.state = .urbDel then none
  else if ed.state = .new then
    let td := tdAlloc s
    let s := match td with
      | some t => s.setOwner t true
      | none => s
    some (s.setEd c.edIndex { hwTailP := td, hwHeadP := td, halted := false, state := .unlink })
  else some s

def takeTd (s : State) (i : Nat) : Option State :=
  (tdAlloc s).map fun t => (s.setOwner t true).setUrbTd i (some t)

def freeTd (s : State) (i : Nat) : State :=
  match s.urb.td i with
  | some t => (s.setOwner t false).setUrbTd i none
  | none => s

def urbFreePriv (s : State) : State := (List.range s.urb.length.toNat).foldl freeTd s

structure Job where
  accepted : Bool
  state : State

/-- The loop that allocates the TDs from the `i`-th on. -/
def allocTds : (left i : Nat) → State → Job
  | 0, _, s => ⟨true, s⟩
  | left + 1, i, s =>
    match takeTd s i with
    | some s => allocTds left (i + 1) s
    | none => ⟨false, urbFreePriv { s with urb := { s.urb with length := UInt16.ofNat i } }⟩

/-- `td_fill`. There is a dummy and a TD for each index. -/
def tdFill (s : State) (data : UInt32) (len index : Nat) : State :=
  if s.urb.length.toNat < index then s
  else match s.urb.td index, (s.ed s.urb.ed).hwTailP with
    | some td_pt, some td =>
      let s := s.setTd td_pt { s.td td_pt with hwNextTD := none }
      let s := s.setUrbTd index (some td)
      let cbp := if len = 0 then 0 else data
      let be := if cbp = 0 then 0 else cbp + UInt32.ofNat len - 1
      let s := s.setTd td { s.td td with
        ed := s.urb.ed, index := UInt8.ofNat index, data := data, cc := 15, hwCBP := cbp,
        hwBE := be, hwNextTD := some td_pt }
      s.setEd s.urb.ed { s.ed s.urb.ed with hwTailP := some td_pt }
    | _, _ => s

/-- The TDs of a bulk transfer: the loop ends before `left` does. -/
def fillBulk : (left : Nat) → State → (data : UInt32) → (data_len cnt : Nat) → State
  | 0, s, data, data_len, cnt => tdFill s data data_len cnt
  | left + 1, s, data, data_len, cnt =>
    if 4096 < data_len then
      fillBulk left (tdFill s data 4096 cnt) (data + 4096) (data_len - 4096) (cnt + 1)
    else tdFill s data data_len cnt

def tdSubmitJob (s : State) (c : Call) : State :=
  let s := { s with urb := { s.urb with td_cnt := 0 } }
  let data := if c.transfer_len = 0 then 0 else c.buffer
  if c.control then
    let s := tdFill s c.setup 8 0
    if 0 < c.transfer_len then tdFill (tdFill s data c.transfer_len 1) data 0 2
    else tdFill s data 0 1
  else fillBulk c.transfer_len s data c.transfer_len 0

def epLink (s : State) (e : Fin 32) : State := s.setEd e { s.ed e with state := .oper }

def fillPriv (s : State) (c : Call) : State :=
  { s with urb := { s.urb with
      control := c.control, length := UInt16.ofNat c.size, ed := c.edIndex, actual_length := 0 } }

def allocAndFill (s : State) (c : Call) : Job :=
  let job := allocTds c.size 0 (fillPriv s c)
  if !job.accepted then job
  else if (job.state.ed c.edIndex).state = .new ∨ (job.state.ed c.edIndex).state = .del then
    ⟨false, urbFreePriv job.state⟩
  else if (job.state.ed c.edIndex).state ≠ .oper then
    ⟨true, tdSubmitJob (epLink job.state c.edIndex) c⟩
  else ⟨true, tdSubmitJob job.state c⟩

def sohciSubmitJob (s : State) (c : Call) : Job :=
  if s.disabled ≠ 0 then ⟨false, s⟩
  else if !s.urb_finished then ⟨false, s⟩
  else
    let s := { s with urb_finished := false }
    match epAddEd s c with
    | none => ⟨false, s⟩
    | some s => if 47 ≤ c.size then ⟨false, s⟩ else allocAndFill s c

def ccToError (cc : Fin 16) : Int :=
  [0, 0x20, 0x40, 0x20, 0x02, -1, 0x40, 0x40, 0x04, 0x04, -1, -1, 0x04, 0x04, -1, -1].getD cc 0

/-- The TDs of a done list, newest first; `none` for a list that does not end. -/
def doneChain (s : State) : (left : Nat) → TdPtr → Option (List (Fin 64))
  | _, none => some []
  | 0, some _ => none
  | left + 1, some t => (doneChain s left (s.td t).hwNextTD).map (t :: ·)

/-- What `dl_reverse_done_list` does for a TD: behind a halted one the rest is cut off. -/
def reverseTd (s : State) (t : Fin 64) : State :=
  let td := s.td t
  let ed := s.ed td.ed
  if td.cc ≠ 0 ∧ ed.halted then
    if td.index.toNat + 1 < s.urb.length.toNat then
      let last := s.urb.td (s.urb.length.toNat - 1)
      let head := match last with
        | some l => (s.td l).hwNextTD
        | none => none
      { s.setEd td.ed { ed with hwHeadP := head, halted := false } with
        urb := { s.urb with
          td_cnt := s.urb.td_cnt + (s.urb.length - td.index.toUInt16 - 1) } }
    else s.setEd td.ed { ed with halted := false }
  else s

def State.taken (s : State) : State := { s with done_head := none, done_other := false }

/-- `dl_reverse_done_list`: the TDs in the order in which they were retired. -/
def dlReverseDoneList (s : State) : Option (List (Fin 64) × State) :=
  (doneChain s 64 s.done_head).map fun chain => (chain.reverse, chain.foldl reverseTd s.taken)

def Td.moved (td : Td) : UInt32 :=
  if td.hwBE = 0 then 0
  else if td.hwCBP = 0 then td.hwBE - td.data + 1 else td.hwCBP - td.data

def dlTransferLength (s : State) (td : Td) : State :=
  if s.urb.control ∧ (td.index.toNat = 0 ∨ td.index.toNat + 1 = s.urb.length.toNat) then s
  else { s with urb := { s.urb with actual_length := s.urb.actual_length + td.moved } }

/-- `++(lurb_priv->td_cnt) == lurb_priv->length` -/
def countTd (s : State) (e : Fin 32) : State :=
  let urb := { s.urb with td_cnt := s.urb.td_cnt + 1 }
  if urb.td_cnt = urb.length ∧ ((s.ed e).state = .oper ∨ (s.ed e).state = .unlink) then
    { s with urb, urb_finished := true }
  else { s with urb }

def unlinkIdle (s : State) (e : Fin 32) : State :=
  if (s.ed e).hwHeadP = (s.ed e).hwTailP ∧ (s.ed e).state = .oper then
    s.setEd e { s.ed e with state := .unlink }
  else s

def doneTd (s : State) (t : Fin 64) : State :=
  unlinkIdle (countTd (dlTransferLength s (s.td t)) (s.td t).ed) (s.td t).ed

def lastError (s : State) (tds : List (Fin 64)) : Int :=
  tds.foldl (fun stat t => if (s.td t).cc ≠ 0 then ccToError (s.td t).cc else stat) 0

def dlDoneList (s : State) (tds : List (Fin 64)) : Int × State :=
  (lastError s tds, tds.foldl doneTd s)

def intrSO : UInt32 := 0x01
def intrWDH : UInt32 := 0x02
def intrSF : UInt32 := 0x04
def intrUE : UInt32 := 0x10
def intrRHSC : UInt32 := 0x40

/-- What `hc_start` enables; it is disabled only while it is served. -/
def intrenable : UInt32 := intrRHSC ||| intrUE ||| intrWDH ||| intrSO

/-- `ints` of `hc_interrupt`, where the register is not all ones. -/
def pending (s : State) (intrstatus : UInt32) : UInt32 :=
  if s.done_head ≠ none ∧ !s.done_other then intrWDH else intrstatus &&& intrenable

/-- `hc_interrupt` when there is something to serve. -/
def serve (s : State) (ints : UInt32) : Option (Int × State) :=
  if ints &&& intrUE ≠ 0 then some (-1, { s with disabled := s.disabled + 1 })
  else
    let listed := if ints &&& intrWDH ≠ 0 then
        (dlReverseDoneList s).map fun (tds, s) => dlDoneList s tds
      else some (if ints &&& intrRHSC ≠ 0 then 0xff else -1, s)
    listed.map fun (stat, s) =>
      (if ints &&& intrSF ≠ 0 then 0xff else if ints &&& intrSO ≠ 0 then -1 else stat, s)

def hcInterrupt (s : State) (intrstatus : UInt32) : Option (Int × State) :=
  if ¬(s.done_head ≠ none ∧ !s.done_other) ∧ intrstatus = 0xffffffff then
    some (-1, { s with disabled := s.disabled + 1 })
  else if pending s intrstatus = 0 then some (0xff, s)
  else serve s (pending s intrstatus)

/-- The controller retires the first TD of an ED, of which it has moved so many bytes, with a
code that is not one of the two for "not accessed"; or it writes its done list to the HCCA, with
a note whether there are other interrupts. -/
inductive HcAct where
  | retire (e : Fin 32) (cc : Fin 16) (bytes : Nat)
  | writeDone (other : Bool)

def Td.advance (td : Td) (bytes : Nat) : UInt32 :=
  if td.hwCBP = 0 then 0
  else if td.hwBE.toNat < td.hwCBP.toNat + bytes then 0 else td.hwCBP + UInt32.ofNat bytes

/-- The TD `t` goes from the head of the ED to the controller's list. -/
def popHead (s : State) (e : Fin 32) (t : Fin 64) (cc : Fin 16) (bytes : Nat) : State :=
  { (s.setEd e { s.ed e with hwHeadP := (s.td t).hwNextTD, halted := cc ≠ 0 }).setTd t
      { s.td t with cc, hwCBP := (s.td t).advance bytes, hwNextTD := s.hcDoneHead } with
    hcDoneHead := some t }

lemma popHead_td (s : State) (e : Fin 32) (t u : Fin 64) (cc : Fin 16) (bytes : Nat) :
    (popHead s e t cc bytes).td u = if u = t then
      { s.td t with cc, hwCBP := (s.td t).advance bytes, hwNextTD := s.hcDoneHead }
    else s.td u := by
  by_cases here : u = t
  · subst here
    rw [if_pos rfl]
    exact setTd_self _ _ _
  · rw [if_neg here]
    exact setTd_ne _ _ here

def retire (s : State) (e : Fin 32) (cc : Fin 16) (bytes : Nat) : State :=
  match (s.ed e).hwHeadP with
  | none => s
  | some t =>
    if (s.ed e).state = .oper ∧ (s.ed e).halted = false ∧
        (s.ed e).hwHeadP ≠ (s.ed e).hwTailP ∧ cc < 14 then popHead s e t cc bytes
    else s

def writeDone (s : State) (other : Bool) : State :=
  if s.done_head = none ∧ s.hcDoneHead ≠ none then
    { s with done_head := s.hcDoneHead, done_other := other, hcDoneHead := none }
  else s

def hcAct (s : State) : HcAct → State
  | .retire e cc bytes => retire s e cc bytes
  | .writeDone other => writeDone s other

/-- What a call has left behind: -1, or `dev->status` and `dev->act_len`. -/
inductive Result where
  | refused
  | ended (status : Int) (act_len : Nat)
deriving DecidableEq

inductive Phase where
  | idle
  | waiting (c : Call) (timeout : Nat)

def Phase.isIdle : Phase → Bool
  | idle => true
  | waiting _ _ => false

structure Host where
  s : State
  phase : Phase
  result : Option Result

def Host.init : Host := ⟨State.init, .idle, none⟩

inductive Input where
  | submit (c : Call)
  | hc (act : HcAct)
  | poll (intrstatus : UInt32)

def finish (s : State) (c : Call) (stat : Int) : Host :=
  ⟨urbFreePriv s, .idle, some (.ended stat c.transfer_len)⟩

def submit (h : Host) (c : Call) : Host :=
  if c.maxsize = 0 then { h with result := some .refused }
  else
    let job := sohciSubmitJob h.s c
    if job.accepted then ⟨job.state, .waiting c (if c.control then 100 else 5000), none⟩
    else ⟨job.state, .idle, some .refused⟩

/-- One turn of the loop of `submit_common_msg`, after `hc_interrupt`. -/
def turn (c : Call) (timeout : Nat) (stat : Int) (s : State) : Host :=
  if stat < 0 then finish s c 0x20
  else if stat ≠ 0xff ∧ s.urb_finished then finish s c stat
  else if timeout - 1 = 0 then finish { s with urb_finished := true } c 0x20
  else ⟨s, .waiting c (timeout - 1), none⟩

def step (h : Host) : Input → Option Host
  | .submit c => match h.phase with
    | .idle => some (submit h c)
    | .waiting _ _ => none
  | .hc act => some { h with s := hcAct h.s act }
  | .poll intrstatus => match h.phase with
    | .idle => none
    | .waiting c timeout =>
      (hcInterrupt h.s intrstatus).map fun (stat, s) => turn c timeout stat s

/-- `usb_bulk_msg`: its result and `*actual_length`, from `dev->status` and `dev->act_len`. -/
def usbBulkMsg (status : Int) (act_len : Nat) : Int × Nat :=
  (if status = 0 then 0 else -1, act_len)

def usbControlMsg (status : Int) (act_len : Nat) : Int := if status = 0 then act_len else -1

end Ohci
