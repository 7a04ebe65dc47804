import Mathlib.Algebra.GroupWithZero.Nat
import UBoot.Lib.Memory32
import UBoot.Lib.Runs

/-!
# Receiving a file over Kermit (common/cmd_load.c)

`k_recv`, one character at a time: `pos` is the `getc` it waits in. `char` is unsigned.
What is sent back is kept as replies; the padding in front of them is left out.
-/

namespace Kermit

open Memory32

def startChar : UInt8 := 1
def etxChar : UInt8 := 3
def endChar : UInt8 := 13
def kEscape : UInt8 := 35
def sendType : UInt8 := 83     -- 'S'
def dataType : UInt8 := 68     -- 'D'
def breakType : UInt8 := 66    -- 'B'
def sendDataSize : Nat := 20

def tochar (x : UInt8) : UInt8 := x + 32
def untochar (x : UInt8) : UInt8 := x - 32

/-- `if ((new_char & 0xE0) == 0) goto packet_error`. -/
def Control (c : UInt8) : Prop := c &&& (0xE0 : UInt8) = 0

instance (c : UInt8) : Decidable (Control c) := inferInstanceAs (Decidable (_ = _))

/-- `tochar ((sum + ((sum >> 6) & 0x03)) & 0x3f)`. -/
def type1 (sum : Nat) : UInt8 := tochar (UInt8.ofNat ((sum + sum / 64 % 4) % 64))

def ktrans (c : UInt8) : UInt8 :=
  if c &&& (0x60 : UInt8) = 0x40 then c &&& (0xBF : UInt8)
  else if c &&& (0x7f : UInt8) = 0x3f then c ||| (0x40 : UInt8)
  else c

inductive Pos where
  | start
  | length
  | seq
  | type
  | lenHi
  | lenLo
  | headerCheck
  | body
  | check
  | end_
  | done (size : UInt32)
  deriving DecidableEq

/-- What `k_data_save` keeps: `os_data_addr` and `k_data_escape`. -/
structure Point where
  addr : UInt32
  escape : Bool
  deriving DecidableEq

inductive Reply where
  | ack (n : UInt8) (parms : List UInt8)
  | nack (n : UInt8)
  deriving DecidableEq

structure Recv where
  pos : Pos
  sum : Nat
  length : Int
  n : UInt8
  lastN : Option UInt8       -- none: -1
  lenHi : Nat
  kState : UInt8
  kStateSaved : UInt8
  cur : Point
  saved : Point
  mem : Mem
  startAddress : UInt32
  sendParms : List UInt8
  hisEol : UInt8
  hisPadCount : UInt8
  hisPadChar : UInt8
  hisQuote : UInt8
  replies : List Reply

def initial (mem : Mem) (startAddress : UInt32) : Recv where
  pos := .start
  sum := 0
  length := 0
  n := 0
  lastN := none
  lenHi := 0
  kState := 0
  kStateSaved := 0
  cur := ⟨startAddress, false⟩
  saved := ⟨startAddress, false⟩
  mem := mem
  startAddress := startAddress
  sendParms := []
  hisEol := endChar
  hisPadCount := 0
  hisPadChar := 0
  hisQuote := kEscape
  replies := []

def Recv.packetError (r : Recv) : Recv :=
  { r with pos := .start, kState := r.kStateSaved, cur := r.saved,
           replies := r.replies ++ [.nack r.n] }

def Recv.dataChar (r : Recv) (c : UInt8) (escape : Bool) : Recv :=
  { r with mem := store r.mem r.cur.addr c, cur := ⟨r.cur.addr + 1, escape⟩ }

def Recv.kDataChar (r : Recv) (c : UInt8) : Recv :=
  if r.cur.escape then r.dataChar (ktrans c) false
  else if c = r.hisQuote then { r with cur := { r.cur with escape := true } }
  else r.dataChar c false

/-- `*send_ptr++ = new_char`, backing off the pointer when the buffer is full. -/
def Recv.sendChar (r : Recv) (c : UInt8) : Recv :=
  { r with sendParms := (r.sendParms ++ [c]).take (sendDataSize - 1) }

def ackParms (bytes : Nat) : List UInt8 :=
  let all := [tochar 94, tochar 1, tochar 0, 0x40, tochar endChar, 35, 78, 49, 78, tochar 2,
    tochar 0, tochar 94, tochar 94]
  if 10 ≤ bytes then all else all.take bytes

/-- `handle_send_packet`; the last character is ignored if it filled the buffer. -/
def Recv.handleSendPacket (r : Recv) : Recv :=
  let parms := if r.sendParms.length = sendDataSize - 1 then r.sendParms.take (sendDataSize - 2)
    else r.sendParms
  { r with
    pos := .start
    hisPadCount := (parms[2]?.map untochar).getD 0
    hisPadChar := (parms[3]?.map ktrans).getD 0
    hisEol := (parms[4]?.map untochar).getD endChar
    hisQuote := parms[5]?.getD kEscape
    replies := r.replies ++ [.ack r.n (ackParms parms.length)] }

/-- "bring in rest of packet": the next character of it, or its check. -/
def Recv.rest (r : Recv) : Recv := { r with pos := if 1 < r.length then .body else .check }

/-- "check sequence numbers for retried packets". -/
def Recv.checkpoint (r : Recv) (n : UInt8) : Recv :=
  if some n = r.lastN then { r with kState := r.kStateSaved, cur := r.saved }
  else { r with lastN := some n, kStateSaved := r.kState, saved := r.cur }

def Recv.add (r : Recv) (c : UInt8) : Recv := { r with sum := r.sum + c.toNat }

def Recv.packetChar (r : Recv) (c : UInt8) : Recv :=
  match r.pos with
  | .length => { r.add c with pos := .seq, length := (untochar c).toNat }
  | .seq =>
    { (({ r.add c with n := untochar c } : Recv).checkpoint (untochar c)) with
      pos := .type, length := r.length - 1 }
  | .type =>
    if r.length - 1 = -2 then { r.add c with pos := .lenHi, kState := c, length := r.length - 1 }
    else ({ r.add c with kState := c, length := r.length - 1 } : Recv).rest
  | .lenHi => { r.add c with pos := .lenLo, lenHi := (untochar c).toNat }
  | .lenLo =>
    { r.add c with pos := .headerCheck, length := r.lenHi * 95 + (untochar c).toNat }
  | .headerCheck => if c ≠ type1 r.sum then r.packetError else (r.add c).rest
  | .body =>
    let r := { r.add c with length := r.length - 1 }
    if r.kState = dataType then (r.kDataChar c).rest
    else if r.kState = sendType then (r.sendChar c).rest
    else r.rest
  | .check => if c ≠ type1 r.sum then r.packetError else { r with pos := .end_ }
  | _ => r

def Recv.accept (r : Recv) : Recv :=
  if r.kState = sendType then r.handleSendPacket
  else
    let pos := if r.kState = breakType then .done (r.cur.addr - r.startAddress) else .start
    { r with pos := pos, replies := r.replies ++ [.ack r.n []] }

def recvChar (r : Recv) (c : UInt8) : Recv :=
  match r.pos with
  | .done _ => r
  | .start =>
    if c = startChar then { r with pos := .length, sum := 0, sendParms := [] }
    else if c = etxChar then { r with pos := .done 0 }
    else r
  | .end_ => if c ≠ endChar then r.packetError else r.accept
  | _ => if Control c then r.packetError else r.packetChar c

def feed (r : Recv) (cs : List UInt8) : Recv := cs.foldl recvChar r

structure Packet where
  type : UInt8
  data : List UInt8
  long : Bool

/-- The characters between START_CHAR and the check. -/
def Packet.body (p : Packet) (seq : UInt8) : List UInt8 :=
  if p.long then
    let size := p.data.length + 1
    let header := [tochar 0, tochar seq, p.type, tochar (UInt8.ofNat (size / 95)),
      tochar (UInt8.ofNat (size % 95))]
    header ++ type1 (header.map UInt8.toNat).sum :: p.data
  else tochar (UInt8.ofNat (p.data.length + 3)) :: tochar seq :: p.type :: p.data

def Packet.chars (p : Packet) (seq : UInt8) : List UInt8 :=
  startChar :: (p.body seq ++ [type1 ((p.body seq).map UInt8.toNat).sum, endChar])

/-- The `i`th packet of a session has the number `i` modulo 64. -/
def seqOf (i : Nat) : UInt8 := UInt8.ofNat (i % 64)

/-- The sender waits for the acknowledge of packet `i`; `recv` is the other end. -/
structure Link where
  i : Nat
  recv : Recv

/-- One transmission: what arrives, and whether the replies to it come back. -/
structure Round where
  chars : List UInt8
  delivered : Bool

def Reply.acks (n : UInt8) : Reply → Bool
  | .ack m _ => m = n
  | .nack _ => false

def transmit (l : Link) (round : Round) : Link :=
  let recv := feed { l.recv with replies := [] } round.chars
  let acked := round.delivered && recv.replies.any (Reply.acks (seqOf l.i))
  ⟨if acked then l.i + 1 else l.i, recv⟩

/-!
## The file a Kermit session sends

What the data characters stand for, and the packets of a session: S, then F, the D packets
and Z, then B.
-/

abbrev Decoded := List UInt8 × Bool

def decodeChar (quote : UInt8) (d : Decoded) (c : UInt8) : Decoded :=
  if d.2 then (d.1 ++ [ktrans c], false)
  else if c = quote then (d.1, true)
  else (d.1 ++ [c], false)

def decode (quote : UInt8) (cs : List UInt8) : Decoded := cs.foldl (decodeChar quote) ([], false)

def encodeByte (b : UInt8) : List UInt8 :=
  if b &&& (0x60 : UInt8) = 0 then [kEscape, b ||| 0x40]
  else if b &&& (0x7f : UInt8) = 0x7f then [kEscape, b &&& (0xBF : UInt8)]
  else if b = kEscape then [kEscape, b]
  else [b]

lemma decode_append (quote : UInt8) (cs ds : List UInt8) :
    decode quote (cs ++ ds) = ds.foldl (decodeChar quote) (decode quote cs) := by
  simp only [decode, List.foldl_append]

lemma decodeChar_length (quote : UInt8) (d : Decoded) (c : UInt8) :
    d.1.length ≤ (decodeChar quote d c).1.length := by
  simp only [decodeChar]
  split
  · simp
  · split <;> simp

lemma foldl_decodeChar_length (quote : UInt8) (d : Decoded) (cs : List UInt8) :
    d.1.length ≤ (cs.foldl (decodeChar quote) d).1.length := by
  induction cs generalizing d with
  | nil => exact Nat.le_refl _
  | cons c cs ih => exact Nat.le_trans (decodeChar_length quote d c) (ih _)

lemma decodeChar_isPrefix (quote : UInt8) (d : Decoded) (c : UInt8) :
    d.1 <+: (decodeChar quote d c).1 := by
  simp only [decodeChar]
  split
  · exact List.prefix_append _ _
  · split
    · exact List.prefix_rfl
    · exact List.prefix_append _ _

lemma decode_isPrefix (quote : UInt8) (cs ds : List UInt8) :
    (decode quote cs).1 <+: (decode quote (cs ++ ds)).1 := by
  rw [decode_append]
  generalize decode quote cs = d
  induction ds generalizing d with
  | nil => exact List.prefix_rfl
  | cons c ds ih => exact (decodeChar_isPrefix quote d c).trans (ih _)

lemma forall_byte {P : UInt8 → Prop} (all : ∀ n : Fin 256, P ⟨⟨n⟩⟩) (b : UInt8) : P b :=
  all b.toBitVec.toFin

lemma decode_encodeByte (out : List UInt8) (b : UInt8) :
    (encodeByte b).foldl (decodeChar kEscape) (out, false) = (out ++ [b], false) := by
  have all : ∀ b : UInt8,
      (encodeByte b = [kEscape, b ||| 0x40] ∧ ktrans (b ||| 0x40) = b) ∨
      (encodeByte b = [kEscape, b &&& (0xBF : UInt8)] ∧ ktrans (b &&& (0xBF : UInt8)) = b) ∨
      (encodeByte b = [kEscape, b] ∧ ktrans b = b) ∨
      (encodeByte b = [b] ∧ b ≠ kEscape) := forall_byte (by decide +kernel)
  rcases all b with ⟨line, back⟩ | ⟨line, back⟩ | ⟨line, back⟩ | ⟨line, plain⟩
  · simp [line, decodeChar, back]
  · simp [line, decodeChar, back]
  · simp [line, decodeChar, back]
  · simp [line, decodeChar, plain]

lemma decode_encode (file : List UInt8) :
    decode kEscape (file.flatMap encodeByte) = (file, false) := by
  suffices ∀ out, (file.flatMap encodeByte).foldl (decodeChar kEscape) (out, false) =
      (out ++ file, false) from this []
  induction file with
  | nil => simp
  | cons b file ih =>
    intro out
    rw [List.flatMap_cons, List.foldl_append, decode_encodeByte, ih]
    simp

/-- What is put between START_CHAR and the check is printable, and the length can say it. -/
structure Packet.Fits (p : Packet) : Prop where
  type : ¬ Control p.type
  data : ∀ c ∈ p.data, ¬ Control c
  length : if p.long then p.data.length + 1 < 95 * 95 else p.data.length + 3 ≤ 94

instance (p : Packet) : Decidable p.Fits :=
  have := List.decidableBAll (fun c => ¬ Control c) p.data
  decidable_of_iff (¬ Control p.type ∧ (∀ c ∈ p.data, ¬ Control c) ∧
      if p.long then p.data.length + 1 < 95 * 95 else p.data.length + 3 ≤ 94)
    ⟨fun h => ⟨h.1, h.2.1, h.2.2⟩, fun h => ⟨h.type, h.data, h.length⟩⟩

def dataOf (ps : List Packet) : List UInt8 :=
  (ps.filter (fun p => p.type = dataType)).flatMap Packet.data

@[simp] lemma dataOf_nil : dataOf [] = [] := rfl

lemma dataOf_append (ps qs : List Packet) : dataOf (ps ++ qs) = dataOf ps ++ dataOf qs := by
  simp [dataOf]

lemma dataOf_single (p : Packet) : dataOf [p] = if p.type = dataType then p.data else [] := by
  by_cases h : p.type = dataType <;> simp [dataOf, h]

/-- The packets of a session; the size of the file is an `int`. -/
structure Session where
  send : Packet
  middle : List Packet
  last : Packet
  send_type : send.type = sendType
  last_type : last.type = breakType
  middle_type : ∀ p ∈ middle, p.type ≠ sendType ∧ p.type ≠ breakType
  fits : ∀ p ∈ send :: middle ++ [last], p.Fits
  size : (decode (send.data[5]?.getD kEscape) (dataOf middle)).1.length < 2147483648

namespace Session

def packets (s : Session) : List Packet := s.send :: s.middle ++ [s.last]

def quote (s : Session) : UInt8 := s.send.data[5]?.getD kEscape

/-- What the packets before the `i`th stand for. -/
def before (s : Session) (i : Nat) : Decoded := decode s.quote (dataOf (s.packets.take i))

def file (s : Session) : List UInt8 := (s.before s.packets.length).1

variable {s : Session}

lemma dataOf_packets (s : Session) : dataOf s.packets = dataOf s.middle := by
  have first : dataOf [s.send] = [] := by simp [dataOf_single, s.send_type, sendType, dataType]
  have last : dataOf [s.last] = [] := by simp [dataOf_single, s.last_type, breakType, dataType]
  have split : s.packets = [s.send] ++ s.middle ++ [s.last] := by simp [packets]
  rw [split, dataOf_append, dataOf_append, first, last]
  simp

lemma file_eq (s : Session) : s.file = (decode s.quote (dataOf s.middle)).1 := by
  simp only [file, before, List.take_length, dataOf_packets]

lemma file_length (s : Session) : s.file.length < 2147483648 := by
  rw [file_eq]
  exact s.size

lemma before_zero (s : Session) : s.before 0 = ([], false) := rfl

lemma before_succ {i : Nat} {p : Packet} (at_i : s.packets[i]? = some p) :
    s.before (i + 1) = if p.type = dataType then p.data.foldl (decodeChar s.quote) (s.before i)
      else s.before i := by
  obtain ⟨bound, at_i⟩ := List.getElem?_eq_some_iff.mp at_i
  rw [before, List.take_succ_eq_append_getElem bound, dataOf_append, at_i, dataOf_single,
    decode_append]
  split
  · rfl
  · rfl

lemma before_isPrefix (s : Session) (i : Nat) : (s.before i).1 <+: s.file := by
  have split : s.packets = s.packets.take i ++ s.packets.drop i := (List.take_append_drop ..).symm
  have whole : s.file = (decode s.quote (dataOf (s.packets.take i) ++
      dataOf (s.packets.drop i))).1 := by
    rw [← dataOf_append, ← split, file, before, List.take_length]
  rw [whole]
  exact decode_isPrefix _ _ _

lemma before_succ_isPrefix (s : Session) (i : Nat) : (s.before i).1 <+: (s.before (i + 1)).1 := by
  rcases Nat.lt_or_ge i s.packets.length with bound | ended
  · rw [before, before, List.take_succ_eq_append_getElem bound, dataOf_append]
    exact decode_isPrefix _ _ _
  · have same : s.before (i + 1) = s.before i := by
      rw [before, before, List.take_of_length_le ended, List.take_of_length_le (by omega)]
    exact same ▸ List.prefix_rfl

lemma type_at {i : Nat} {p : Packet} (at_i : s.packets[i]? = some p) :
    (p.type = sendType ↔ i = 0) ∧ (p.type = breakType ↔ i + 1 = s.packets.length) := by
  have size : s.packets.length = s.middle.length + 2 := by simp [packets]
  rcases Nat.eq_zero_or_pos i with rfl | pos
  · obtain rfl : s.send = p := by simpa [packets] using at_i
    simp [s.send_type, size, sendType, breakType]
  obtain ⟨j, rfl⟩ : ∃ j, i = j + 1 := ⟨i - 1, by omega⟩
  have at_j : (s.middle ++ [s.last])[j]? = some p := by simpa [packets] using at_i
  rcases Nat.lt_or_ge j s.middle.length with inside | outside
  · rw [List.getElem?_append_left inside] at at_j
    have types := s.middle_type p (List.mem_of_getElem? at_j)
    simp only [types, size, false_iff]
    omega
  rw [List.getElem?_append_right outside] at at_j
  obtain ⟨low, same⟩ := List.getElem?_eq_some_iff.mp at_j
  obtain rfl : s.last = p := by simpa using same
  simp only [List.length_singleton] at low
  simp only [s.last_type, size, sendType, breakType]
  constructor
  · simp
  · simp only [true_iff]
    omega

end Session

def fileHeader : Packet := ⟨70, [], false⟩      -- 'F'
def endOfFile : Packet := ⟨90, [], false⟩       -- 'Z'

def bytePacket (b : UInt8) : Packet := ⟨dataType, encodeByte b, false⟩

lemma bytePacket_fits (b : UInt8) : (bytePacket b).Fits :=
  forall_byte (P := fun b => (bytePacket b).Fits) (by decide +kernel) b

lemma dataOf_bytes (file : List UInt8) :
    dataOf (fileHeader :: file.map bytePacket ++ [endOfFile]) = file.flatMap encodeByte := by
  have header : dataOf [fileHeader] = [] := rfl
  have last : dataOf [endOfFile] = [] := rfl
  have bytes : dataOf (file.map bytePacket) = file.flatMap encodeByte := by
    induction file with
    | nil => rfl
    | cons b file ih =>
      rw [List.map_cons, ← List.singleton_append, dataOf_append, ih, List.flatMap_cons,
        dataOf_single]
      rfl
  rw [← List.singleton_append, dataOf_append, dataOf_append, header, last, bytes]
  simp

def session (file : List UInt8) (size : file.length < 2147483648) : Session where
  send := ⟨sendType, [], false⟩
  middle := fileHeader :: file.map bytePacket ++ [endOfFile]
  last := ⟨breakType, [], false⟩
  send_type := rfl
  last_type := rfl
  middle_type := by
    intro p hp
    simp only [List.cons_append, List.mem_cons, List.mem_append, List.mem_map, List.not_mem_nil,
      or_false] at hp
    rcases hp with rfl | ⟨b, -, rfl⟩ | rfl
    · decide
    · simp [bytePacket, dataType, sendType, breakType]
    · decide
  fits := by
    intro p hp
    simp only [List.cons_append, List.mem_cons, List.mem_append, List.mem_map, List.not_mem_nil,
      or_false] at hp
    rcases hp with rfl | rfl | (⟨b, -, rfl⟩ | rfl) | rfl
    · decide
    · decide
    · exact bytePacket_fits b
    · decide
    · decide
  size := by
    have whole : decode (([] : List UInt8)[5]?.getD kEscape) (file.flatMap encodeByte) =
        (file, false) := decode_encode file
    rw [dataOf_bytes, whole]
    exact size

end Kermit
