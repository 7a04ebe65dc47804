import UBoot.I2c.Transfer

/-!
# Reading and writing an EEPROM (common/cmd_eeprom.c)

`eeprom_read` and `eeprom_write` make transfers that stay in a block or in a page. The configuration
is that of the board: addresses of one byte, with three more bits in the chip address.
-/

namespace I2c

/-! ## An EEPROM on the bus -/

inductive Phase where
  | idle
  | addressing
  | writing
  | reading
  deriving DecidableEq

/-- A 24C16: eight blocks of 256 bytes that answer to eight chip addresses, and pages of 16. -/
structure Eeprom where
  mem : Nat → UInt8
  pointer : Nat
  phase : Phase
  out : UInt8

def selects (chip : UInt8) : Prop := chip >>> 4 = 0xA

instance selects.decidable (chip : UInt8) : Decidable (selects chip) :=
  inferInstanceAs (Decidable (chip >>> 4 = 0xA))

def blockOf (chip : UInt8) : Nat := (chip >>> 1 &&& 7).toNat

/-- What goes on in the EEPROM. An address written beyond the page is one at its beginning. -/
def Eeprom.step (e : Eeprom) : Event → Eeprom
  | .start mode chip =>
    if selects chip then
      { e with
        pointer := blockOf chip * 256 + e.pointer % 256
        phase := if mode = .transmit then .addressing else .reading }
    else { e with phase := .idle }
  | .send byte =>
    match e.phase with
    | .addressing => { e with pointer := e.pointer / 256 * 256 + byte.toNat, phase := .writing }
    | .writing =>
      { e with
        mem := Function.update e.mem e.pointer byte
        pointer := e.pointer / 16 * 16 + (e.pointer + 1) % 16 }
    | _ => e
  | .recv _ =>
    match e.phase with
    | .reading =>
      { e with
        out := e.mem e.pointer
        pointer := e.pointer / 256 * 256 + (e.pointer + 1) % 256 }
    | _ => e
  | .stop => { e with phase := .idle }

def Eeprom.run (e : Eeprom) (log : List Event) : Eeprom := log.foldl Eeprom.step e

/-- The bus with the EEPROM, which acknowledges while it is selected. -/
def Eeprom.device (e : Eeprom) : Device where
  busy := false
  cycle log := ⟨true, (e.run log).phase ≠ .idle, (e.run log).out⟩

def Device.after (d : Device) (log : List Event) : Device where
  busy := d.busy
  cycle next := d.cycle (log ++ next)

/-! ## The driver -/

def xaddr (addr : UInt32) (i : Nat) : UInt8 := UInt8.ofNat (addr.toNat >>> (24 - 8 * i))

def addrOverflow : Nat := 7

/-- The chip address of `i2c_read` and `i2c_write`, with the higher bits of the address. -/
def overflowChip (chip : UInt8) (addr : UInt32) (alen : Nat) : UInt8 :=
  if alen > 0 then chip ||| UInt8.ofNat (addr.toNat >>> (alen * 8) &&& addrOverflow) else chip

/-- The transfer of `i2c_read` or `i2c_write`, or none for an address of more than four bytes. -/
def i2cAccess (cmdType : UInt8) (d : Device) (chip : UInt8) (addr : UInt32) (alen : Nat)
    (buffer : Nat → UInt8) (len : UInt32) : Outcome :=
  if alen > 4 then ⟨.nok, [], some buffer⟩
  else
    i2cTransfer d cmdType (overflowChip chip addr alen <<< 1)
      (some fun i => xaddr addr (4 - alen + i)) (UInt8.ofNat alen) (some buffer) len.toUInt16

def i2cRead := i2cAccess cmdRead

def i2cWrite := i2cAccess cmdWrite

/-! ## The chunks -/

variable {last : UInt32}

def rxtxLen : UInt32 := 128

def defEepromAddr : UInt32 := 0x50

/-- A run of `eeprom_read` or `eeprom_write`: the result, the bus, what each transfer put on it, and
the buffer, of which `pos` bytes are behind. -/
structure Session where
  rcode : UInt32
  bus : Device
  logs : List (List Event)
  buffer : Nat → UInt8
  pos : Nat

def chunkLen (room : UInt32 → UInt32) (last offset : UInt32) : UInt32 :=
  let maxlen := room (offset &&& 0xFF)
  let maxlen := if maxlen > rxtxLen then rxtxLen else maxlen
  let len := last - offset
  if len > maxlen then maxlen else len

def Session.transferred (s : Session) (len : UInt32) (out : Outcome) : Session where
  rcode := if out.result ≠ .ok then 1 else s.rcode
  bus := s.bus.after out.log
  logs := s.logs ++ [out.log]
  buffer i := if i < s.pos then s.buffer i else (out.data.getD fun _ => 0) (i - s.pos)
  pos := s.pos + len.toNat

def chunk (access : Device → UInt8 → UInt32 → Nat → (Nat → UInt8) → UInt32 → Outcome)
    (devAddr offset len : UInt32) (s : Session) : Session :=
  let addr0 := (offset >>> 8).toUInt8 ||| devAddr.toUInt8
  s.transferred len (access s.bus addr0 offset 1 (fun i => s.buffer (s.pos + i)) len)

lemma chunkLen_bounds {room : UInt32 → UInt32} (some_room : ∀ offset, 0 < room (offset &&& 0xFF))
    {offset : UInt32} (more : offset < last) :
    0 < (chunkLen room last offset).toNat ∧
      offset.toNat + (chunkLen room last offset).toNat ≤ last.toNat ∧
      (chunkLen room last offset).toNat ≤ (room (offset &&& 0xFF)).toNat ∧
      (chunkLen room last offset).toNat ≤ 128 := by
  have less := UInt32.lt_iff_toNat_lt.mp more
  have left := UInt32.toNat_sub_of_le _ _ (UInt32.le_of_lt more)
  have positive : 0 < (room (offset &&& 0xFF)).toNat := UInt32.lt_iff_toNat_lt.mp (some_room offset)
  have most : rxtxLen.toNat = 128 := rfl
  unfold chunkLen
  generalize room (offset &&& 0xFF) = maxlen at positive
  simp only [gt_iff_lt, UInt32.lt_iff_toNat_lt]
  split <;> split <;> omega

/-- The loop of `eeprom_read` and `eeprom_write`. -/
def chunks (room : UInt32 → UInt32) (some_room : ∀ offset, 0 < room (offset &&& 0xFF))
    (transfer : (offset len : UInt32) → Session → Session) (last offset : UInt32) (s : Session) :
    Session :=
  if offset < last then
    let len := chunkLen room last offset
    chunks room some_room transfer last (offset + len) (transfer offset len s)
  else s
termination_by last.toNat - offset.toNat
decreasing_by
  rename_i more
  have bounds := chunkLen_bounds some_room more
  have small := last.toNat_lt
  rw [UInt32.toNat_add]
  omega

/-- `maxlen` of `eeprom_read`, which ends with the block. -/
def blockRoom (blkOff : UInt32) : UInt32 := 0x100 - blkOff

/-- `maxlen` of `eeprom_write`, which ends with the page. -/
def pageRoom (blkOff : UInt32) : UInt32 := 16 - (blkOff &&& 15)

lemma blockOffset_toNat (offset : UInt32) : (offset &&& 0xFF).toNat = offset.toNat % 256 := by
  have mask : (0xFF : UInt32).toNat = 2 ^ 8 - 1 := rfl
  rw [UInt32.toNat_and, mask, Nat.and_two_pow_sub_one_eq_mod]

lemma blockRoom_toNat (offset : UInt32) :
    (blockRoom (offset &&& 0xFF)).toNat = 256 - offset.toNat % 256 := by
  have blockOff := blockOffset_toNat offset
  have block : (0x100 : UInt32).toNat = 256 := rfl
  rw [blockRoom, UInt32.toNat_sub_of_le _ _ (UInt32.le_iff_toNat_le.mpr (by omega)), blockOff,
    block]

lemma pageRoom_toNat (offset : UInt32) :
    (pageRoom (offset &&& 0xFF)).toNat = 16 - offset.toNat % 16 := by
  have mask : (15 : UInt32).toNat = 2 ^ 4 - 1 := rfl
  have page : (16 : UInt32).toNat = 16 := rfl
  have pageOff : (offset &&& 0xFF &&& 15).toNat = offset.toNat % 16 := by
    rw [UInt32.toNat_and, blockOffset_toNat, mask, Nat.and_two_pow_sub_one_eq_mod]
    omega
  rw [pageRoom, UInt32.toNat_sub_of_le _ _ (UInt32.le_iff_toNat_le.mpr (by omega)), pageOff, page]

lemma blockRoom_pos (offset : UInt32) : 0 < blockRoom (offset &&& 0xFF) := by
  rw [UInt32.lt_iff_toNat_lt, blockRoom_toNat]
  exact Nat.sub_pos_of_lt (Nat.mod_lt _ (by decide))

lemma pageRoom_pos (offset : UInt32) : 0 < pageRoom (offset &&& 0xFF) := by
  rw [UInt32.lt_iff_toNat_lt, pageRoom_toNat]
  exact Nat.sub_pos_of_lt (Nat.mod_lt _ (by decide))

def eepromRead (d : Device) (devAddr offset : UInt32) (buffer : Nat → UInt8) (cnt : UInt32) :
    Session :=
  chunks blockRoom blockRoom_pos (chunk i2cRead devAddr) (offset + cnt) offset
    ⟨0, d, [], buffer, 0⟩

def eepromWrite (d : Device) (devAddr offset : UInt32) (buffer : Nat → UInt8) (cnt : UInt32) :
    Session :=
  chunks pageRoom pageRoom_pos (chunk i2cWrite devAddr) (offset + cnt) offset
    ⟨0, d, [], buffer, 0⟩

/-! ## What is promised -/

def InPage (log : List Event) : Prop :=
  ∃ (chip word : UInt8) (data : List UInt8),
    log = .start .transmit chip :: .send word :: (data.map .send ++ [.stop]) ∧
    word.toNat % 16 + data.length ≤ 16

def InBlock (log : List Event) : Prop :=
  ∃ (chip word : UInt8) (acks : List Bool),
    log = .start .transmit chip :: .send word :: .start .receive chip ::
      (acks.map .recv ++ [.stop]) ∧
    word.toNat + acks.length ≤ 256

structure RoundTrip (e : Eeprom) (offset cnt : UInt32) (buffer : Nat → UInt8)
    (written read : Session) : Prop where
  wrote : written.rcode = 0
  got : read.rcode = 0
  same : ∀ i < cnt.toNat, read.buffer i = buffer i
  outside : ∃ e' : Eeprom, read.bus = e'.device ∧
    ∀ a, ¬ (offset.toNat ≤ a ∧ a < offset.toNat + cnt.toNat) → e'.mem a = e.mem a
  pages : ∀ log ∈ written.logs, InPage log
  blocks : ∀ log ∈ read.logs, InBlock log

/-! ## The EEPROM -/

lemma run_append (e : Eeprom) (first rest : List Event) :
    e.run (first ++ rest) = (e.run first).run rest :=
  List.foldl_append

lemma device_after (e : Eeprom) (log : List Event) : e.device.after log = (e.run log).device := by
  unfold Device.after Eeprom.device
  simp only [run_append]

lemma device_done (e : Eeprom) (log events : List Event) :
    Each Cycle.done e.device log events := by
  induction events generalizing log with
  | nil => trivial
  | cons event events ih => exact ⟨rfl, ih _⟩

lemma run_address (e : Eeprom) {chip : UInt8} (selected : selects chip) (word : UInt8) :
    e.run [.start .transmit chip, .send word] =
      { e with pointer := blockOf chip * 256 + word.toNat, phase := .writing } := by
  have block : (blockOf chip * 256 + e.pointer % 256) / 256 * 256 = blockOf chip * 256 := by omega
  change ((e.step (.start .transmit chip)).step (.send word)) = _
  rw [Eeprom.step, if_pos selected, if_pos rfl, Eeprom.step]
  rw [block]

lemma run_sends {e : Eeprom} (writing : e.phase = .writing) (bytes : Nat → UInt8) {i left : Nat}
    (page : e.pointer % 16 + left ≤ 16) (a : Nat) :
    (e.run (sends bytes i left)).mem a =
      if e.pointer ≤ a ∧ a < e.pointer + left then bytes (i + (a - e.pointer)) else e.mem a := by
  induction left generalizing e i with
  | zero => rw [if_neg (by omega)]; rfl
  | succ left ih =>
    rw [sends_succ]
    change ((e.step (.send (bytes i))).run (sends bytes (i + 1) left)).mem a = _
    rw [Eeprom.step, writing]
    cases left with
    | zero =>
      change Function.update e.mem e.pointer (bytes i) a = _
      by_cases here : a = e.pointer
      · subst here
        rw [Function.update_self, if_pos (by omega), Nat.sub_self, Nat.add_zero]
      · rw [Function.update_of_ne here, if_neg (by omega)]
    | succ left =>
      have next : e.pointer / 16 * 16 + (e.pointer + 1) % 16 = e.pointer + 1 := by omega
      rw [ih rfl (by dsimp only; omega)]
      dsimp only
      rw [next]
      by_cases here : a = e.pointer
      · subst here
        rw [Function.update_self, if_neg (by omega), if_pos (by omega), Nat.sub_self, Nat.add_zero]
      rw [Function.update_of_ne here]
      by_cases inside : e.pointer + 1 ≤ a ∧ a < e.pointer + 1 + (left + 1)
      · rw [if_pos inside, if_pos (by omega)]
        congr 1
        omega
      · rw [if_neg inside, if_neg (by omega)]

lemma run_recvs {e : Eeprom} (reading : e.phase = .reading) (dataLen : Nat) {i j : Nat}
    (block : e.pointer % 256 + j < 256) :
    (e.run (recvs dataLen i j)).pointer = e.pointer + j ∧
      (e.run (recvs dataLen i j)).phase = .reading ∧
      (e.run (recvs dataLen i j)).mem = e.mem := by
  induction j generalizing e i with
  | zero => exact ⟨rfl, reading, rfl⟩
  | succ j ih =>
    have next : e.pointer / 256 * 256 + (e.pointer + 1) % 256 = e.pointer + 1 := by omega
    rw [recvs_succ]
    change ((e.step (.recv (i != dataLen - 1))).run (recvs dataLen (i + 1) j)).pointer = _ ∧
      ((e.step (.recv (i != dataLen - 1))).run (recvs dataLen (i + 1) j)).phase = _ ∧
      ((e.step (.recv (i != dataLen - 1))).run (recvs dataLen (i + 1) j)).mem = _
    rw [Eeprom.step, reading]
    rw [next]
    obtain ⟨pointer, phase, mem⟩ :=
      ih (e := ⟨e.mem, e.pointer + 1, .reading, e.mem e.pointer⟩) (i := i + 1) rfl
        (by dsimp only; omega)
    refine ⟨pointer.trans ?_, phase, mem⟩
    exact Nat.add_right_comm e.pointer 1 j

/-! ## A chunk -/

/-- `addr[0]`, which has the block of the offset. -/
def addr0 (offset : UInt32) : UInt8 := (offset >>> 8).toUInt8 ||| defEepromAddr.toUInt8

def chipOf (offset : UInt32) : UInt8 := overflowChip (addr0 offset) offset 1 <<< 1

lemma chipOf_selects {offset : UInt32} (inside : offset.toNat < 2048) :
    selects (chipOf offset) ∧ blockOf (chipOf offset) = offset.toNat / 256 := by
  have all : ∀ block < 8,
      selects ((UInt8.ofNat block ||| defEepromAddr.toUInt8 |||
        UInt8.ofNat (block &&& addrOverflow)) <<< 1) ∧
      blockOf ((UInt8.ofNat block ||| defEepromAddr.toUInt8 |||
        UInt8.ofNat (block &&& addrOverflow)) <<< 1) = block := by
    decide
  have eight : (8 : UInt32).toNat = 8 := rfl
  have high : (offset >>> 8).toUInt8 = UInt8.ofNat (offset.toNat / 256) := by
    apply UInt8.toNat_inj.mp
    rw [UInt32.toNat_toUInt8, UInt32.toNat_shiftRight, eight, UInt8.toNat_ofNat',
      Nat.shiftRight_eq_div_pow]
  have shifted : offset.toNat >>> (1 * 8) = offset.toNat / 256 := Nat.shiftRight_eq_div_pow _ _
  rw [chipOf, overflowChip, if_pos (by decide), addr0, high, shifted]
  exact all _ (by omega)

def wordOf (offset : UInt32) : UInt8 := xaddr offset 3

lemma wordOf_toNat (offset : UInt32) : (wordOf offset).toNat = offset.toNat % 256 :=
  UInt8.toNat_ofNat'

lemma byteLen (len : UInt32) (few : len.toNat ≤ 128) : len.toUInt16.toNat = len.toNat := by
  rw [UInt32.toNat_toUInt16]
  omega

lemma byteLen_ne_zero {len : UInt32} (some_len : 0 < len.toNat) (few : len.toNat ≤ 128) :
    len.toUInt16 ≠ 0 := by
  have count := byteLen len few
  intro none
  rw [none] at count
  exact absurd count (Nat.ne_of_lt some_len)

lemma address_word (offset : UInt32) :
    address (some fun i => xaddr offset (4 - 1 + i)) (UInt8.ofNat 1) =
      some fun i => xaddr offset (3 + i) := rfl

variable (e : Eeprom) {offset len : UInt32} (buffer : Nat → UInt8)

lemma i2cWrite_spec (some_len : 0 < len.toNat) (few : len.toNat ≤ 128) :
    i2cWrite e.device (addr0 offset) offset 1 buffer len =
      ⟨.ok, .start .transmit (chipOf offset) :: .send (wordOf offset) ::
        (sends buffer 0 len.toNat ++ [.stop]), some buffer⟩ := by
  have count := byteLen len few
  have some_data := byteLen_ne_zero some_len few
  have given := address_word offset
  have ok := (transferWrite_ok e.device (chipOf offset) given buffer len.toUInt16).mpr
    (device_done e [] _)
  have log := transferWrite_log e.device (chipOf offset) given buffer len.toUInt16 ok
  rw [i2cWrite, i2cAccess, if_neg (by decide)]
  rw [i2cTransfer_write e.device _ _ _ buffer some_data rfl]
  change Outcome.mk (transferWrite e.device (chipOf offset) _ _ buffer _).1 _ _ = _
  rw [ok]
  congr 1
  refine log.trans ?_
  rw [writeEvents, addressSends, given, count]
  rfl

lemma run_offset (inside : offset.toNat < 2048) :
    e.run [.start .transmit (chipOf offset), .send (wordOf offset)] =
      { e with pointer := offset.toNat, phase := .writing } := by
  obtain ⟨selected, block⟩ := chipOf_selects inside
  have pointer : blockOf (chipOf offset) * 256 + (wordOf offset).toNat = offset.toNat := by
    rw [block, wordOf_toNat]
    exact Nat.div_add_mod' _ _
  rw [run_address e selected, pointer]

lemma run_write (inside : offset.toNat < 2048) (page : offset.toNat % 16 + len.toNat ≤ 16)
    (a : Nat) :
    (e.run (.start .transmit (chipOf offset) :: .send (wordOf offset) ::
      (sends buffer 0 len.toNat ++ [.stop]))).mem a =
      if offset.toNat ≤ a ∧ a < offset.toNat + len.toNat then buffer (a - offset.toNat)
      else e.mem a := by
  change (e.run ([.start .transmit (chipOf offset), .send (wordOf offset)] ++
    (sends buffer 0 len.toNat ++ [.stop]))).mem a = _
  rw [run_append, run_append, run_offset e inside]
  have sent := run_sends (e := { e with pointer := offset.toNat, phase := .writing }) rfl buffer
    (i := 0) page a
  rw [Nat.zero_add] at sent
  exact sent

lemma run_readStart (inside : offset.toNat < 2048) :
    e.run [.start .transmit (chipOf offset), .send (wordOf offset),
      .start .receive (chipOf offset)] =
      { e with pointer := offset.toNat, phase := .reading } := by
  obtain ⟨selected, block⟩ := chipOf_selects inside
  change e.run ([.start .transmit (chipOf offset), .send (wordOf offset)] ++
    [.start .receive (chipOf offset)]) = _
  rw [run_append, run_offset e inside]
  change Eeprom.step _ (.start .receive (chipOf offset)) = _
  rw [Eeprom.step, if_pos selected, block, if_neg (by decide)]
  rw [Nat.div_add_mod' offset.toNat 256]

lemma recvs_take (dataLen : Nat) {i left : Nat} (inside : i < left) :
    (recvs dataLen 0 left).take (i + 1) = recvs dataLen 0 i ++ [.recv (i != dataLen - 1)] := by
  rw [recvs, ← List.map_take, List.take_range'_of_length_ge (by omega), List.range'_1_concat,
    List.map_append, recvs, Nat.zero_add]
  rfl

lemma run_read (inside : offset.toNat < 2048) {dataLen i : Nat} (less : i < dataLen)
    (block : offset.toNat % 256 + i < 256) :
    (e.run ([.start .transmit (chipOf offset), .send (wordOf offset),
      .start .receive (chipOf offset)] ++ (recvs dataLen 0 dataLen).take (i + 1))).out =
      e.mem (offset.toNat + i) := by
  obtain ⟨pointer, phase, mem⟩ := run_recvs (e := { e with
    pointer := offset.toNat, phase := .reading }) rfl dataLen (i := 0) block
  rw [run_append, run_readStart e inside, recvs_take dataLen less, run_append]
  change (Eeprom.step _ (.recv (i != dataLen - 1))).out = _
  rw [Eeprom.step, phase]
  rw [mem, pointer]

lemma run_recvs_mem (e : Eeprom) (dataLen i j : Nat) : (e.run (recvs dataLen i j)).mem = e.mem := by
  induction j generalizing e i with
  | zero => rfl
  | succ j ih =>
    rw [recvs_succ]
    refine (ih (e.step (.recv (i != dataLen - 1))) (i + 1)).trans ?_
    rw [Eeprom.step]
    split <;> rfl

lemma run_read_mem (inside : offset.toNat < 2048) (dataLen : Nat) :
    (e.run (.start .transmit (chipOf offset) :: .send (wordOf offset) ::
      .start .receive (chipOf offset) :: (recvs dataLen 0 dataLen ++ [.stop]))).mem = e.mem := by
  change (e.run ([.start .transmit (chipOf offset), .send (wordOf offset),
    .start .receive (chipOf offset)] ++ (recvs dataLen 0 dataLen ++ [.stop]))).mem = e.mem
  rw [run_append, run_append, run_readStart e inside]
  exact run_recvs_mem _ dataLen 0 dataLen

lemma i2cRead_spec (inside : offset.toNat < 2048) (some_len : 0 < len.toNat)
    (few : len.toNat ≤ 128) (block : offset.toNat % 256 + len.toNat ≤ 256) :
    let out := i2cRead e.device (addr0 offset) offset 1 buffer len
    out.result = .ok ∧
      out.log = .start .transmit (chipOf offset) :: .send (wordOf offset) ::
        .start .receive (chipOf offset) :: (recvs len.toNat 0 len.toNat ++ [.stop]) ∧
      ∃ bytes, out.data = some bytes ∧ ∀ i < len.toNat, bytes i = e.mem (offset.toNat + i) := by
  have count := byteLen len few
  have some_data := byteLen_ne_zero some_len few
  have given := address_word offset
  obtain ⟨selected, -⟩ := chipOf_selects inside
  have acked : (e.device.cycle [.start .transmit (chipOf offset)]).ack := by
    change decide ((e.step (.start .transmit (chipOf offset))).phase ≠ .idle) = true
    rw [Eeprom.step, if_pos selected]
    rfl
  have whole := reachedAddress_whole e.device (chipOf offset) (device_done e []
    ([.start .transmit (chipOf offset)] ++
      sends (fun i => xaddr offset (3 + i)) 0 (UInt8.ofNat 1).toNat))
  have read := transferRead_address e.device (chipOf offset) given acked buffer len.toUInt16
  have ok := (readBehind_ok e.device (chipOf offset) (reachedAddress e.device (chipOf offset)
    (fun i => xaddr offset (3 + i)) (UInt8.ofNat 1)) buffer len.toUInt16).mpr (device_done e _ _)
  obtain ⟨log, data⟩ := readBehind_read e.device (chipOf offset) ok
  rw [i2cRead, i2cAccess, if_neg (by decide), i2cTransfer_read e.device _ _ _ buffer some_data rfl]
  rw [← chipOf, read]
  refine ⟨ok, ?_, _, rfl, ?_⟩
  · refine log.trans ?_
    rw [whole, count]
    rfl
  · intro i less
    refine (data i (by rw [count]; exact less)).trans ?_
    rw [whole, count]
    exact run_read e inside less (by omega)

/-! ## All chunks -/

variable {s : Session}

lemma chunks_run {room : UInt32 → UInt32} (some_room : ∀ offset, 0 < room (offset &&& 0xFF))
    {transfer : (offset len : UInt32) → Session → Session} {Kept : UInt32 → Session → Prop}
    (step : ∀ offset len s, Kept offset s → 0 < len.toNat →
      offset.toNat + len.toNat ≤ last.toNat → len.toNat ≤ (room (offset &&& 0xFF)).toNat →
      len.toNat ≤ 128 → Kept (offset + len) (transfer offset len s)) {offset : UInt32}
    (before : offset ≤ last) (kept : Kept offset s) :
    Kept last (chunks room some_room transfer last offset s) := by
  induction offset, s using chunks.induct room some_room transfer last with
  | case1 offset s more len ih =>
    obtain ⟨positive, inside, fits, few⟩ := chunkLen_bounds some_room more
    have next : offset + chunkLen room last offset ≤ last := by
      rw [UInt32.le_iff_toNat_le, UInt32.toNat_add]
      omega
    rw [chunks, if_pos more]
    exact ih next (step offset _ s kept positive inside fits few)
  | case2 offset s done =>
    obtain rfl := UInt32.le_antisymm before (UInt32.not_lt.mp done)
    rw [chunks, if_neg done]
    exact kept

/-- The chunks up to `offset` have been written. -/
structure Written (e : Eeprom) (first : Nat) (buffer : Nat → UInt8) (offset : UInt32)
    (s : Session) : Prop where
  order : first ≤ offset.toNat
  rcode : s.rcode = 0
  kept : s.buffer = buffer
  pos : s.pos = offset.toNat - first
  chip : ∃ e' : Eeprom, s.bus = e'.device ∧ ∀ a, e'.mem a =
    if first ≤ a ∧ a < offset.toNat then buffer (a - first) else e.mem a
  pages : ∀ log ∈ s.logs, InPage log

structure Read (e : Eeprom) (first : Nat) (offset : UInt32) (s : Session) : Prop where
  order : first ≤ offset.toNat
  rcode : s.rcode = 0
  pos : s.pos = offset.toNat - first
  chip : ∃ e' : Eeprom, s.bus = e'.device ∧ e'.mem = e.mem
  got : ∀ i < s.pos, s.buffer i = e.mem (first + i)
  blocks : ∀ log ∈ s.logs, InBlock log

lemma sends_inPage (chip word : UInt8) {n : Nat} (page : word.toNat % 16 + n ≤ 16) :
    InPage (.start .transmit chip :: .send word :: (sends buffer 0 n ++ [.stop])) := by
  refine ⟨chip, word, (List.range' 0 n).map buffer, ?_, ?_⟩
  · rw [List.map_map]
    rfl
  · rw [List.length_map, List.length_range']
    exact page

lemma recvs_inBlock (chip word : UInt8) {n : Nat} (block : word.toNat + n ≤ 256) :
    InBlock (.start .transmit chip :: .send word :: .start .receive chip ::
      (recvs n 0 n ++ [.stop])) := by
  refine ⟨chip, word, (List.range' 0 n).map (· != n - 1), ?_, ?_⟩
  · rw [List.map_map]
    rfl
  · rw [List.length_map, List.length_range']
    exact block

lemma sum_toNat {offset cnt : UInt32} (inside : offset.toNat + cnt.toNat ≤ 2048) :
    (offset + cnt).toNat = offset.toNat + cnt.toNat := by
  rw [UInt32.toNat_add]
  omega

lemma add_toNat {offset len : UInt32} (inside : offset.toNat + len.toNat ≤ last.toNat) :
    (offset + len).toNat = offset.toNat + len.toNat := by
  have small := last.toNat_lt
  rw [UInt32.toNat_add]
  omega

lemma transferred_bus (len : UInt32) (out : Outcome) {e' : Eeprom} (bus : s.bus = e'.device) :
    (s.transferred len out).bus = (e'.run out.log).device :=
  (congrArg (Device.after · _) bus).trans (device_after e' _)

lemma chunk_written {first : Nat} (small : last.toNat ≤ 2048)
    (written : Written e first buffer offset s) (some_len : 0 < len.toNat)
    (inside : offset.toNat + len.toNat ≤ last.toNat)
    (room : len.toNat ≤ (pageRoom (offset &&& 0xFF)).toNat) (few : len.toNat ≤ 128) :
    Written e first buffer (offset + len) (chunk i2cWrite defEepromAddr offset len s) := by
  obtain ⟨order, rcode, kept, pos, ⟨e', bus, mem⟩, pages⟩ := written
  rw [pageRoom_toNat] at room
  have sum := add_toNat inside
  have below : offset.toNat < 2048 := by omega
  have page : offset.toNat % 16 + len.toNat ≤ 16 := by omega
  have wrote := @i2cWrite_spec e' offset len (fun i => s.buffer (s.pos + i)) some_len few
  rw [← bus] at wrote
  rw [chunk, ← addr0, wrote]
  refine ⟨by omega, rcode, ?_, ?_, ⟨_, transferred_bus len _ bus, ?_⟩, ?_⟩
  · funext i
    rw [Session.transferred]
    dsimp only
    split
    case isTrue => rw [kept]
    case isFalse behind =>
      rw [Option.getD_some, Nat.add_sub_cancel' (Nat.le_of_not_lt behind), kept]
  · rw [sum, Session.transferred]
    dsimp only
    omega
  · intro a
    rw [run_write e' _ below page, sum, mem, kept]
    split
    case isTrue here =>
      rw [if_pos (by omega)]
      congr 1
      omega
    case isFalse elsewhere =>
      by_cases earlier : first ≤ a ∧ a < offset.toNat
      · rw [if_pos earlier, if_pos (by omega)]
      · rw [if_neg earlier, if_neg (by omega)]
  · intro log member
    rcases List.mem_append.mp member with old | new
    · exact pages log old
    obtain rfl := List.mem_singleton.mp new
    apply sends_inPage
    rw [wordOf_toNat]
    omega

lemma chunk_read {first : Nat} (small : last.toNat ≤ 2048) (read : Read e first offset s)
    (some_len : 0 < len.toNat) (inside : offset.toNat + len.toNat ≤ last.toNat)
    (room : len.toNat ≤ (blockRoom (offset &&& 0xFF)).toNat) (few : len.toNat ≤ 128) :
    Read e first (offset + len) (chunk i2cRead defEepromAddr offset len s) := by
  obtain ⟨order, rcode, pos, ⟨e', bus, mem⟩, got, blocks⟩ := read
  rw [blockRoom_toNat] at room
  have sum := add_toNat inside
  have below : offset.toNat < 2048 := by omega
  have block : offset.toNat % 256 + len.toNat ≤ 256 := by omega
  obtain ⟨ok, log, bytes, data, bytes_eq⟩ :=
    @i2cRead_spec e' offset len (fun i => s.buffer (s.pos + i)) below some_len few block
  rw [← bus] at ok log data
  rw [chunk, ← addr0]
  refine ⟨by omega, ?_, ?_, ⟨_, transferred_bus len _ bus, ?_⟩, ?_, ?_⟩
  · rw [Session.transferred, ok]
    exact rcode
  · rw [sum, Session.transferred]
    dsimp only
    omega
  · rw [log, run_read_mem e' below, mem]
  · intro i behind
    change i < s.pos + len.toNat at behind
    rw [Session.transferred, data]
    dsimp only
    split
    case isTrue earlier => exact got i earlier
    case isFalse here =>
      rw [Option.getD_some, bytes_eq _ (by omega), mem]
      congr 1
      omega
  · intro other member
    rcases List.mem_append.mp member with old | new
    · exact blocks _ old
    rw [List.mem_singleton.mp new, log]
    apply recvs_inBlock
    rw [wordOf_toNat]
    omega

lemma eepromWrite_written (e : Eeprom) {offset cnt : UInt32} (buffer : Nat → UInt8)
    (inside : offset.toNat + cnt.toNat ≤ 2048) :
    Written e offset.toNat buffer (offset + cnt)
      (eepromWrite e.device defEepromAddr offset buffer cnt) := by
  have last := sum_toNat inside
  have small : (offset + cnt).toNat ≤ 2048 := last ▸ inside
  have step (offset' len : UInt32) (s : Session) (written : Written e offset.toNat buffer offset' s)
      (positive : 0 < len.toNat) (inside' : offset'.toNat + len.toNat ≤ (offset + cnt).toNat)
      (room : len.toNat ≤ (pageRoom (offset' &&& 0xFF)).toNat) (few : len.toNat ≤ 128) :=
    chunk_written e buffer small written positive inside' room few
  refine chunks_run pageRoom_pos step (UInt32.le_iff_toNat_le.mpr (by omega)) ?_
  refine ⟨Nat.le_refl _, rfl, rfl, (Nat.sub_self _).symm, ⟨e, rfl, ?_⟩, ?_⟩
  · intro a
    rw [if_neg (by omega)]
  · exact fun _ none => absurd none List.not_mem_nil

lemma eepromRead_read (e : Eeprom) {offset cnt : UInt32} (buffer : Nat → UInt8)
    (inside : offset.toNat + cnt.toNat ≤ 2048) :
    Read e offset.toNat (offset + cnt)
      (eepromRead e.device defEepromAddr offset buffer cnt) := by
  have last := sum_toNat inside
  have small : (offset + cnt).toNat ≤ 2048 := last ▸ inside
  have step (offset' len : UInt32) (s : Session) (read : Read e offset.toNat offset' s)
      (positive : 0 < len.toNat) (inside' : offset'.toNat + len.toNat ≤ (offset + cnt).toNat)
      (room : len.toNat ≤ (blockRoom (offset' &&& 0xFF)).toNat) (few : len.toNat ≤ 128) :=
    chunk_read e small read positive inside' room few
  refine chunks_run blockRoom_pos step (UInt32.le_iff_toNat_le.mpr (by omega)) ?_
  refine ⟨Nat.le_refl _, rfl, (Nat.sub_self _).symm, ⟨e, rfl, rfl⟩, ?_, ?_⟩
  · exact fun i none => absurd none i.not_lt_zero
  · exact fun _ none => absurd none List.not_mem_nil

/-- What `eeprom_write` writes `eeprom_read` reads, and nothing else is written. -/
theorem eeprom_roundTrip (e : Eeprom) {offset cnt : UInt32}
    (inside : offset.toNat + cnt.toNat ≤ 2048) (buffer target : Nat → UInt8) :
    let written := eepromWrite e.device defEepromAddr offset buffer cnt
    RoundTrip e offset cnt buffer written
      (eepromRead written.bus defEepromAddr offset target cnt) := by
  have written := eepromWrite_written e buffer inside
  obtain ⟨e', bus, mem⟩ := written.chip
  have read := eepromRead_read e' target inside
  have last := sum_toNat inside
  dsimp only
  rw [bus]
  obtain ⟨e'', bus', mem'⟩ := read.chip
  refine ⟨written.rcode, read.rcode, ?_, ⟨e'', bus', ?_⟩, written.pages, read.blocks⟩
  · intro i less
    rw [read.got i (by rw [read.pos]; omega), mem, if_pos (by omega), Nat.add_sub_cancel_left]
  · intro a outside
    rw [mem', mem, if_neg (by omega)]

def erased : Eeprom := ⟨fun _ => 0xFF, 0, .idle, 0xFF⟩

theorem roundTrip_across_blocks :
    let written := eepromWrite erased.device defEepromAddr 0xF8 (fun i => UInt8.ofNat i) 300
    RoundTrip erased 0xF8 300 (fun i => UInt8.ofNat i) written
      (eepromRead written.bus defEepromAddr 0xF8 (fun _ => 0) 300) :=
  eeprom_roundTrip erased (by decide) _ _

end I2c
