import UBoot.Lib.Runs

/-!
# Sending to the virtual serial port (drivers/usb/slave/usb2uart.c)

`Usb2UartSendData` writes packets to the FIFO of bulk endpoint 2 and marks them as ready. The host
collects them at any time in between, and IN_PKT_READY is set as long as the FIFO is full.
-/

namespace UartSend

def ep2PktSize : Nat := 32

/-- EPI_IN_PKT_READY, EPI_FIFO_FLUSH and EPI_CDT -/
def epiInPktReady : UInt8 := 0x01
def epiFifoFlush : UInt8 := 0x08
def epiCdt : UInt8 := 0x40

def epiWrBits : UInt8 := epiFifoFlush ||| epiInPktReady ||| epiCdt

/-- A packet that is filled, those that wait for the host, and what has been on the bus; the other
bits of the status register, and `ulEPStatus`. -/
structure Endpoint where
  filling : List UInt8
  waiting : List (List UInt8)
  bus : List (List UInt8)
  flags : UInt8
  ulEPStatus : UInt8

inductive Access where
  | put (b : UInt8)     -- EP_FIFO_REG
  | index               -- INDEX_REG, for the two below
  | status
  | send
  deriving DecidableEq

/-- A write of the status register: the FIFO is flushed, or the packet in it is committed. -/
def Endpoint.written (s : Endpoint) (value : UInt8) : Endpoint :=
  let s := if value &&& epiFifoFlush ≠ 0 then { s with filling := [] } else s
  if value &&& epiInPktReady ≠ 0 then
    { s with filling := [], waiting := s.waiting ++ [s.filling] }
  else s

/-- An access, when the FIFO holds `room` packets. There is no next state where a byte is written
while IN_PKT_READY is set. -/
def perform (room : Nat) (s : Endpoint) : Access → Option Endpoint
  | .put b =>
    if room ≤ s.waiting.length then none else some { s with filling := s.filling ++ [b] }
  | .index => some s
  | .status =>
    let ready := if room ≤ s.waiting.length then epiInPktReady else 0
    some { s with ulEPStatus := s.flags ||| ready }
  | .send => some (s.written (s.ulEPStatus &&& ~~~epiWrBits ||| epiInPktReady))

def collect (s : Endpoint) (n : Nat) : Endpoint :=
  { s with waiting := s.waiting.drop n, bus := s.bus ++ s.waiting.take n }

def usbEndpointDataPut (data : List UInt8) : List Access := data.map .put

def usbEndpointDataSend : List Access := [.index, .status, .send]

/-- `Usb2UartSendData`, for the `ulCount` bytes at `pucBuffer`. -/
def usb2UartSendData (buffer : List UInt8) : List Access :=
  if ep2PktSize < buffer.length then
    usbEndpointDataPut (buffer.take ep2PktSize) ++ usbEndpointDataSend ++
      usb2UartSendData (buffer.drop ep2PktSize)
  else usbEndpointDataPut buffer ++ usbEndpointDataSend
termination_by buffer.length
decreasing_by
  unfold ep2PktSize at *
  rw [List.length_drop]
  omega

/-- The accesses from the `i`-th one on, in front of each of which the host may collect packets. -/
def run (room : Nat) (collects : Nat → Nat) : (i : Nat) → List Access → Endpoint → Option Endpoint
  | _, [], s => some s
  | i, access :: rest, s =>
    match perform room (collect s (collects i)) access with
    | none => none
    | some s => run room collects (i + 1) rest s

/-- How many packets the host has collected in front of the `i`-th access. -/
def collected (collects : Nat → Nat) : Nat → Nat
  | 0 => 0
  | i + 1 => collected collects i + collects i

structure Timing (accesses : List Access) (held : Nat) where
  collects : Nat → Nat
  committed : ∀ front access rest, accesses = front ++ access :: rest →
    collected collects (front.length + 1) ≤ held + front.count .send

/-- The packets that were sent before are followed by those of the buffer. -/
structure Delivered (held : List (List UInt8)) (buffer : List UInt8) (s : Endpoint) : Prop where
  done : s.filling = []
  packets : ∃ ps, s.bus ++ s.waiting = held ++ ps ∧ ps.flatten = buffer ∧
    ∀ p ∈ ps, p.length ≤ ep2PktSize

def start (held : List (List UInt8)) (flags ulEPStatus : UInt8) : Endpoint :=
  ⟨[], held, [], flags, ulEPStatus⟩

/-- The buffer is sent, and no byte is written while IN_PKT_READY is set. -/
def Sends (room : Nat) (held : List (List UInt8)) (flags ulEPStatus : UInt8) (buffer : List UInt8)
    (timing : Timing (usb2UartSendData buffer) held.length) : Prop :=
  ∃ s, run room timing.collects 0 (usb2UartSendData buffer) (start held flags ulEPStatus) = some s ∧
    Delivered held buffer s

def packetAccesses : Nat := ep2PktSize + usbEndpointDataSend.length

/-- The host has collected all but fewer than `room` of the packets in front of each packet when its
first byte is written. -/
def InTime (room held count : Nat) (collects : Nat → Nat) : Prop :=
  ∀ k, k * ep2PktSize < count →
    held + k < room + collected collects (k * packetAccesses + 1)

structure Along (collects : Nat → Nat) (line : List (List UInt8)) (i : Nat) (s : Endpoint) :
    Prop where
  count : s.waiting.length + collected collects i = line.length
  packets : s.bus ++ s.waiting = line

lemma written_send (s : Endpoint) (status : UInt8) :
    s.written (status &&& ~~~epiWrBits ||| epiInPktReady) =
      { s with filling := [], waiting := s.waiting ++ [s.filling] } := by
  have bits : ∀ x : BitVec 8, (x &&& ~~~0x49 ||| 1) &&& 8 = 0 ∧
      (x &&& ~~~0x49 ||| 1) &&& 1 ≠ 0 := by decide
  obtain ⟨flush, ready⟩ := bits status.toBitVec
  have no_flush : (status &&& ~~~epiWrBits ||| epiInPktReady) &&& epiFifoFlush = 0 :=
    UInt8.toBitVec_inj.mp flush
  have commits : (status &&& ~~~epiWrBits ||| epiInPktReady) &&& epiInPktReady ≠ 0 :=
    fun none => ready (congrArg UInt8.toBitVec none)
  unfold Endpoint.written
  rw [if_neg (not_not.mpr no_flush)]
  exact if_pos commits

lemma collected_le (collects : Nat → Nat) {i j : Nat} (le : i ≤ j) :
    collected collects i ≤ collected collects j := by
  induction j with
  | zero => exact Nat.le_of_eq (congrArg _ (Nat.le_zero.mp le))
  | succ j ih =>
    rcases Nat.le_succ_iff.mp le with before | rfl
    · exact Nat.le_trans (ih before) (Nat.le_add_right _ _)
    · exact Nat.le_refl _

section
variable {room i : Nat} {collects : Nat → Nat} {line : List (List UInt8)} {s : Endpoint}
  {rest : List Access}

lemma Along.collect (along : Along collects line i s)
    (committed : collected collects (i + 1) ≤ line.length) :
    Along collects line (i + 1) (collect s (collects i)) := by
  have count := along.count
  rw [collected] at committed
  constructor
  · rw [UartSend.collect, List.length_drop, collected]
    omega
  · rw [UartSend.collect, List.append_assoc, List.take_append_drop]
    exact along.packets

lemma run_put (data : List UInt8) (along : Along collects line i s)
    (committed : ∀ j < data.length, collected collects (i + j + 1) ≤ line.length)
    (enough : line.length < room + collected collects (i + 1)) :
    ∃ s', run room collects i (usbEndpointDataPut data ++ rest) s =
        run room collects (i + data.length) rest s' ∧
      Along collects line (i + data.length) s' ∧ s'.filling = s.filling ++ data := by
  induction data generalizing i s with
  | nil => exact ⟨s, rfl, along, (List.append_nil _).symm⟩
  | cons b data ih =>
    have next := along.collect (committed 0 (Nat.succ_pos _))
    have count := next.count
    have put : perform room (UartSend.collect s (collects i)) (.put b) =
        some { UartSend.collect s (collects i) with filling := s.filling ++ [b] } :=
      if_neg (by omega)
    have more := collected_le collects (by omega : i + 1 ≤ i + 1 + 1)
    obtain ⟨s', ran, along', filled⟩ := @ih (i + 1)
      { UartSend.collect s (collects i) with filling := s.filling ++ [b] }
      ⟨next.count, next.packets⟩
      (fun j less => by
        have := committed (j + 1) (Nat.succ_lt_succ less)
        rwa [show i + (j + 1) + 1 = i + 1 + j + 1 by omega] at this)
      (by omega)
    rw [show i + 1 + data.length = i + (b :: data).length by rw [List.length_cons]; omega]
      at ran along'
    refine ⟨s', ?_, along', ?_⟩
    · rw [← ran]
      change (match perform room (UartSend.collect s (collects i)) (.put b) with
        | none => none
        | some s => run room collects (i + 1) (usbEndpointDataPut data ++ rest) s) = _
      rw [put]
    · rw [filled, List.append_assoc]
      rfl

lemma run_put_full {data : List UInt8} (some_data : data ≠ []) (along : Along collects line i s)
    (committed : collected collects (i + 1) ≤ line.length)
    (full : room + collected collects (i + 1) ≤ line.length) :
    run room collects i (usbEndpointDataPut data ++ rest) s = none := by
  obtain ⟨b, data, rfl⟩ := List.exists_cons_of_ne_nil some_data
  have count := (along.collect committed).count
  have put : perform room (UartSend.collect s (collects i)) (.put b) = none := if_pos (by omega)
  change (match perform room (UartSend.collect s (collects i)) (.put b) with
    | none => none
    | some s => run room collects (i + 1) (usbEndpointDataPut data ++ rest) s) = none
  rw [put]

lemma run_send (along : Along collects line i s)
    (committed : collected collects (i + 3) ≤ line.length) :
    ∃ s', run room collects i (usbEndpointDataSend ++ rest) s =
        run room collects (i + 3) rest s' ∧
      Along collects (line ++ [s.filling]) (i + 3) s' ∧ s'.filling = [] := by
  have first := collected_le collects (by omega : i + 1 ≤ i + 3)
  have second := collected_le collects (by omega : i + 1 + 1 ≤ i + 3)
  have indexed := along.collect (by omega)
  have read := indexed.collect (by omega)
  obtain ⟨t, step, count, packets, filling⟩ : ∃ t,
      perform room (UartSend.collect (UartSend.collect s (collects i)) (collects (i + 1))) .status =
          some t ∧ t.waiting.length + collected collects (i + 1 + 1) = line.length ∧
        t.bus ++ t.waiting = line ∧ t.filling = s.filling :=
    ⟨_, rfl, read.count, read.packets, rfl⟩
  have sent := (⟨count, packets⟩ : Along collects line (i + 1 + 1) t).collect committed
  have ran : run room collects i (usbEndpointDataSend ++ rest) s = run room collects (i + 3) rest
      { UartSend.collect t (collects (i + 1 + 1)) with
        filling := [], waiting := (UartSend.collect t (collects (i + 1 + 1))).waiting ++
          [(UartSend.collect t (collects (i + 1 + 1))).filling] } := by
    change (match perform room (UartSend.collect (UartSend.collect s (collects i))
        (collects (i + 1))) .status with
      | none => none
      | some s => run room collects (i + 1 + 1) (.send :: rest) s) = _
    rw [step]
    change run room collects (i + 3) rest
      ((UartSend.collect t (collects (i + 1 + 1))).written _) = _
    rw [written_send]
  refine ⟨_, ran, ⟨?_, ?_⟩, rfl⟩
  · have count : _ + collected collects (i + 3) = line.length := sent.count
    rw [List.length_append, List.length_append, List.length_singleton, List.length_singleton]
    omega
  · dsimp only
    rw [← List.append_assoc, sent.packets]
    exact congrArg (line ++ [·]) filling

end

lemma put_count (data : List UInt8) : (usbEndpointDataPut data).count .send = 0 := by
  refine List.count_eq_zero.mpr fun member => ?_
  obtain ⟨b, -, put⟩ := List.mem_map.mp member
  cases put

def Committed (collects : Nat → Nat) (line i : Nat) (accesses : List Access) : Prop :=
  ∀ front access rest, accesses = front ++ access :: rest →
    collected collects (i + front.length + 1) ≤ line + front.count .send

section
variable {collects : Nat → Nat} {line i : Nat} {data : List UInt8} {rest : List Access}

lemma Committed.put
    (committed : Committed collects line i
      (usbEndpointDataPut data ++ usbEndpointDataSend ++ rest)) {j : Nat} (less : j < data.length) :
    collected collects (i + j + 1) ≤ line := by
  have here := committed (usbEndpointDataPut (data.take j)) (.put data[j])
    (usbEndpointDataPut (data.drop (j + 1)) ++ usbEndpointDataSend ++ rest) (by
      rw [← List.cons_append, ← List.cons_append, ← List.append_assoc, ← List.append_assoc]
      congr 2
      conv_lhs => rw [← List.take_append_drop j data, List.drop_eq_getElem_cons less]
      rw [usbEndpointDataPut, List.map_append]
      rfl)
  rwa [put_count, Nat.add_zero, usbEndpointDataPut, List.length_map, List.length_take,
    Nat.min_eq_left (Nat.le_of_lt less)] at here

lemma Committed.send
    (committed : Committed collects line i
      (usbEndpointDataPut data ++ usbEndpointDataSend ++ rest)) :
    collected collects (i + data.length + 3) ≤ line := by
  have here := committed (usbEndpointDataPut data ++ [.index, .status]) .send rest (by
    rw [List.append_assoc, List.append_assoc]
    rfl)
  rw [List.count_append, put_count, List.length_append, usbEndpointDataPut, List.length_map] at here
  exact here

lemma Committed.next
    (committed : Committed collects line i
      (usbEndpointDataPut data ++ usbEndpointDataSend ++ rest)) :
    Committed collects (line + 1) (i + data.length + 3) rest := by
  intro front access rest' whole
  have there := committed (usbEndpointDataPut data ++ usbEndpointDataSend ++ front) access rest' (by
    rw [whole, List.append_assoc _ front])
  rw [List.count_append, List.count_append, put_count, List.length_append, List.length_append,
    usbEndpointDataPut, List.length_map] at there
  rw [show i + data.length + 3 + front.length + 1 =
    i + (data.length + usbEndpointDataSend.length + front.length) + 1 by
      change _ = i + (data.length + 3 + front.length) + 1
      omega]
  refine Nat.le_trans there (Nat.le_of_eq ?_)
  change line + (0 + 1 + _) = _
  omega

end

lemma run_packet {room i : Nat} {collects : Nat → Nat} {line : List (List UInt8)} {s : Endpoint}
    {data : List UInt8} {rest : List Access} (some_data : data ≠ [])
    (along : Along collects line i s) (empty : s.filling = [])
    (committed : Committed collects line.length i
      (usbEndpointDataPut data ++ usbEndpointDataSend ++ rest)) :
    if line.length < room + collected collects (i + 1) then
      ∃ s', run room collects i (usbEndpointDataPut data ++ usbEndpointDataSend ++ rest) s =
          run room collects (i + data.length + 3) rest s' ∧
        Along collects (line ++ [data]) (i + data.length + 3) s' ∧ s'.filling = []
    else run room collects i (usbEndpointDataPut data ++ usbEndpointDataSend ++ rest) s = none := by
  rw [List.append_assoc]
  split
  · next enough =>
    obtain ⟨s₁, put, along₁, filled⟩ := @run_put room i collects line s
      (usbEndpointDataSend ++ rest) data along (fun j less => committed.put less) enough
    obtain ⟨s₂, sent, along₂, done⟩ := @run_send room (i + data.length) collects line s₁ rest along₁
      committed.send
    rw [filled, empty, List.nil_append] at along₂
    exact ⟨s₂, put.trans sent, along₂, done⟩
  · next full =>
    exact run_put_full some_data along
      (committed.put (List.length_pos_iff.mpr some_data)) (Nat.not_lt.mp full)

def Room (room line i count : Nat) (collects : Nat → Nat) : Prop :=
  ∀ k, k * ep2PktSize < count →
    line + k < room + collected collects (i + k * packetAccesses + 1)

lemma room_cons {room line i count : Nat} {collects : Nat → Nat} (long : ep2PktSize < count) :
    Room room line i count collects ↔ line < room + collected collects (i + 1) ∧
      Room room (line + 1) (i + ep2PktSize + 3) (count - ep2PktSize) collects := by
  have later (k : Nat) : i + (k + 1) * packetAccesses + 1 =
      i + ep2PktSize + 3 + k * packetAccesses + 1 := by
    rw [Nat.succ_mul]
    change _ = i + 32 + 3 + _ + 1
    change i + (_ + 35) + 1 = _
    omega
  constructor
  · intro room
    refine ⟨by simpa using room 0 (by omega), fun k less => ?_⟩
    have next := room (k + 1) (by rw [Nat.succ_mul]; omega)
    rw [later] at next
    omega
  · rintro ⟨first, room⟩ k less
    cases k with
    | zero => simpa using first
    | succ k =>
      have next := room k (by rw [Nat.succ_mul] at less; omega)
      rw [later]
      omega

lemma room_last {room line i count : Nat} {collects : Nat → Nat} (short : ¬ep2PktSize < count)
    (some_data : 0 < count) :
    Room room line i count collects ↔ line < room + collected collects (i + 1) := by
  constructor
  · intro room
    simpa using room 0 (by omega)
  · intro first k less
    have zero : k = 0 := by
      by_contra more
      have := Nat.mul_le_mul_right ep2PktSize (Nat.one_le_iff_ne_zero.mpr more)
      omega
    rw [zero]
    simpa using first

lemma Delivered.cons {line : List (List UInt8)} {data rest : List UInt8} {s : Endpoint}
    (delivered : Delivered (line ++ [data]) rest s) (size : data.length ≤ ep2PktSize) :
    Delivered line (data ++ rest) s := by
  obtain ⟨done, ps, packets, whole, sizes⟩ := delivered
  refine ⟨done, data :: ps, ?_, ?_, List.forall_mem_cons.mpr ⟨size, sizes⟩⟩
  · rw [packets, List.append_assoc]
    rfl
  · rw [List.flatten_cons, whole]

lemma run_sends {room : Nat} {collects : Nat → Nat} {buffer : List UInt8} (some_data : buffer ≠ [])
    {line : List (List UInt8)} {i : Nat} {s : Endpoint} (along : Along collects line i s)
    (empty : s.filling = [])
    (committed : Committed collects line.length i (usb2UartSendData buffer)) :
    (Room room line.length i buffer.length collects →
      ∃ s', run room collects i (usb2UartSendData buffer) s = some s' ∧ Delivered line buffer s') ∧
    (¬Room room line.length i buffer.length collects →
      run room collects i (usb2UartSendData buffer) s = none) := by
  induction buffer using usb2UartSendData.induct generalizing line i s with
  | case1 buffer long ih =>
    rw [usb2UartSendData, if_pos long] at committed ⊢
    have size : (buffer.take ep2PktSize).length = ep2PktSize := by
      rw [List.length_take]
      exact Nat.min_eq_left (Nat.le_of_lt long)
    have some_left : buffer.drop ep2PktSize ≠ [] := by
      rw [← List.length_pos_iff, List.length_drop]
      omega
    have some_front : buffer.take ep2PktSize ≠ [] := by
      rw [← List.length_pos_iff, size]
      decide
    have packet := @run_packet room _ _ _ _ _ _ some_front along empty committed
    rw [room_cons long]
    by_cases enough : line.length < room + collected collects (i + 1)
    · rw [if_pos enough] at packet
      obtain ⟨s', ran, along', empty'⟩ := packet
      have rest := ih some_left along' empty' (by
        rw [List.length_append]
        exact committed.next)
      rw [List.length_append, List.length_singleton, size, List.length_drop] at rest
      rw [ran, size, and_iff_right enough]
      refine ⟨fun later => ?_, rest.2⟩
      obtain ⟨t, ended, delivered⟩ := rest.1 later
      have whole := delivered.cons (Nat.le_of_eq size)
      rw [List.take_append_drop] at whole
      exact ⟨t, ended, whole⟩
    · rw [if_neg enough] at packet
      exact ⟨fun room => absurd room.1 enough, fun _ => packet⟩
  | case2 buffer short =>
    rw [usb2UartSendData, if_neg short] at committed ⊢
    rw [room_last short (List.length_pos_iff.mpr some_data)]
    rw [← List.append_nil (usbEndpointDataPut buffer ++ usbEndpointDataSend)] at committed ⊢
    have packet := @run_packet room _ _ _ _ _ _ some_data along empty committed
    by_cases enough : line.length < room + collected collects (i + 1)
    · rw [if_pos enough] at packet
      obtain ⟨s', ran, along', empty'⟩ := packet
      refine ⟨fun _ => ⟨s', ran, empty', [buffer], along'.packets, ?_, ?_⟩, fun less => ?_⟩
      · exact List.append_nil _
      · exact List.forall_mem_singleton.mpr (Nat.not_lt.mp short)
      · exact absurd enough less
    · rw [if_neg enough] at packet
      exact ⟨fun room => absurd room enough, fun _ => packet⟩

/-- A buffer is sent, whatever the host does, if and only if it collects packets in time. -/
theorem usb2UartSendData_sends_iff (room : Nat) (held : List (List UInt8)) (flags status : UInt8)
    {buffer : List UInt8} (some_data : buffer ≠ [])
    (timing : Timing (usb2UartSendData buffer) held.length) :
    Sends room held flags status buffer timing ↔
      InTime room held.length buffer.length timing.collects := by
  have along : Along timing.collects held 0 (start held flags status) := ⟨rfl, rfl⟩
  have committed : Committed timing.collects held.length 0 (usb2UartSendData buffer) := by
    intro front access rest whole
    rw [Nat.zero_add]
    exact timing.committed front access rest whole
  have sends := @run_sends room _ _ some_data _ _ _ along rfl committed
  have same : Room room held.length 0 buffer.length timing.collects ↔
      InTime room held.length buffer.length timing.collects := by
    unfold Room InTime
    simp only [Nat.zero_add]
  rw [same] at sends
  constructor
  · rintro ⟨s, ran, -⟩
    by_contra late
    rw [sends.2 late] at ran
    cases ran
  · exact sends.1

def idle (accesses : List Access) : Timing accesses 0 where
  collects _ := 0
  committed front access rest _ := by
    have none (i : Nat) : collected (fun _ => 0) i = 0 := by
      induction i with
      | zero => rfl
      | succ i ih => exact ih
    rw [none]
    exact Nat.zero_le _

/-- The FIFO has room for two packets. -/
theorem two_packets_sent : Sends 2 [] 0 0 (List.replicate 64 0x41) (idle _) := by
  refine (usb2UartSendData_sends_iff 2 [] 0 0 (by decide) (idle _)).mpr fun k less => ?_
  rw [List.length_replicate] at less
  unfold ep2PktSize at less
  obtain rfl | rfl : k = 0 ∨ k = 1 := by omega
  · decide
  · decide

/-- The third packet is written over it. -/
theorem third_packet_too_early : ¬Sends 2 [] 0 0 (List.replicate 96 0x41) (idle _) := by
  rintro ⟨s, ran, -⟩
  have stops := (@run_sends 2 (fun _ => 0) (List.replicate 96 0x41) (by decide) [] 0 (start [] 0 0)
    ⟨rfl, rfl⟩ rfl (fun front access rest whole => by
      rw [Nat.zero_add]
      exact (idle _).committed front access rest whole)).2
    fun room => absurd (room 2 (by decide)) (by decide)
  cases stops.symm.trans ran

end UartSend
