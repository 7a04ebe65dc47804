import Mathlib.Logic.Function.Basic
import Mathlib.Data.List.Basic

/-!
# Transfers on the I2C bus (drivers/i2c/s3c24x0_i2c.c)

`i2c_transfer` puts bytes on the bus and waits for each, and the device may acknowledge a byte, not
acknowledge it or let the wait time out.
-/

namespace I2c

inductive Mode where
  | transmit
  | receive
  deriving DecidableEq

inductive Event where
  | start (mode : Mode) (chip : UInt8)
  | send (byte : UInt8)
  | recv (ack : Bool)
  | stop
  deriving DecidableEq

/-- How a byte ends: `I2CCON_IRPND` set in time, `I2CSTAT_NACK` clear, and `IICDS`. -/
structure Cycle where
  done : Bool
  ack : Bool
  data : UInt8

/-- The other side of the bus: the answer to the last of the events, after all before it. -/
structure Device where
  busy : Bool
  cycle : List Event → Cycle

inductive Status where
  | ok
  | nok
  | nack
  | tout
  deriving DecidableEq

def cmdWrite : UInt8 := 0

def cmdRead : UInt8 := 1

structure Outcome where
  result : Status
  log : List Event
  data : Option (Nat → UInt8)

def waitForXfer (d : Device) (log : List Event) : Status :=
  if (d.cycle log).done then .ok else .tout

def isACK (d : Device) (log : List Event) : Bool := (d.cycle log).ack

def address (addr : Option (Nat → UInt8)) (addrLen : UInt8) : Option (Nat → UInt8) :=
  if addrLen = 0 then none else addr

/-- The first two loops of `I2C_WRITE`: a byte is put on the bus whether or not the wait for the one
before it timed out. -/
def writeLoop (d : Device) (bytes : Nat → UInt8) :
    (i left : Nat) → Status × List Event → Status × List Event
  | _, 0, bus => bus
  | i, left + 1, (result, log) =>
    if result = .ok then
      writeLoop d bytes (i + 1) left (waitForXfer d log, log ++ [.send (bytes i)])
    else (result, log)

def transferWrite (d : Device) (chip : UInt8) (addr : Option (Nat → UInt8)) (addrLen : UInt8)
    (data : Nat → UInt8) (dataLen : UInt16) : Status × List Event :=
  let log := [Event.start .transmit chip]
  let (result, log) :=
    match address addr addrLen with
    | some addr =>
      writeLoop d data 0 dataLen.toNat (writeLoop d addr 0 addrLen.toNat (.ok, log))
    -- the condition of the third loop assigns I2C_OK, which is 0
    | none => (.ok, log)
  let result := if result = .ok then waitForXfer d log else result
  (result, log ++ [Event.stop])

def addressLoop (d : Device) (addr : Nat → UInt8) :
    (i left : Nat) → Status × List Event → Status × List Event
  | _, 0, bus => bus
  | i, left + 1, (result, log) =>
    if result = .ok then
      let log := log ++ [.send (addr i)]
      addressLoop d addr (i + 1) left (waitForXfer d log, log)
    else (result, log)

/-- The data loops of `I2C_READ`, without an acknowledge for the last byte. -/
def readLoop (d : Device) (dataLen : Nat) : (i left : Nat) →
    Status × List Event × (Nat → UInt8) → Status × List Event × (Nat → UInt8)
  | _, 0, bus => bus
  | i, left + 1, (result, log, data) =>
    if result = .ok then
      let log := log ++ [Event.recv (i != dataLen - 1)]
      readLoop d dataLen (i + 1) left
        (waitForXfer d log, log, Function.update data i (d.cycle log).data)
    else (result, log, data)

def transferRead (d : Device) (chip : UInt8) (addr : Option (Nat → UInt8)) (addrLen : UInt8)
    (data : Nat → UInt8) (dataLen : UInt16) : Status × List Event × (Nat → UInt8) :=
  let (result, log, data) :=
    match address addr addrLen with
    | some addr =>
      let log := [Event.start .transmit chip]
      let result := waitForXfer d log
      if isACK d log then
        -- the result of the address is not looked at again
        let (_, log) := addressLoop d addr 0 addrLen.toNat (result, log)
        let log := log ++ [Event.start .receive chip]
        readLoop d dataLen.toNat 0 dataLen.toNat (waitForXfer d log, log, data)
      else (.nack, log, data)
    | none =>
      let log := [Event.start .receive chip]
      let result := waitForXfer d log
      if isACK d log then readLoop d dataLen.toNat 0 dataLen.toNat (result, log, data)
      else (.nack, log, data)
  (result, log ++ [Event.stop], data)

def i2cTransfer (d : Device) (cmdType chip : UInt8) (addr : Option (Nat → UInt8))
    (addrLen : UInt8) (data : Option (Nat → UInt8)) (dataLen : UInt16) : Outcome :=
  match data with
  | none => ⟨.nok, [], none⟩
  | some bytes =>
    if dataLen = 0 then ⟨.nok, [], data⟩
    else if d.busy then ⟨.tout, [], data⟩
    else if cmdType = cmdWrite then
      let (result, log) := transferWrite d chip addr addrLen bytes dataLen
      ⟨result, log, data⟩
    else if cmdType = cmdRead then
      let (result, log, bytes) := transferRead d chip addr addrLen bytes dataLen
      ⟨result, log, some bytes⟩
    else ⟨.nok, [], data⟩

def sends (bytes : Nat → UInt8) (i left : Nat) : List Event :=
  (List.range' i left).map fun i => .send (bytes i)

def recvs (dataLen i left : Nat) : List Event :=
  (List.range' i left).map fun i => .recv (i != dataLen - 1)

def addressSends (addr : Option (Nat → UInt8)) (addrLen : UInt8) : List Event :=
  match address addr addrLen with
  | some addr => sends addr 0 addrLen.toNat
  | none => []

def writeEvents (chip : UInt8) (addr : Option (Nat → UInt8)) (addrLen : UInt8)
    (data : Nat → UInt8) (dataLen : UInt16) : List Event :=
  .start .transmit chip :: (addressSends addr addrLen ++ sends data 0 dataLen.toNat)

def readStart (chip : UInt8) (addr : Option (Nat → UInt8)) (addrLen : UInt8) : List Event :=
  match address addr addrLen with
  | some addr =>
    .start .transmit chip :: (sends addr 0 addrLen.toNat ++ [Event.start .receive chip])
  | none => [Event.start .receive chip]

def Each (p : Cycle → Bool) (d : Device) : (log : List Event) → List Event → Prop
  | _, [] => True
  | log, e :: events => p (d.cycle (log ++ [e])) ∧ Each p d (log ++ [e]) events

def Cycle.acked (c : Cycle) : Bool := c.done && c.ack

/-- A write that returns `I2C_OK` has put all on the bus, each byte completed and acknowledged. -/
def WriteSound (d : Device) (chip : UInt8) (addr : Option (Nat → UInt8)) (addrLen : UInt8)
    (data : Option (Nat → UInt8)) (dataLen : UInt16) : Prop :=
  let out := i2cTransfer d cmdWrite chip addr addrLen data dataLen
  out.result = .ok → ∃ bytes, data = some bytes ∧
    out.log = writeEvents chip addr addrLen bytes dataLen ++ [.stop] ∧
    Each Cycle.acked d [] (writeEvents chip addr addrLen bytes dataLen)

/-- A read that returns `I2C_OK` has sent the address, each byte of it acknowledged, and has the
bytes of the device. -/
def ReadSound (d : Device) (chip : UInt8) (addr : Option (Nat → UInt8)) (addrLen : UInt8)
    (data : Option (Nat → UInt8)) (dataLen : UInt16) : Prop :=
  let out := i2cTransfer d cmdRead chip addr addrLen data dataLen
  let head := readStart chip addr addrLen
  let tail := recvs dataLen.toNat 0 dataLen.toNat
  out.result = .ok → ∃ bytes, out.data = some bytes ∧ out.log = head ++ tail ++ [.stop] ∧
    Each Cycle.acked d [] head ∧ Each Cycle.done d head tail ∧
    ∀ i < dataLen.toNat, bytes i = (d.cycle (head ++ tail.take (i + 1))).data

def reached (d : Device) : (log : List Event) → List Event → List Event
  | log, [] => log
  | log, e :: events =>
    if (d.cycle (log ++ [e])).done then reached d (log ++ [e]) events else log ++ [e]

def reachedAddress (d : Device) (chip : UInt8) (addr : Nat → UInt8) (addrLen : UInt8) :
    List Event :=
  let log := [Event.start .transmit chip]
  if (d.cycle log).done then reached d log (sends addr 0 addrLen.toNat) else log

/-- A write in which some byte times out, or all are acknowledged. Without an address the chip
address has to time out. -/
def WriteFailuresShow (d : Device) (chip : UInt8) (addr : Option (Nat → UInt8)) (addrLen : UInt8)
    (data : Option (Nat → UInt8)) (dataLen : UInt16) : Prop :=
  ∀ bytes, data = some bytes → dataLen ≠ 0 → d.busy = false →
    match address addr addrLen with
    | some _ =>
      Each Cycle.done d [] (writeEvents chip addr addrLen bytes dataLen) →
        Each Cycle.ack d [] (writeEvents chip addr addrLen bytes dataLen)
    | none => (d.cycle [.start .transmit chip]).done = false

/-- A read without an address, or in which the first chip address is not acknowledged, or the whole
of the address is, or some byte times out behind what was sent of the address. -/
def ReadFailuresShow (d : Device) (chip : UInt8) (addr : Option (Nat → UInt8)) (addrLen : UInt8)
    (data : Option (Nat → UInt8)) (dataLen : UInt16) : Prop :=
  ∀ bytes, data = some bytes → dataLen ≠ 0 → d.busy = false →
    ∀ sent, address addr addrLen = some sent →
      (d.cycle [.start .transmit chip]).ack →
      Each Cycle.done d (reachedAddress d chip sent addrLen)
        (.start .receive chip :: recvs dataLen.toNat 0 dataLen.toNat) →
      Each Cycle.acked d [] (readStart chip addr addrLen)

lemma each_append (p : Cycle → Bool) (d : Device) (log first rest : List Event) :
    Each p d log (first ++ rest) ↔ Each p d log first ∧ Each p d (log ++ first) rest := by
  induction first generalizing log with
  | nil => simp only [List.nil_append, List.append_nil, Each, true_and]
  | cons e first ih =>
    simp only [List.cons_append, Each, ih, and_assoc, List.append_assoc, List.nil_append]

lemma each_acked (d : Device) (log events : List Event) :
    Each Cycle.acked d log events ↔ Each Cycle.done d log events ∧ Each Cycle.ack d log events := by
  induction events generalizing log with
  | nil => exact (and_self_iff).symm
  | cons e events ih =>
    simp only [Each, ih, Cycle.acked, Bool.and_eq_true]
    exact and_and_and_comm

lemma sends_succ (bytes : Nat → UInt8) (i left : Nat) :
    sends bytes i (left + 1) = .send (bytes i) :: sends bytes (i + 1) left := by
  rw [sends, List.range'_succ, List.map_cons, sends]

lemma recvs_succ (dataLen i left : Nat) :
    recvs dataLen i (left + 1) = .recv (i != dataLen - 1) :: recvs dataLen (i + 1) left := by
  rw [recvs, List.range'_succ, List.map_cons, recvs]

lemma waitForXfer_ok (d : Device) (log : List Event) :
    waitForXfer d log = .ok ↔ (d.cycle log).done := by
  unfold waitForXfer
  split
  case isTrue done => exact iff_of_true rfl done
  case isFalse late => exact iff_of_false (by decide) late

lemma writeLoop_log (d : Device) (bytes : Nat → UInt8) (i left : Nat) (bus : Status × List Event)
    (ok : (writeLoop d bytes i left bus).1 = .ok) :
    bus.1 = .ok ∧ (writeLoop d bytes i left bus).2 = bus.2 ++ sends bytes i left := by
  induction left generalizing i bus with
  | zero => exact ⟨ok, (List.append_nil _).symm⟩
  | succ left ih =>
    rw [writeLoop] at ok ⊢
    split at ok
    case isTrue started =>
      obtain ⟨-, rest⟩ := ih _ _ ok
      refine ⟨started, ?_⟩
      rw [if_pos started, rest, sends_succ, List.append_assoc, List.singleton_append]
    case isFalse stopped => exact absurd ok stopped

lemma writeLoop_done (d : Device) (bytes : Nat → UInt8) (i left : Nat)
    (bus : Status × List Event) :
    (writeLoop d bytes i left bus).1 = .ok ∧ (d.cycle (writeLoop d bytes i left bus).2).done ↔
      bus.1 = .ok ∧ (d.cycle bus.2).done ∧ Each Cycle.done d bus.2 (sends bytes i left) := by
  induction left generalizing i bus with
  | zero => exact and_congr_right fun _ => (and_iff_left trivial).symm
  | succ left ih =>
    rw [writeLoop]
    split
    case isTrue started =>
      rw [ih, sends_succ, Each, waitForXfer_ok, eq_true started, true_and]
    case isFalse stopped =>
      exact iff_of_false (fun ok => stopped ok.1) (fun ok => stopped ok.1)

variable (d : Device) (chip : UInt8) {addr : Option (Nat → UInt8)} {addrLen : UInt8}

variable {sent : Nat → UInt8} {dataLen : UInt16}

lemma transferWrite_ok (given : address addr addrLen = some sent) (data : Nat → UInt8)
    (dataLen : UInt16) :
    (transferWrite d chip addr addrLen data dataLen).1 = .ok ↔
      Each Cycle.done d [] (writeEvents chip addr addrLen data dataLen) := by
  have loops := writeLoop_done d data 0 dataLen.toNat
    (writeLoop d sent 0 addrLen.toNat (.ok, [.start .transmit chip]))
  have addresses := writeLoop_done d sent 0 addrLen.toNat (.ok, [.start .transmit chip])
  rw [transferWrite, given, writeEvents, addressSends, given, Each, each_append]
  dsimp only
  generalize bus_eq : writeLoop d sent 0 addrLen.toNat _ = bus at loops addresses ⊢
  have ended : bus.1 = .ok → bus.2 = [.start .transmit chip] ++ sends sent 0 addrLen.toNat := by
    intro ok
    rw [← bus_eq] at ok ⊢
    exact (writeLoop_log d sent 0 addrLen.toNat _ ok).2
  generalize writeLoop d data 0 dataLen.toNat bus = final at loops ⊢
  have last : (if final.1 = .ok then waitForXfer d final.2 else final.1) = .ok ↔
      final.1 = .ok ∧ (d.cycle final.2).done := by
    split
    case isTrue ok => rw [waitForXfer_ok, eq_true ok, true_and]
    case isFalse stopped => exact iff_of_false stopped fun ok => stopped ok.1
  rw [last, loops, ← and_assoc, addresses]
  constructor
  · rintro ⟨⟨-, first, address⟩, rest⟩
    have ok := (addresses.mpr ⟨rfl, first, address⟩).1
    rw [ended ok] at rest
    exact ⟨first, address, rest⟩
  · rintro ⟨first, address, rest⟩
    have ok := (addresses.mpr ⟨rfl, first, address⟩).1
    rw [ended ok]
    exact ⟨⟨rfl, first, address⟩, rest⟩

lemma transferWrite_log (given : address addr addrLen = some sent) (data : Nat → UInt8)
    (dataLen : UInt16) (ok : (transferWrite d chip addr addrLen data dataLen).1 = .ok) :
    (transferWrite d chip addr addrLen data dataLen).2 =
      writeEvents chip addr addrLen data dataLen ++ [.stop] := by
  rw [transferWrite, given] at ok ⊢
  dsimp only at ok ⊢
  have looped : (writeLoop d data 0 dataLen.toNat
      (writeLoop d sent 0 addrLen.toNat (.ok, [.start .transmit chip]))).1 = .ok := by
    split at ok
    case isTrue looped => exact looped
    case isFalse => exact ok
  obtain ⟨first, rest⟩ := writeLoop_log d data 0 dataLen.toNat _ looped
  obtain ⟨-, address⟩ := writeLoop_log d sent 0 addrLen.toNat _ first
  rw [rest, address, writeEvents, addressSends, given, List.append_assoc [Event.start _ _]]
  rfl

lemma transferWrite_bare (none_given : address addr addrLen = none) (data : Nat → UInt8)
    (dataLen : UInt16) : transferWrite d chip addr addrLen data dataLen =
      (waitForXfer d [.start .transmit chip], [.start .transmit chip, .stop]) := by
  rw [transferWrite, none_given]
  rfl

lemma i2cTransfer_write (addr : Option (Nat → UInt8)) (addrLen : UInt8) (bytes : Nat → UInt8)
    (some_data : dataLen ≠ 0) (idle : d.busy = false) :
    i2cTransfer d cmdWrite chip addr addrLen (some bytes) dataLen =
      ⟨(transferWrite d chip addr addrLen bytes dataLen).1,
        (transferWrite d chip addr addrLen bytes dataLen).2, some bytes⟩ := by
  rw [i2cTransfer]
  rw [if_neg some_data, if_neg (Bool.eq_false_iff.mp idle), if_pos rfl]

lemma i2cTransfer_refused (cmdType : UInt8) (addr : Option (Nat → UInt8)) (addrLen : UInt8)
    {data : Option (Nat → UInt8)}
    (ok : (i2cTransfer d cmdType chip addr addrLen data dataLen).result = .ok) :
    dataLen ≠ 0 ∧ d.busy = false ∧ ∃ bytes, data = some bytes := by
  cases data with
  | none => cases ok
  | some bytes =>
    rw [i2cTransfer] at ok
    split at ok
    case isTrue => cases ok
    case isFalse some_data =>
      refine ⟨some_data, ?_, bytes, rfl⟩
      split at ok
      case isTrue => cases ok
      case isFalse idle => exact Bool.eq_false_iff.mpr idle

lemma writeSound_iff (addr : Option (Nat → UInt8)) (addrLen : UInt8)
    (data : Option (Nat → UInt8)) (dataLen : UInt16) :
    WriteSound d chip addr addrLen data dataLen ↔
      WriteFailuresShow d chip addr addrLen data dataLen := by
  constructor
  · intro sound bytes data_eq some_data idle
    subst data_eq
    rw [WriteSound, i2cTransfer_write d chip addr addrLen bytes some_data idle] at sound
    cases given : address addr addrLen with
    | some sent =>
      intro done
      obtain ⟨_, same, -, acked⟩ := sound ((transferWrite_ok d chip given bytes dataLen).mpr done)
      cases same
      exact ((each_acked d _ _).mp acked).2
    | none =>
      rw [transferWrite_bare d chip given] at sound
      apply Bool.eq_false_iff.mpr
      intro done
      obtain ⟨_, -, log, -⟩ := sound ((waitForXfer_ok d _).mpr done)
      have lengths := congrArg List.length log
      have positive : dataLen.toNat ≠ 0 := fun zero => some_data (UInt16.toNat_inj.mp zero)
      rw [List.length_append, writeEvents, addressSends, given, List.nil_append, sends] at lengths
      simp only [List.length_cons, List.length_map, List.length_range', List.length_nil] at lengths
      omega
  · intro shows ok
    obtain ⟨some_data, idle, bytes, rfl⟩ := i2cTransfer_refused d chip cmdWrite addr addrLen ok
    have shown := shows bytes rfl some_data idle
    rw [i2cTransfer_write d chip addr addrLen bytes some_data idle] at ok ⊢
    refine ⟨bytes, rfl, ?_⟩
    cases given : address addr addrLen with
    | some sent =>
      rw [given] at shown
      have done := (transferWrite_ok d chip given bytes dataLen).mp ok
      exact ⟨transferWrite_log d chip given bytes dataLen ok,
        (each_acked d _ _).mpr ⟨done, shown done⟩⟩
    | none =>
      rw [given] at shown
      rw [transferWrite_bare d chip given] at ok
      exact absurd ((waitForXfer_ok d _).mp ok) (Bool.eq_false_iff.mp shown)

variable {bytes : Nat → UInt8}

lemma addressLoop_log (bytes : Nat → UInt8) (i left : Nat) (log : List Event) :
    (addressLoop d bytes i left (.ok, log)).2 = reached d log (sends bytes i left) := by
  induction left generalizing i log with
  | zero => rfl
  | succ left ih =>
    rw [addressLoop, if_pos rfl, sends_succ, reached]
    dsimp only
    split
    case isTrue done => rw [(waitForXfer_ok d _).mpr done, ih]
    case isFalse late =>
      have stopped : waitForXfer d (log ++ [.send (bytes i)]) ≠ .ok :=
        fun ok => late ((waitForXfer_ok d _).mp ok)
      cases left with
      | zero => rfl
      | succ left => rw [addressLoop, if_neg stopped]

lemma addressLoop_reached (bytes : Nat → UInt8) (addrLen : UInt8) :
    (addressLoop d bytes 0 addrLen.toNat
      (waitForXfer d [.start .transmit chip], [.start .transmit chip])).2 =
      reachedAddress d chip bytes addrLen := by
  rw [reachedAddress]
  split
  case isTrue done => rw [(waitForXfer_ok d _).mpr done, addressLoop_log]
  case isFalse late =>
    have stopped : waitForXfer d [.start .transmit chip] ≠ .ok :=
      fun ok => late ((waitForXfer_ok d _).mp ok)
    cases addrLen.toNat with
    | zero => rfl
    | succ left => rw [addressLoop, if_neg stopped]

lemma reached_done (log events : List Event) (done : Each Cycle.done d log events) :
    reached d log events = log ++ events := by
  induction events generalizing log with
  | nil => exact (List.append_nil _).symm
  | cons e events ih =>
    rw [reached, if_pos done.1, ih _ done.2, List.append_assoc, List.singleton_append]

lemma reachedAddress_whole {addrLen : UInt8}
    (done : Each Cycle.done d [] ([.start .transmit chip] ++ sends bytes 0 addrLen.toNat)) :
    reachedAddress d chip bytes addrLen =
      [.start .transmit chip] ++ sends bytes 0 addrLen.toNat := by
  obtain ⟨first, rest⟩ := (each_append _ d _ _ _).mp done
  have started : (d.cycle [.start .transmit chip]).done := first.1
  rw [reachedAddress, if_pos started]
  exact reached_done d _ _ rest

lemma readLoop_ok (dataLen i left : Nat) (bus : Status × List Event × (Nat → UInt8)) :
    (readLoop d dataLen i left bus).1 = .ok ↔
      bus.1 = .ok ∧ Each Cycle.done d bus.2.1 (recvs dataLen i left) := by
  induction left generalizing i bus with
  | zero => exact (and_iff_left trivial).symm
  | succ left ih =>
    rw [readLoop]
    split
    case isTrue started =>
      rw [ih, recvs_succ, Each, waitForXfer_ok, eq_true started, true_and]
    case isFalse stopped => exact iff_of_false stopped fun ok => stopped ok.1

lemma readLoop_data (dataLen i left : Nat) (bus : Status × List Event × (Nat → UInt8))
    (ok : (readLoop d dataLen i left bus).1 = .ok) :
    (readLoop d dataLen i left bus).2.1 = bus.2.1 ++ recvs dataLen i left ∧
      (∀ j < left, (readLoop d dataLen i left bus).2.2 (i + j) =
        (d.cycle (bus.2.1 ++ (recvs dataLen i left).take (j + 1))).data) ∧
      ∀ j < i, (readLoop d dataLen i left bus).2.2 j = bus.2.2 j := by
  induction left generalizing i bus with
  | zero => exact ⟨(List.append_nil _).symm, fun j none => absurd none j.not_lt_zero,
      fun j _ => rfl⟩
  | succ left ih =>
    rw [readLoop] at ok ⊢
    split at ok
    case isFalse stopped => exact absurd ok stopped
    case isTrue started =>
      rw [if_pos started, recvs_succ]
      obtain ⟨log_eq, read, kept⟩ := ih _ _ ok
      dsimp only at log_eq read kept ⊢
      refine ⟨?_, ?_, ?_⟩
      · rw [log_eq, List.append_assoc, List.singleton_append]
      · intro j inside
        cases j with
        | zero =>
          have byte := kept i (Nat.lt_succ_self i)
          rw [Function.update_self] at byte
          exact byte
        | succ j =>
          have next := read j (Nat.lt_of_succ_lt_succ inside)
          rw [Nat.add_right_comm, List.append_assoc, List.singleton_append] at next
          rw [List.take_succ_cons, ← next, ← Nat.add_assoc]
      · intro j before
        rw [kept j (Nat.lt_succ_of_lt before), Function.update_of_ne (Nat.ne_of_lt before)]

lemma i2cTransfer_read (addr : Option (Nat → UInt8)) (addrLen : UInt8) (bytes : Nat → UInt8)
    (some_data : dataLen ≠ 0) (idle : d.busy = false) :
    i2cTransfer d cmdRead chip addr addrLen (some bytes) dataLen =
      ⟨(transferRead d chip addr addrLen bytes dataLen).1,
        (transferRead d chip addr addrLen bytes dataLen).2.1,
        some (transferRead d chip addr addrLen bytes dataLen).2.2⟩ := by
  rw [i2cTransfer]
  rw [if_neg some_data, if_neg (Bool.eq_false_iff.mp idle), if_neg (by decide), if_pos rfl]

def readBehind (log : List Event) (bytes : Nat → UInt8) (dataLen : UInt16) :
    Status × List Event × (Nat → UInt8) :=
  let (result, log, data) := readLoop d dataLen.toNat 0 dataLen.toNat
    (waitForXfer d (log ++ [.start .receive chip]), log ++ [.start .receive chip], bytes)
  (result, log ++ [.stop], data)

lemma transferRead_address (given : address addr addrLen = some sent)
    (acked : (d.cycle [.start .transmit chip]).ack) (bytes : Nat → UInt8) (dataLen : UInt16) :
    transferRead d chip addr addrLen bytes dataLen =
      readBehind d chip (reachedAddress d chip sent addrLen) bytes dataLen := by
  rw [transferRead, given]
  dsimp only
  rw [isACK, if_pos acked, addressLoop_reached]
  rfl

lemma transferRead_bare (none_given : address addr addrLen = none)
    (acked : (d.cycle [.start .receive chip]).ack) (bytes : Nat → UInt8) (dataLen : UInt16) :
    transferRead d chip addr addrLen bytes dataLen = readBehind d chip [] bytes dataLen := by
  rw [transferRead, none_given]
  dsimp only
  rw [isACK, if_pos acked]
  rfl

lemma transferRead_acked (ok : (transferRead d chip addr addrLen bytes dataLen).1 = .ok) :
    (d.cycle
      [.start (if (address addr addrLen).isSome then .transmit else .receive) chip]).ack := by
  rw [transferRead] at ok
  cases given : address addr addrLen with
  | some sent =>
    rw [given] at ok
    dsimp only at ok
    split at ok
    case isTrue acked => exact acked
    case isFalse => cases ok
  | none =>
    rw [given] at ok
    dsimp only at ok
    split at ok
    case isTrue acked => exact acked
    case isFalse => cases ok

lemma readBehind_ok (log : List Event) (bytes : Nat → UInt8) (dataLen : UInt16) :
    (readBehind d chip log bytes dataLen).1 = .ok ↔ Each Cycle.done d log
      (.start .receive chip :: recvs dataLen.toNat 0 dataLen.toNat) := by
  rw [readBehind]
  rw [readLoop_ok, waitForXfer_ok, Each]

lemma readBehind_read {log : List Event} (ok : (readBehind d chip log bytes dataLen).1 = .ok) :
    let head := log ++ [.start .receive chip]
    let tail := recvs dataLen.toNat 0 dataLen.toNat
    (readBehind d chip log bytes dataLen).2.1 = head ++ tail ++ [.stop] ∧
      ∀ i < dataLen.toNat, (readBehind d chip log bytes dataLen).2.2 i =
        (d.cycle (head ++ tail.take (i + 1))).data := by
  obtain ⟨log_eq, read, -⟩ := readLoop_data d dataLen.toNat 0 dataLen.toNat _ ok
  refine ⟨congrArg (· ++ [Event.stop]) log_eq, ?_⟩
  intro i inside
  have byte := read i inside
  rw [Nat.zero_add] at byte
  exact byte

lemma readStart_append (given : address addr addrLen = some sent) :
    readStart chip addr addrLen =
      [.start .transmit chip] ++ sends sent 0 addrLen.toNat ++ [.start .receive chip] := by
  rw [readStart, given]
  rfl

lemma readSound_iff (addr : Option (Nat → UInt8)) (addrLen : UInt8)
    (data : Option (Nat → UInt8)) (dataLen : UInt16) :
    ReadSound d chip addr addrLen data dataLen ↔
      ReadFailuresShow d chip addr addrLen data dataLen := by
  constructor
  · intro sound bytes data_eq some_data idle sent given acked done
    subst data_eq
    rw [ReadSound, i2cTransfer_read d chip addr addrLen bytes some_data idle,
      transferRead_address d chip given acked] at sound
    obtain ⟨_, -, -, heard, -⟩ := sound ((readBehind_ok d chip _ bytes dataLen).mpr done)
    exact heard
  · intro shows ok
    obtain ⟨some_data, idle, bytes, rfl⟩ := i2cTransfer_refused d chip cmdRead addr addrLen ok
    have shown := shows bytes rfl some_data idle
    rw [i2cTransfer_read d chip addr addrLen bytes some_data idle] at ok ⊢
    refine ⟨_, rfl, ?_⟩
    have acked := transferRead_acked d chip ok
    cases given : address addr addrLen with
    | some sent =>
      rw [given] at acked
      rw [transferRead_address d chip given acked] at ok ⊢
      have done := (readBehind_ok d chip _ bytes dataLen).mp ok
      have heard := shown sent given acked done
      obtain ⟨log, read⟩ := readBehind_read d chip ok
      rw [readStart_append chip given] at heard ⊢
      have heard_done := ((each_acked d _ _).mp heard).1
      rw [reachedAddress_whole d chip ((each_append _ d _ _ _).mp heard_done).1] at log read done ⊢
      exact ⟨log, heard, done.2, read⟩
    | none =>
      rw [given] at acked
      rw [transferRead_bare d chip given acked] at ok ⊢
      have done := (readBehind_ok d chip _ bytes dataLen).mp ok
      obtain ⟨log, read⟩ := readBehind_read d chip ok
      rw [readStart, given]
      refine ⟨log, ⟨?_, trivial⟩, done.2, read⟩
      exact (Bool.and_eq_true _ _).mpr ⟨done.1, acked⟩

/-- A transfer that returns `I2C_OK` is what it says if and only if what goes wrong shows in a
timeout. -/
theorem i2cTransfer_sound_iff (d : Device) (chip : UInt8) (addr : Option (Nat → UInt8))
    (addrLen : UInt8) (data : Option (Nat → UInt8)) (dataLen : UInt16) :
    (WriteSound d chip addr addrLen data dataLen ↔
      WriteFailuresShow d chip addr addrLen data dataLen) ∧
    (ReadSound d chip addr addrLen data dataLen ↔
      ReadFailuresShow d chip addr addrLen data dataLen) :=
  ⟨writeSound_iff d chip addr addrLen data dataLen, readSound_iff d chip addr addrLen data dataLen⟩

def noChip : Device := ⟨false, fun _ => ⟨true, false, 0xFF⟩⟩

/-- A byte written to no chip. -/
theorem write_to_no_chip : ¬ WriteSound noChip 0xA0 (some fun _ => 0) 1 (some fun _ => 0) 1 := by
  intro sound
  obtain ⟨_, -, -, acked⟩ := sound rfl
  exact Bool.false_ne_true acked.1

end I2c
