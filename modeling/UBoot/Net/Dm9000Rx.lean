import Mathlib.Algebra.Group.Nat.Defs
import Mathlib.Data.List.Basic

/-!
# Receiving with the DM9000 (drivers/net/dm9000x.c)

`dm9000_rx` copies frame after frame from the chip to the receive buffer. What the chip presents is
any sequence of values, which are read one after the other in the width of the bus.
-/

namespace Dm9000

inductive Width where
  | bits8
  | bits16
  | bits32
  deriving DecidableEq

def Width.bytes : Width → Nat
  | .bits8 => 1
  | .bits16 => 2
  | .bits32 => 4

def pktMax : UInt16 := 1536

def pktsizeAlign : Nat := 1536

/-- A call of `NetReceive`, with the packet, and when the first of its data was read. -/
structure Received where
  len : UInt16
  packet : Nat → UInt8
  first : Nat

/-- How often `DM9000_DATA` has been read, the memory from `NetRxPackets[0]` on, and what has been
stored in it and passed on. -/
structure State where
  reads : Nat
  mem : Nat → UInt8
  stores : List Nat
  received : List Received

def busByte (value : UInt32) (i : Nat) : UInt8 := UInt8.ofNat (value.toNat / 256 ^ i)

/-- `((u8 *) data_ptr)[i] = DM9000_inb(DM9000_DATA)`, and the like for words. -/
def store (w : Width) (port : Nat → UInt32) (i : Nat) (s : State) : State :=
  { s with
    reads := s.reads + 1
    mem := fun a => if a / w.bytes = i then busByte (port s.reads) (a % w.bytes) else s.mem a
    stores := s.stores ++ List.range' (i * w.bytes) w.bytes }

/-- The loop of `dm9000_inblk_8bit` and the others. -/
def inblkLoop (w : Width) (port : Nat → UInt32) : (i left : Nat) → State → State
  | _, 0, s => s
  | i, left + 1, s => inblkLoop w port (i + 1) left (store w port i s)

def tmplen (w : Width) (count : Nat) : Nat := (count + (w.bytes - 1)) / w.bytes

def inblk (w : Width) (port : Nat → UInt32) (count : Nat) (s : State) : State :=
  inblkLoop w port 0 (tmplen w count) s

/-- `dm9000_rx_status_8bit` and the others: `RxStatus`, `RxLen` and the reads so far. -/
def rxStatus (w : Width) (port : Nat → UInt32) (reads : Nat) : UInt16 × UInt16 × Nat :=
  match w with
  | .bits8 =>
    let inb (k : Nat) : UInt16 := (port (reads + k)).toUInt8.toUInt16
    (inb 0 + (inb 1 <<< 8), inb 2 + (inb 3 <<< 8), reads + 4)
  | .bits16 => ((port reads).toUInt16, (port (reads + 1)).toUInt16, reads + 2)
  | .bits32 => ((port reads).toUInt16, (port reads >>> 16).toUInt16, reads + 1)

def rxFrame (w : Width) (port : Nat → UInt32) (s : State) : State :=
  let (status, len, reads) := rxStatus w port s.reads
  let s := inblk w port len.toNat { s with reads := reads }
  -- the length is looked at when the data have been moved
  if status &&& 0xbf00 ≠ 0 ∨ len < 0x40 ∨ len > pktMax then s
  else { s with received := s.received ++ [⟨len, s.mem, reads⟩] }

def rxbyte (port : Nat → UInt32) (reads : Nat) : UInt8 := (port (reads + 1)).toUInt8 &&& 0x03

/-- The loop of `dm9000_rx`, up to `n` packets. -/
def rxLoop (w : Width) (port : Nat → UInt32) : (n : Nat) → State → State
  | 0, s => s
  | n + 1, s =>
    if rxbyte port s.reads = 1 then
      rxLoop w port n (rxFrame w port { s with reads := s.reads + 2 })
    else { s with reads := s.reads + 2 }

def dm9000Rx (w : Width) (isr : UInt8) (port : Nat → UInt32) (n : Nat) (mem : Nat → UInt8) :
    State :=
  if isr &&& 0x01 = 0 then ⟨0, mem, [], []⟩ else rxLoop w port n ⟨0, mem, [], []⟩

def lengths (w : Width) (port : Nat → UInt32) : (n reads : Nat) → List UInt16
  | 0, _ => []
  | n + 1, reads =>
    if rxbyte port reads = 1 then
      let (_, len, reads) := rxStatus w port (reads + 2)
      len :: lengths w port n (reads + tmplen w len.toNat)
    else []

/-- A packet has a length that is allowed and the bytes that were read for it. -/
structure Received.Sound (w : Width) (port : Nat → UInt32) (r : Received) : Prop where
  least : 64 ≤ r.len.toNat
  most : r.len.toNat ≤ 1536
  bytes : ∀ i < r.len.toNat, r.packet i = busByte (port (r.first + i / w.bytes)) (i % w.bytes)

lemma bytes_pos (w : Width) : 0 < w.bytes := by
  cases w <;> decide

lemma mem_unit (w : Width) (i a : Nat) :
    a ∈ List.range' (i * w.bytes) w.bytes ↔ a / w.bytes = i := by
  have positive := bytes_pos w
  rw [List.mem_range'_1, Nat.div_eq_iff positive]
  omega

lemma inblkLoop_spec (w : Width) (port : Nat → UInt32) (i left : Nat) (s : State) :
    (inblkLoop w port i left s).reads = s.reads + left ∧
    (inblkLoop w port i left s).received = s.received ∧
    (∀ a, a ∈ (inblkLoop w port i left s).stores ↔
      a ∈ s.stores ∨ i ≤ a / w.bytes ∧ a / w.bytes < i + left) ∧
    ∀ a, (inblkLoop w port i left s).mem a =
      if i ≤ a / w.bytes ∧ a / w.bytes < i + left then
        busByte (port (s.reads + (a / w.bytes - i))) (a % w.bytes)
      else s.mem a := by
  induction left generalizing i s with
  | zero =>
    refine ⟨rfl, rfl, fun a => ?_, fun a => ?_⟩
    · exact (or_iff_left (by omega)).symm
    · rw [if_neg (by omega)]
      rfl
  | succ left ih =>
    obtain ⟨reads, received, stores, mem⟩ := ih (i + 1) (store w port i s)
    rw [inblkLoop]
    refine ⟨?_, received, fun a => ?_, fun a => ?_⟩
    · rw [reads, store, add_assoc, add_comm 1]
    · rw [stores, store, List.mem_append, mem_unit, or_assoc]
      exact or_congr_right (by omega)
    · rw [mem, store]
      dsimp only
      by_cases here : a / w.bytes = i
      · rw [if_neg (by omega), if_pos here, if_pos (by omega), here, Nat.sub_self, add_zero]
      rw [if_neg here]
      by_cases inside : i + 1 ≤ a / w.bytes ∧ a / w.bytes < i + 1 + left
      · rw [if_pos inside, if_pos (by omega)]
        congr 2
        omega
      · rw [if_neg inside, if_neg (by omega)]

lemma inblk_spec (w : Width) (port : Nat → UInt32) (count : Nat) (s : State) :
    (inblk w port count s).reads = s.reads + tmplen w count ∧
    (inblk w port count s).received = s.received ∧
    (∀ a, a ∈ (inblk w port count s).stores ↔ a ∈ s.stores ∨ a / w.bytes < tmplen w count) ∧
    ∀ a, (inblk w port count s).mem a =
      if a / w.bytes < tmplen w count then
        busByte (port (s.reads + a / w.bytes)) (a % w.bytes)
      else s.mem a := by
  have spec := inblkLoop_spec w port 0 (tmplen w count) s
  simp only [Nat.zero_le, true_and, zero_add, Nat.sub_zero] at spec
  exact spec

lemma block_inside_iff (w : Width) (len : Nat) :
    (∀ a, a / w.bytes < tmplen w len → a < pktsizeAlign) ↔ len ≤ 1536 := by
  have rounds : tmplen w len * w.bytes < len + w.bytes ∧ len ≤ tmplen w len * w.bytes := by
    unfold tmplen
    cases w <;> simp only [Width.bytes] <;> omega
  have whole : ∃ units, 1536 = units * w.bytes := by
    cases w
    · exact ⟨1536, rfl⟩
    · exact ⟨768, rfl⟩
    · exact ⟨384, rfl⟩
  obtain ⟨units, whole⟩ := whole
  have positive := bytes_pos w
  constructor
  · intro inside
    by_contra longer
    have beyond : 1536 / w.bytes < tmplen w len :=
      (Nat.div_lt_iff_lt_mul positive).mpr (by omega)
    exact absurd (inside 1536 beyond) (by decide)
  · intro fits a unit
    have less := (Nat.div_lt_iff_lt_mul positive).mp unit
    have most : tmplen w len ≤ units := by
      have : tmplen w len * w.bytes < (units + 1) * w.bytes := by
        rw [Nat.add_mul, ← whole]
        omega
      exact Nat.lt_succ_iff.mp (Nat.lt_of_mul_lt_mul_right this)
    have := Nat.mul_le_mul_right w.bytes most
    change a < 1536
    omega

lemma unit_lt (w : Width) {i len : Nat} (inside : i < len) : i / w.bytes < tmplen w len := by
  unfold tmplen
  cases w <;> simp only [Width.bytes] <;> omega

lemma rxFrame_spec (w : Width) (port : Nat → UInt32) (s : State) :
    let (_, len, reads) := rxStatus w port s.reads
    (rxFrame w port s).reads = reads + tmplen w len.toNat ∧
    (∀ a, a ∈ (rxFrame w port s).stores ↔ a ∈ s.stores ∨ a / w.bytes < tmplen w len.toNat) ∧
    ∀ r ∈ (rxFrame w port s).received, r ∈ s.received ∨ r.Sound w port := by
  cases header : rxStatus w port s.reads with
  | mk status rest =>
    obtain ⟨len, reads⟩ := rest
    obtain ⟨moved, received, stores, mem⟩ :=
      inblk_spec w port len.toNat { s with reads := reads }
    rw [rxFrame, header]
    dsimp only
    split
    case isTrue =>
      exact ⟨moved, stores, fun r member => .inl (received ▸ member)⟩
    case isFalse good =>
      refine ⟨moved, stores, fun r member => ?_⟩
      rcases List.mem_append.mp member with old | new
      · exact .inl (received ▸ old)
      obtain rfl := List.mem_singleton.mp new
      simp only [not_or, UInt16.not_lt, gt_iff_lt, UInt16.le_iff_toNat_le] at good
      obtain ⟨-, least, most⟩ := good
      refine .inr ⟨least, most, fun i inside => ?_⟩
      dsimp only
      rw [mem, if_pos (unit_lt w inside)]

lemma rxLoop_inside_iff (w : Width) (port : Nat → UInt32) (n : Nat) (s : State) :
    (∀ a ∈ (rxLoop w port n s).stores, a < pktsizeAlign) ↔
      (∀ a ∈ s.stores, a < pktsizeAlign) ∧ ∀ len ∈ lengths w port n s.reads, len.toNat ≤ 1536 := by
  induction n generalizing s with
  | zero => exact (and_iff_left fun _ none => absurd none List.not_mem_nil).symm
  | succ n ih =>
    rw [rxLoop, lengths]
    split
    case isFalse => exact (and_iff_left fun _ none => absurd none List.not_mem_nil).symm
    case isTrue =>
      have spec := rxFrame_spec w port { s with reads := s.reads + 2 }
      rw [ih]
      cases header : rxStatus w port (s.reads + 2) with
      | mk status rest =>
        obtain ⟨len, reads⟩ := rest
        rw [header] at spec
        obtain ⟨moved, stores, -⟩ := spec
        rw [moved, List.forall_mem_cons, ← block_inside_iff w len.toNat, ← and_assoc]
        apply and_congr_left'
        constructor
        · intro inside
          exact ⟨fun a old => inside a ((stores a).mpr (.inl old)),
            fun a unit => inside a ((stores a).mpr (.inr unit))⟩
        · rintro ⟨old, block⟩ a member
          exact ((stores a).mp member).elim (old a) (block a)

lemma rxLoop_received (w : Width) (port : Nat → UInt32) (n : Nat) {s : State}
    (sound : ∀ r ∈ s.received, r.Sound w port) :
    ∀ r ∈ (rxLoop w port n s).received, r.Sound w port := by
  induction n generalizing s with
  | zero => exact sound
  | succ n ih =>
    rw [rxLoop]
    split
    case isFalse => exact sound
    case isTrue =>
      have spec := rxFrame_spec w port { s with reads := s.reads + 2 }
      exact ih fun r member => (spec.2.2 r member).elim (sound r) id

/-- Stores stay in the buffer if and only if no length that the chip presents is larger, and what
is passed on has been read. -/
theorem dm9000Rx_iff (w : Width) (isr : UInt8) (port : Nat → UInt32) (n : Nat)
    (mem : Nat → UInt8) :
    ((∀ a ∈ (dm9000Rx w isr port n mem).stores, a < pktsizeAlign) ↔
      (isr &&& 0x01 ≠ 0 → ∀ len ∈ lengths w port n 0, len.toNat ≤ 1536)) ∧
    ∀ r ∈ (dm9000Rx w isr port n mem).received, r.Sound w port := by
  have none (a : Nat) (member : a ∈ ([] : List Nat)) : a < pktsizeAlign :=
    absurd member List.not_mem_nil
  rw [dm9000Rx]
  split
  case isTrue zero =>
    exact ⟨iff_of_true none fun one => absurd zero one,
      fun r member => absurd member List.not_mem_nil⟩
  case isFalse one =>
    refine ⟨?_, rxLoop_received w port n fun r member => absurd member List.not_mem_nil⟩
    rw [rxLoop_inside_iff]
    exact ⟨fun all _ => all.2, fun all => ⟨none, all one⟩⟩

def longFrame (k : Nat) : UInt32 := if k = 1 then 1 else if k = 2 then 0x06040001 else 0

/-- 1540 bytes are stored. -/
theorem longFrame_outside :
    ¬ ∀ a ∈ (dm9000Rx .bits32 1 longFrame 1 fun _ => 0).stores, a < pktsizeAlign := by
  have header : lengths .bits32 longFrame 1 0 = [1540] := by decide
  rw [dm9000Rx, if_neg (by decide), rxLoop_inside_iff, header]
  rintro ⟨-, fits⟩
  exact absurd (fits 1540 (List.mem_singleton_self _)) (by decide)

end Dm9000
