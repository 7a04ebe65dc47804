import UBoot.Usb.MassStorage
import Mathlib.Data.Fin.Tuple.Basic

/-!
# What `usb_stor_read` returns

Success of READ(10) is decided by the status wrapper alone. Here: exactly which devices make the
count it returns right, and leave asynchronous transfers enabled.
-/

namespace MassStorage

open Memory32 BigEndian

variable {dev : Device} {desc : Desc}

/-! ## The conversation with a device -/

structure Csw.Good (csw : Csw) (tag : UInt32) : Prop where
  signature : csw.dCSWSignature = CSWSIGNATURE
  tag : csw.dCSWTag = tag
  status : csw.bCSWStatus = 0

instance (csw : Csw) (tag : UInt32) : Decidable (csw.Good tag) :=
  decidable_of_iff (csw.dCSWSignature = CSWSIGNATURE ∧ csw.dCSWTag = tag ∧ csw.bCSWStatus = 0)
    ⟨fun h => ⟨h.1, h.2.1, h.2.2⟩, fun h => ⟨h.1, h.2, h.3⟩⟩

/-- The device takes the CBW, and its data phase, if there is one, ends well or in a stall that
can be cleared. -/
def Conduct.GoesOn (c : Conduct) (len : UInt32) : Prop :=
  c.cbw = 0 ∧ (len = 0 ∨ (len.toNat < 2147483648 ∧
    (c.data = 0 ∨ (stalled c.data = true ∧ c.clearData = 0))))

instance (c : Conduct) (len : UInt32) : Decidable (c.GoesOn len) := by
  unfold Conduct.GoesOn
  infer_instance

def Conduct.Passes (c : Conduct) (len tag : UInt32) : Prop :=
  c.GoesOn len ∧ ∃ csw ∈ statusPhase c, csw.Good tag

instance (c : Conduct) (len tag : UInt32) : Decidable (c.Passes len tag) := by
  unfold Conduct.Passes
  infer_instance

def Conduct.delivered (c : Conduct) (len : UInt32) : Nat :=
  if c.cbw = 0 ∧ len.toNat < 2147483648 then min c.count len.toNat else 0

lemma delivered_le (c : Conduct) (len : UInt32) : c.delivered len ≤ len.toNat := by
  unfold Conduct.delivered
  split
  · exact min_le_right _ _
  · exact Nat.zero_le _

/-- The number of the CBW behind the first TEST UNIT READY that passes. Behind each other one
there is a REQUEST SENSE. -/
def readyAt (conduct : Nat → Conduct) : (retries i : Nat) → Option Nat
  | retries, i =>
    if (conduct i).Passes 0 (UInt32.ofNat i) then some (i + 1)
    else match retries with
      | 0 => none
      | retries + 1 => readyAt conduct retries (i + 2)

/-- The number of the CBW behind the first READ(10) that passes, and the most bytes that the
attempts have moved. -/
def readAt (conduct : Nat → Conduct) (len : UInt32) : (retry i got : Nat) → Option (Nat × Nat)
  | retry, i, got =>
    let got := max got ((conduct i).delivered len)
    if (conduct i).Passes len (UInt32.ofNat i) then some (i + 1, got)
    else match retry with
      | 0 => none
      | retry + 1 => readAt conduct len retry (i + 2) got

/-! ## The transport -/

lemma receive_zero (s : State) (byte : Nat → UInt8) : s.receive 0 byte = s := by
  unfold State.receive
  split
  · rfl
  · rfl

lemma cswResult_eq_zero {csw : Csw} {tag : UInt32} {data_actlen datalen : Nat}
    (short : data_actlen ≤ datalen) :
    cswResult csw tag data_actlen datalen = 0 ↔ csw.Good tag := by
  unfold cswResult
  split
  · rename_i other
    exact iff_of_false (by decide) (fun good => other good.signature)
  split
  · rename_i other
    exact iff_of_false (by decide) (fun good => other good.tag)
  split
  · rename_i high
    refine iff_of_false (by decide) (fun good => ?_)
    rw [good.status] at high
    exact absurd high (by decide)
  split
  · rename_i phase
    refine iff_of_false (by decide) (fun good => ?_)
    rw [good.status] at phase
    exact absurd phase (by decide)
  split
  · omega
  split
  · rename_i failed
    refine iff_of_false (by decide) (fun good => ?_)
    rw [good.status] at failed
    exact absurd failed (by decide)
  rename_i signature tag_eq low not_phase _ not_failed
  refine iff_of_true rfl ⟨not_not.mp signature, not_not.mp tag_eq, ?_⟩
  apply UInt8.toNat_inj.mp
  have low' : csw.bCSWStatus.toNat ≤ 2 := not_lt.mp low
  have not_two : csw.bCSWStatus.toNat ≠ 2 := fun h => not_phase (UInt8.toNat_inj.mp h)
  have not_one : csw.bCSWStatus.toNat ≠ 1 := fun h => not_failed (UInt8.toNat_inj.mp h)
  show csw.bCSWStatus.toNat = 0
  omega

def State.after (s : State) (dev : Device) (desc : Desc) : State :=
  { s with cbws := s.cbws + 1 }.receive
    (if usDirection (s.cmd.getD 0 0) then (dev.conduct s.cbws).delivered s.datalen else 0)
    (answer dev desc (dev.conduct s.cbws) s.cmd)

lemma dataPhase_spec (dev : Device) (desc : Desc) {c : Conduct} (s : State) (taken : c.cbw = 0) :
    (dataPhase dev desc c s).2 = s.receive
        (if usDirection (s.cmd.getD 0 0) then c.delivered s.datalen else 0)
        (answer dev desc c s.cmd) ∧
      (c.GoesOn s.datalen → ∃ n ≤ s.datalen.toNat, (dataPhase dev desc c s).1 = some n) ∧
      (¬c.GoesOn s.datalen → (dataPhase dev desc c s).1 = none) := by
  unfold dataPhase
  by_cases empty : s.datalen = 0
  · have nothing : c.delivered s.datalen = 0 := by
      have := delivered_le c s.datalen
      rw [empty] at this ⊢
      exact Nat.le_zero.mp this
    rw [if_pos empty, nothing, ite_self, receive_zero]
    exact ⟨rfl, fun _ => ⟨0, Nat.zero_le _, rfl⟩, fun stops => absurd ⟨taken, .inl empty⟩ stops⟩
  rw [if_neg empty]
  by_cases long : 2147483648 ≤ s.datalen.toNat
  · have nothing : c.delivered s.datalen = 0 := if_neg (fun h => not_lt.mpr long h.2)
    rw [if_pos long, nothing, ite_self, receive_zero]
    refine ⟨rfl, fun goes => ?_, fun _ => rfl⟩
    exact absurd goes.2 (not_or.mpr ⟨empty, fun h => not_lt.mpr long h.1⟩)
  rw [if_neg long]
  have moved : c.delivered s.datalen = min c.count s.datalen.toNat :=
    if_pos ⟨taken, not_le.mp long⟩
  have stored : (if usDirection (s.cmd.getD 0 0) then
        s.receive (min c.count s.datalen.toNat) (answer dev desc c s.cmd) else s) =
      s.receive (if usDirection (s.cmd.getD 0 0) then c.delivered s.datalen else 0)
        (answer dev desc c s.cmd) := by
    rw [moved]
    split
    · rfl
    · exact (receive_zero s _).symm
  dsimp only
  rw [stored]
  have here : min c.count s.datalen.toNat ≤ s.datalen.toNat := min_le_right _ _
  split
  · rename_i ok
    refine ⟨rfl, fun _ => ⟨_, here, rfl⟩, fun stops => ?_⟩
    exact absurd ⟨taken, .inr ⟨not_le.mp long, .inl ok⟩⟩ stops
  split
  · rename_i _ cleared
    refine ⟨rfl, fun _ => ⟨_, here, rfl⟩, fun stops => ?_⟩
    exact absurd ⟨taken, .inr ⟨not_le.mp long, .inr cleared⟩⟩ stops
  rename_i bad not_cleared
  refine ⟨rfl, fun goes => ?_, fun _ => rfl⟩
  rcases goes.2 with zero | ⟨-, ok | cleared⟩
  · exact absurd zero empty
  · exact absurd ok bad
  · exact absurd cleared not_cleared

lemma bbbTransport_spec (dev : Device) (desc : Desc) (s : State) :
    (bbbTransport dev desc s).2 = s.after dev desc ∧ ((bbbTransport dev desc s).1 = 0 ↔
      (dev.conduct s.cbws).Passes s.datalen (UInt32.ofNat s.cbws)) := by
  have failed : (-1 : Int) ≠ 0 := by decide
  unfold bbbTransport
  dsimp only
  split
  · rename_i refused
    have nothing : (dev.conduct s.cbws).delivered s.datalen = 0 := if_neg (fun h => refused h.1)
    refine ⟨?_, iff_of_false failed (fun passes => refused passes.1.1)⟩
    rw [State.after, nothing, ite_self, receive_zero]
  rename_i taken
  obtain ⟨state, goes, stops⟩ :=
    dataPhase_spec dev desc { s with cbws := s.cbws + 1 } (not_not.mp taken)
  have length : ((dataPhase dev desc (dev.conduct s.cbws)
      { s with cbws := s.cbws + 1 }).2).datalen = s.datalen := by
    rw [state]
    unfold State.receive
    split <;> rfl
  by_cases on : (dev.conduct s.cbws).GoesOn s.datalen
  · obtain ⟨n, short, actlen⟩ := goes on
    rw [actlen]
    rcases status : statusPhase (dev.conduct s.cbws) with _ | csw
    · refine ⟨state, iff_of_false failed ?_⟩
      rintro ⟨-, csw, there, -⟩
      rw [status] at there
      cases there
    · refine ⟨state, ?_⟩
      rw [cswResult_eq_zero (by rw [length]; exact short)]
      constructor
      · exact fun good => ⟨on, csw, status, good⟩
      · rintro ⟨-, csw', there, good⟩
        obtain rfl := Option.some.inj (status.symm.trans there)
        exact good
  · rw [stops on]
    exact ⟨state, iff_of_false failed (fun passes => on passes.1)⟩

/-! ## Commands -/

variable {n k : Nat} {s : State}

lemma receive_fields (s : State) (count : Nat) (byte : Nat → UInt8) :
    (s.receive count byte).cbws = s.cbws ∧ (s.receive count byte).datalen = s.datalen ∧
      (s.receive count byte).pdata = s.pdata ∧
      (s.receive count byte).asynch_allowed = s.asynch_allowed := by
  unfold State.receive
  split <;> exact ⟨rfl, rfl, rfl, rfl⟩

structure Passed (n : Nat) (s s' : State) : Prop where
  cbws : s'.cbws = s.cbws + n
  mem : s'.mem = s.mem
  asynch_allowed : s'.asynch_allowed = s.asynch_allowed

lemma Passed.trans {s' s'' : State} (first : Passed n s s') (second : Passed k s' s'') :
    Passed (n + k) s s'' :=
  ⟨by rw [second.cbws, first.cbws, add_assoc], second.mem.trans first.mem,
    second.asynch_allowed.trans first.asynch_allowed⟩

lemma requestSense_passed (dev : Device) (desc : Desc) (s : State) :
    Passed 1 s (usbRequestSense dev desc s) := by
  unfold usbRequestSense
  dsimp only
  rw [(bbbTransport_spec dev desc _).1]
  exact ⟨rfl, rfl, rfl⟩

lemma after_empty (dev : Device) (desc : Desc) (empty : s.datalen = 0) :
    s.after dev desc = { s with cbws := s.cbws + 1 } := by
  have nothing : (dev.conduct s.cbws).delivered s.datalen = 0 := by
    rw [empty]
    exact Nat.le_zero.mp (delivered_le _ 0)
  rw [State.after, nothing, ite_self, receive_zero]

lemma testUnit_attempt (dev : Device) (desc : Desc) (s : State) (cdb : List UInt8) :
    Passed 1 s (bbbTransport dev desc { s.setCmd cdb with datalen := 0 }).2 ∧
      ((bbbTransport dev desc { s.setCmd cdb with datalen := 0 }).1 = 0 ↔
        (dev.conduct s.cbws).Passes 0 (UInt32.ofNat s.cbws)) := by
  obtain ⟨state, passes⟩ := bbbTransport_spec dev desc { s.setCmd cdb with datalen := 0 }
  refine ⟨?_, passes⟩
  rw [state, after_empty dev desc rfl]
  exact ⟨rfl, rfl, rfl⟩

lemma testUnitReady_spec (dev : Device) (desc : Desc) (retries : Nat) (s : State) :
    (usbTestUnitReady dev desc retries s).2.mem = s.mem ∧
    (usbTestUnitReady dev desc retries s).2.asynch_allowed = s.asynch_allowed ∧
    ((usbTestUnitReady dev desc retries s).1 = 0 →
      readyAt dev.conduct retries s.cbws = some (usbTestUnitReady dev desc retries s).2.cbws) ∧
    ((usbTestUnitReady dev desc retries s).1 ≠ 0 →
      readyAt dev.conduct retries s.cbws = none) := by
  have failed : (-1 : Int) ≠ 0 := by decide
  induction retries generalizing s with
  | zero =>
    obtain ⟨state, passes⟩ := testUnit_attempt dev desc s
      [SCSI_TST_U_RDY, 0, 0, 0, 0, 0, 0, 0, 0, 0, 0, 0]
    rw [usbTestUnitReady, readyAt]
    dsimp only
    split
    · rename_i ok
      rw [if_pos (passes.mp ok)]
      exact ⟨state.mem, state.asynch_allowed, fun _ => congrArg some state.cbws.symm,
        fun h => absurd rfl h⟩
    · rename_i bad
      rw [if_neg (mt passes.mpr bad)]
      have done := state.trans (requestSense_passed dev desc _)
      exact ⟨done.mem, done.asynch_allowed, fun h => absurd h failed, fun _ => rfl⟩
  | succ retries ih =>
    obtain ⟨state, passes⟩ := testUnit_attempt dev desc s
      [SCSI_TST_U_RDY, 0, 0, 0, 0, 0, 0, 0, 0, 0, 0, 0]
    rw [usbTestUnitReady, readyAt]
    dsimp only
    split
    · rename_i ok
      rw [if_pos (passes.mp ok)]
      exact ⟨state.mem, state.asynch_allowed, fun _ => congrArg some state.cbws.symm,
        fun h => absurd rfl h⟩
    · rename_i bad
      rw [if_neg (mt passes.mpr bad)]
      have done := state.trans (requestSense_passed dev desc _)
      have rest := ih (usbRequestSense dev desc (bbbTransport dev desc
        { s.setCmd [SCSI_TST_U_RDY, 0, 0, 0, 0, 0, 0, 0, 0, 0, 0, 0] with datalen := 0 }).2)
      rw [done.mem, done.asynch_allowed, done.cbws] at rest
      exact rest

/-! ## Chunks -/

variable {start buf : UInt32} {old mem : Mem} {got : Nat}

/-- The first bytes of a memory at `buf` are those of the blocks from `start` on, the others are
as they were. -/
def Filled (dev : Device) (desc : Desc) (start buf : UInt32) (old : Mem) (got : Nat) (mem : Mem) :
    Prop :=
  ∀ a, mem a = if (a - buf).toNat < got then dev.byteFrom desc start (a - buf).toNat else old a

lemma Filled.copy {byte : Nat → UInt8} (filled : Filled dev desc start buf old got mem)
    (short : n < 4294967296) (bytes : ∀ k, byte k = dev.byteFrom desc start k) :
    Filled dev desc start buf old (max got n) (copyBytes byte n 0 buf mem) := by
  intro a
  rw [copyBytes_eq byte n 0 buf mem short a, filled a, zero_add, bytes]
  by_cases new : (a - buf).toNat < n
  · rw [if_pos new, if_pos (lt_of_lt_of_le new (Nat.le_max_right _ _))]
  rw [if_neg new]
  by_cases before : (a - buf).toNat < got
  · rw [if_pos before, if_pos (lt_of_lt_of_le before (Nat.le_max_left _ _))]
  · rw [if_neg before, if_neg (by omega)]

lemma read10_code (start : UInt32) (blocks : UInt16) (rest : List UInt8) :
    (read10 start blocks ++ rest).getD 0 0 = SCSI_READ10 := rfl

lemma read10_block (start : UInt32) (blocks : UInt16) (rest : List UInt8) :
    wordAt (read10 start blocks ++ rest) 2 = start := wordAt_bytes start

lemma after_read (dev : Device) (desc : Desc) (code : s.cmd.getD 0 0 = SCSI_READ10)
    (block : wordAt s.cmd 2 = start) (into : s.pdata = .buffer buf) :
    (s.after dev desc).mem = copyBytes (dev.byteFrom desc start)
      ((dev.conduct s.cbws).delivered s.datalen) 0 buf s.mem := by
  have dir_in : usDirection (s.cmd.getD 0 0) = true := by
    rw [code]
    decide
  have bytes : answer dev desc (dev.conduct s.cbws) s.cmd = dev.byteFrom desc start := by
    funext k
    rw [answer, if_pos code, block]
  rw [State.after, if_pos dir_in, bytes]
  simp only [State.receive, into]

def State.reading (s : State) (desc : Desc) (start buf : UInt32) (n : Nat) : State :=
  { s with datalen := desc.len n, pdata := .buffer buf }.setCmd (read10 start (UInt16.ofNat n))

lemma reading_eq (dev : Device) (desc : Desc) (s : State) (start buf : UInt32) (n : Nat) :
    usbRead10 dev desc { s with datalen := desc.len n, pdata := .buffer buf } start
      (UInt16.ofNat n) = bbbTransport dev desc (s.reading desc start buf n) := rfl

lemma read_attempt (dev : Device) (desc : Desc) (s : State) (start buf : UInt32) (n : Nat)
    (filled : Filled dev desc start buf old got s.mem) :
    let r := bbbTransport dev desc (s.reading desc start buf n)
    r.2.cbws = s.cbws + 1 ∧ r.2.datalen = desc.len n ∧ r.2.asynch_allowed = s.asynch_allowed ∧
      Filled dev desc start buf old (max got ((dev.conduct s.cbws).delivered (desc.len n)))
        r.2.mem ∧
      (r.1 = 0 ↔ (dev.conduct s.cbws).Passes (desc.len n) (UInt32.ofNat s.cbws)) := by
  intro r
  obtain ⟨state, passes⟩ := bbbTransport_spec dev desc (s.reading desc start buf n)
  have after : r.2 = (s.reading desc start buf n).after dev desc := state
  obtain ⟨cbws, datalen, -, asynch⟩ := receive_fields
    { s.reading desc start buf n with cbws := s.cbws + 1 }
    (if usDirection ((s.reading desc start buf n).cmd.getD 0 0) then
      (dev.conduct s.cbws).delivered (desc.len n) else 0)
    (answer dev desc (dev.conduct s.cbws) (s.reading desc start buf n).cmd)
  rw [after]
  refine ⟨cbws, datalen, asynch, ?_, passes⟩
  have cmd : (s.reading desc start buf n).cmd =
      read10 start (UInt16.ofNat n) ++ s.cmd.drop 12 := rfl
  have code : (s.reading desc start buf n).cmd.getD 0 0 = SCSI_READ10 := by
    rw [cmd, read10_code]
  have block : wordAt (s.reading desc start buf n).cmd 2 = start := by
    rw [cmd, read10_block]
  have into : (s.reading desc start buf n).pdata = .buffer buf := rfl
  rw [after_read dev desc code block into]
  exact filled.copy ((delivered_le _ _).trans_lt (UInt32.toNat_lt _)) (fun _ => rfl)

/-- What the attempts for a chunk come to: some bytes of the blocks are stored, and where one of
the attempts passes it is known how many. -/
structure ChunkRead (dev : Device) (desc : Desc) (start buf : UInt32) (n : Nat) (old : Mem)
    (s : State) (next : Option (Nat × Nat)) (r : Bool × State) : Prop where
  asynch_allowed : r.2.asynch_allowed = s.asynch_allowed
  stored : ∃ got ≤ (desc.len n).toNat, Filled dev desc start buf old got r.2.mem
  passed : r.1 = true → ∃ got ≤ (desc.len n).toNat, next = some (r.2.cbws, got) ∧
    r.2.datalen = desc.len n ∧ Filled dev desc start buf old got r.2.mem
  failed : r.1 = false → next = none

lemma chunkRead_passed {dev : Device} {desc : Desc} {r : State}
    (asynch : r.asynch_allowed = s.asynch_allowed) (most : got ≤ (desc.len n).toNat)
    (datalen : r.datalen = desc.len n) (stored : Filled dev desc start buf old got r.mem) :
    ChunkRead dev desc start buf n old s (some (r.cbws, got)) (true, r) where
  asynch_allowed := asynch
  stored := ⟨got, most, stored⟩
  passed _ := ⟨got, most, rfl, datalen, stored⟩
  failed other := absurd other Bool.true_eq_false.mp

lemma readChunk_spec (dev : Device) (desc : Desc) (start buf : UInt32) (n retry : Nat) (s : State)
    (short : got ≤ (desc.len n).toNat) (filled : Filled dev desc start buf old got s.mem) :
    ChunkRead dev desc start buf n old s (readAt dev.conduct (desc.len n) retry s.cbws got)
      (readChunk dev desc start n buf retry s) := by
  induction retry generalizing s got with
  | zero =>
    obtain ⟨cbws, datalen, asynch, stored, passes⟩ := read_attempt dev desc s start buf n filled
    have more := Nat.max_le.mpr ⟨short, delivered_le (dev.conduct s.cbws) (desc.len n)⟩
    rw [readChunk, reading_eq, readAt]
    dsimp only
    by_cases ok : (bbbTransport dev desc (s.reading desc start buf n)).1 = 0
    · rw [if_pos ok, if_pos (passes.mp ok), ← cbws]
      exact chunkRead_passed asynch more datalen stored
    rw [if_neg ok, if_neg (mt passes.mpr ok)]
    have sensed := requestSense_passed dev desc (bbbTransport dev desc
      (s.reading desc start buf n)).2
    refine ⟨sensed.asynch_allowed.trans asynch, ⟨_, more, ?_⟩, nofun, fun _ => rfl⟩
    rw [sensed.mem]
    exact stored
  | succ retry ih =>
    obtain ⟨cbws, datalen, asynch, stored, passes⟩ := read_attempt dev desc s start buf n filled
    have more := Nat.max_le.mpr ⟨short, delivered_le (dev.conduct s.cbws) (desc.len n)⟩
    rw [readChunk, reading_eq, readAt]
    dsimp only
    by_cases ok : (bbbTransport dev desc (s.reading desc start buf n)).1 = 0
    · rw [if_pos ok, if_pos (passes.mp ok), ← cbws]
      exact chunkRead_passed asynch more datalen stored
    rw [if_neg ok, if_neg (mt passes.mpr ok)]
    have sensed := requestSense_passed dev desc (bbbTransport dev desc
      (s.reading desc start buf n)).2
    have still : Filled dev desc start buf old _ _ := sensed.mem ▸ stored
    have rest := ih _ more still
    rw [sensed.cbws, cbws] at rest
    exact ⟨rest.asynch_allowed.trans (sensed.asynch_allowed.trans asynch), rest.stored,
      rest.passed, rest.failed⟩

/-! ## Blocks in memory -/

/-- The buffer holds `n` blocks from `start` on. -/
def HoldsBlocks (dev : Device) (desc : Desc) (mem : Mem) (start : UInt32) (n : Nat)
    (buf : UInt32) : Prop :=
  ∀ k < n * desc.blksz.toNat, mem (buf + UInt32.ofNat k) = dev.byteFrom desc start k

lemma len_eq (desc : Desc) (n : Nat) : desc.len n = UInt32.ofNat (n * desc.blksz.toNat) := by
  rw [Desc.len, UInt32.ofNat_mul, UInt32.ofNat_toNat, UInt32.mul_comm]

lemma len_toNat {desc : Desc} (room : n * desc.blksz.toNat < 4294967296) :
    (desc.len n).toNat = n * desc.blksz.toNat := by
  rw [len_eq, UInt32.toNat_ofNat']
  exact Nat.mod_eq_of_lt room

lemma offset_toNat (buf : UInt32) (room : k < 4294967296) :
    (buf + UInt32.ofNat k - buf).toNat = k := by
  rw [UInt32.add_comm, UInt32.add_sub_cancel, UInt32.toNat_ofNat']
  exact Nat.mod_eq_of_lt room

lemma add_offset (buf : UInt32) (n k : Nat) :
    buf + UInt32.ofNat n + UInt32.ofNat k = buf + UInt32.ofNat (n + k) := by
  rw [UInt32.ofNat_add, UInt32.add_assoc]

lemma byteFrom_add (dev : Device) {desc : Desc} (start : UInt32) (n k : Nat)
    (some_bytes : 0 < desc.blksz.toNat) : dev.byteFrom desc (start + UInt32.ofNat n) k =
      dev.byteFrom desc start (n * desc.blksz.toNat + k) := by
  rw [Device.byteFrom, Device.byteFrom, add_offset, mul_comm, Nat.mul_add_div some_bytes,
    Nat.mul_add_mod]

lemma holdsBlocks_add :
    HoldsBlocks dev desc mem start (n + k) buf ↔ HoldsBlocks dev desc mem start n buf ∧
      HoldsBlocks dev desc mem (start + UInt32.ofNat n) k
        (buf + UInt32.ofNat (n * desc.blksz.toNat)) := by
  constructor
  · intro holds
    constructor
    · intro i low
      exact holds i (by rw [add_mul]; omega)
    · intro i low
      have some_bytes : 0 < desc.blksz.toNat := Nat.pos_of_lt_mul_left low
      rw [add_offset, byteFrom_add dev start n i some_bytes]
      exact holds _ (by rw [add_mul]; omega)
  · rintro ⟨first, second⟩ i low
    rw [add_mul] at low
    by_cases here : i < n * desc.blksz.toNat
    · exact first i here
    obtain ⟨j, rfl⟩ := Nat.exists_eq_add_of_le (not_lt.mp here)
    have inside : j < k * desc.blksz.toNat := by omega
    have some_bytes : 0 < desc.blksz.toNat := Nat.pos_of_lt_mul_left inside
    rw [← add_offset, ← byteFrom_add dev start n j some_bytes]
    exact second j inside

lemma Filled.holdsBlocks (filled : Filled dev desc start buf old got mem)
    (room : n * desc.blksz.toNat < 4294967296) :
    HoldsBlocks dev desc mem start n buf ↔ ∀ k, got ≤ k → k < n * desc.blksz.toNat →
      old (buf + UInt32.ofNat k) = dev.byteFrom desc start k := by
  have at_k (k : Nat) (low : k < n * desc.blksz.toNat) : mem (buf + UInt32.ofNat k) =
      if k < got then dev.byteFrom desc start k else old (buf + UInt32.ofNat k) := by
    rw [filled, offset_toNat buf (low.trans room)]
  constructor
  · intro holds k behind low
    have here := holds k low
    rw [at_k k low, if_neg (not_lt.mpr behind)] at here
    exact here
  · intro there k low
    rw [at_k k low]
    by_cases stored : k < got
    · exact if_pos stored
    · rw [if_neg stored]
      exact there k (not_lt.mp stored) low

/-- From the CBW `i` on: what the device has not moved of a chunk whose READ(10) passes was in the
buffer before. -/
inductive Complete (dev : Device) (desc : Desc) (mem : Mem) :
    (start buf : UInt32) → (i blks : Nat) → Prop
  | none_left (start buf : UInt32) (i : Nat) : Complete dev desc mem start buf i 0
  | failed {start buf : UInt32} {i blks : Nat}
      (never : readAt dev.conduct (desc.len (min 20 blks)) 2 i 0 = none) :
      Complete dev desc mem start buf i blks
  | read {start buf : UInt32} {i blks j got : Nat}
      (passed : readAt dev.conduct (desc.len (min 20 blks)) 2 i 0 = some (j, got))
      (there : ∀ k, got ≤ k → k < min 20 blks * desc.blksz.toNat →
        mem (buf + UInt32.ofNat k) = dev.byteFrom desc start k)
      (rest : Complete dev desc mem (start + UInt32.ofNat (min 20 blks))
        (buf + desc.len (min 20 blks)) j (blks - min 20 blks)) :
      Complete dev desc mem start buf i blks

lemma chunk_add (desc : Desc) (blks : Nat) : min 20 blks * desc.blksz.toNat +
    (blks - min 20 blks) * desc.blksz.toNat = blks * desc.blksz.toNat := by
  rw [← add_mul, Nat.add_sub_cancel' (min_le_right 20 blks)]

lemma Complete.congr {mem' : Mem} {i blks : Nat} (complete : Complete dev desc mem start buf i blks)
    (same : ∀ k < blks * desc.blksz.toNat,
      mem' (buf + UInt32.ofNat k) = mem (buf + UInt32.ofNat k)) :
    Complete dev desc mem' start buf i blks := by
  induction complete with
  | none_left start buf i => exact .none_left start buf i
  | failed never => exact .failed never
  | @read start buf i blks j got passed there _ ih =>
    have parts := chunk_add desc blks
    refine .read passed ?_ (ih ?_)
    · intro k behind low
      rw [same k (by omega)]
      exact there k behind low
    · intro k low
      rw [len_eq, add_offset]
      exact same _ (by omega)

/-! ## The loop -/

structure LoopRead (dev : Device) (desc : Desc) (start buf : UInt32) (blks : Nat) (s : State)
    (r : Nat × State) : Prop where
  asynch_allowed : r.2.asynch_allowed = s.asynch_allowed
  left : r.1 ≤ blks
  inside : ∀ a, blks * desc.blksz.toNat ≤ (a - buf).toNat → r.2.mem a = s.mem a
  right : HoldsBlocks dev desc r.2.mem start (blks - r.1) buf ↔
    Complete dev desc s.mem start buf s.cbws blks

lemma Filled.none (dev : Device) (desc : Desc) (start buf : UInt32) (mem : Mem) :
    Filled dev desc start buf mem 0 mem := fun _ => (if_neg (Nat.not_lt_zero _)).symm

lemma Filled.outside (filled : Filled dev desc start buf old got mem) {a : UInt32}
    (behind : got ≤ (a - buf).toNat) :
    mem a = old a := by
  rw [filled, if_neg (not_lt.mpr behind)]

lemma complete_read_iff {i blks j : Nat} (some_blks : blks ≠ 0)
    (passed : readAt dev.conduct (desc.len (min 20 blks)) 2 i 0 = some (j, got)) :
    Complete dev desc mem start buf i blks ↔
      (∀ k, got ≤ k → k < min 20 blks * desc.blksz.toNat →
        mem (buf + UInt32.ofNat k) = dev.byteFrom desc start k) ∧
      Complete dev desc mem (start + UInt32.ofNat (min 20 blks)) (buf + desc.len (min 20 blks)) j
        (blks - min 20 blks) := by
  constructor
  · intro complete
    cases complete with
    | none_left => exact absurd rfl some_blks
    | failed never =>
      rw [passed] at never
      cases never
    | read passed' there rest =>
      rw [passed] at passed'
      cases passed'
      exact ⟨there, rest⟩
  · rintro ⟨there, rest⟩
    exact .read passed there rest

lemma behind_chunk {a : UInt32} (room : n + k < 4294967296) (behind : n + k ≤ (a - buf).toNat) :
    k ≤ (a - (buf + UInt32.ofNat n)).toNat := by
  have n_eq : (UInt32.ofNat n).toNat = n := by
    rw [UInt32.toNat_ofNat']
    exact Nat.mod_eq_of_lt (by omega)
  rw [toNat_sub_add, n_eq, if_pos (by omega)]
  omega

lemma before_chunk (buf : UInt32) {i : Nat} (room : n + k < 4294967296) (low : i < n) :
    k ≤ (buf + UInt32.ofNat i - (buf + UInt32.ofNat n)).toNat := by
  have n_eq : (UInt32.ofNat n).toNat = n := by
    rw [UInt32.toNat_ofNat']
    exact Nat.mod_eq_of_lt (by omega)
  have i_eq : (buf + UInt32.ofNat i - buf).toNat = i := offset_toNat buf (by omega)
  rw [toNat_sub_add, n_eq, i_eq, if_neg (by omega)]
  omega

lemma readLoop_spec (dev : Device) (desc : Desc) (start buf : UInt32) {blks : Nat} (s : State)
    (some_blks : blks ≠ 0) (room : blks * desc.blksz.toNat < 4294967296) :
    LoopRead dev desc start buf blks s (readLoop dev desc start blks buf s) := by
  induction blks using Nat.strongRecOn generalizing start buf s with
  | ind blks ih =>
    have parts := chunk_add desc blks
    have chunk_room : min 20 blks * desc.blksz.toNat < 4294967296 := by omega
    have length := len_toNat chunk_room
    have chunk := readChunk_spec dev desc start buf (min 20 blks) 2 s (Nat.zero_le _)
      (Filled.none dev desc start buf s.mem)
    rw [readLoop]
    dsimp only
    set r := readChunk dev desc start (min 20 blks) buf 2 s
    cases read : r.1 with
    | false =>
      obtain ⟨got, short, filled⟩ := chunk.stored
      rw [length] at short
      rw [if_pos (Bool.not_false)]
      refine ⟨chunk.asynch_allowed, le_rfl, fun a behind => filled.outside (by omega), ?_⟩
      refine iff_of_true ?_ (.failed (chunk.failed read))
      intro k low
      rw [Nat.sub_self, zero_mul] at low
      exact absurd low (Nat.not_lt_zero k)
    | true =>
      obtain ⟨got, short, passed, datalen, filled⟩ := chunk.passed read
      rw [length] at short
      rw [if_neg (by decide)]
      by_cases last : blks - min 20 blks = 0
      · rw [if_pos last]
        have whole : min 20 blks = blks := by omega
        refine ⟨chunk.asynch_allowed, Nat.zero_le _, fun a behind => filled.outside (by omega), ?_⟩
        rw [complete_read_iff some_blks passed, ← filled.holdsBlocks chunk_room, last, whole]
        exact (and_iff_left (.none_left _ _ _)).symm
      rw [if_neg last, datalen, len_eq]
      have rest := ih (blks - min 20 blks) (by omega) (start + UInt32.ofNat (min 20 blks))
        (buf + UInt32.ofNat (min 20 blks * desc.blksz.toNat)) r.2 last (by omega)
      set r' := readLoop dev desc (start + UInt32.ofNat (min 20 blks)) (blks - min 20 blks)
        (buf + UInt32.ofNat (min 20 blks * desc.blksz.toNat)) r.2
      have left := rest.left
      refine ⟨rest.asynch_allowed.trans chunk.asynch_allowed, by omega, ?_, ?_⟩
      · intro a behind
        rw [rest.inside a (behind_chunk (by omega) (by omega))]
        exact filled.outside (by omega)
      · have counted : blks - r'.1 = min 20 blks + (blks - min 20 blks - r'.1) := by omega
        rw [counted, holdsBlocks_add, rest.right, complete_read_iff some_blks passed, len_eq,
          ← filled.holdsBlocks chunk_room]
        refine and_congr ?_ ?_
        · refine forall₂_congr fun k low => ?_
          rw [rest.inside _ (before_chunk buf (by omega) low)]
        · have same (k : Nat) (low : k < (blks - min 20 blks) * desc.blksz.toNat) :
              r.2.mem (buf + UInt32.ofNat (min 20 blks * desc.blksz.toNat) + UInt32.ofNat k) =
                s.mem (buf + UInt32.ofNat (min 20 blks * desc.blksz.toNat) + UInt32.ofNat k) := by
            rw [add_offset]
            apply filled.outside
            rw [offset_toNat buf (by omega)]
            omega
          exact ⟨fun complete => complete.congr fun k low => (same k low).symm,
            fun complete => complete.congr same⟩

/-! ## The call -/

def Bus.IsDev (bus : Bus) (target : Int) (d : Fin 32) : Prop :=
  bus.devnum d = target ∧ ∀ e < d, bus.devnum e ≠ target

lemma isDev_unique {bus : Bus} {target : Int} {d e : Fin 32} (first : bus.IsDev target d)
    (second : bus.IsDev target e) : d = e := by
  rcases lt_trichotomy d e with before | same | behind
  · exact absurd first.1 (second.2 d before)
  · exact same
  · exact absurd second.1 (first.2 e behind)

lemma find_isDev {bus : Bus} {target : Int} {d : Fin 32}
    (listed : ∃ i, bus.devnum i = -1 ∨ bus.devnum i = target)
    (found : bus.find target = some d) : bus.IsDev target d := by
  unfold Bus.find at found
  split at found
  · rename_i nowhere
    obtain ⟨i, there⟩ := listed
    have := Fin.find?_eq_none_iff.mp nowhere i
    exact absurd there (of_decide_eq_false this)
  rename_i i stop
  obtain ⟨here, before⟩ := Fin.find?_eq_some_iff.mp stop
  by_cases unused : bus.devnum i = -1
  · rw [if_pos unused] at found
    cases found
  rw [if_neg unused] at found
  cases found
  refine ⟨(of_decide_eq_true here).resolve_left unused, fun e low => ?_⟩
  exact (not_or.mp (of_decide_eq_false (before e low))).2

/-- What callers see to: asynchronous transfers are enabled, the buffer is in memory as a whole,
and the table of devices has the device or is not full. -/
structure Called (bus : Bus) (desc : Desc) (s : State) (blkcnt : UInt32) : Prop where
  enabled : s.asynch_allowed = true
  room : blkcnt.toNat * desc.blksz.toNat < 4294967296
  listed : ∃ i, bus.devnum i = -1 ∨ bus.devnum i = desc.target

/-- The buffer holds the blocks that are counted, nothing is written outside of it, and
asynchronous transfers are enabled. -/
structure ReadOk (bus : Bus) (desc : Desc) (s : State) (blknr blkcnt buffer : UInt32)
    (r : UInt32 × State) : Prop where
  right : ∀ d, bus.IsDev desc.target d →
    HoldsBlocks (bus.device d) desc r.2.mem blknr r.1.toNat buffer
  inside : ∀ a, blkcnt.toNat * desc.blksz.toNat ≤ (a - buffer).toNat → r.2.mem a = s.mem a
  enabled : r.2.asynch_allowed = true

/-- The device becomes ready, and moves the blocks whose READ(10) it lets pass. -/
def WellBehaved (bus : Bus) (desc : Desc) (s : State) (blknr blkcnt buffer : UInt32) : Prop :=
  ∀ d, blkcnt ≠ 0 → bus.find desc.target = some d →
    ∃ i, readyAt (bus.device d).conduct 10 s.cbws = some i ∧
      Complete (bus.device d) desc s.mem blknr buffer i blkcnt.toNat

lemma holdsBlocks_zero (dev : Device) (desc : Desc) (mem : Mem) (start buf : UInt32) :
    HoldsBlocks dev desc mem start 0 buf := by
  intro k low
  rw [zero_mul] at low
  exact absurd low (Nat.not_lt_zero k)

/-- Whatever the device does: what `usb_stor_read` counts is right, and asynchronous transfers are
enabled behind it, if and only if the device becomes ready and moves what it lets pass. -/
theorem read_ok_iff {bus : Bus} {desc : Desc} {s : State} {blknr blkcnt buffer : UInt32}
    (called : Called bus desc s blkcnt) :
    ReadOk bus desc s blknr blkcnt buffer (usbStorRead bus desc s blknr blkcnt buffer) ↔
      WellBehaved bus desc s blknr blkcnt buffer := by
  unfold usbStorRead
  by_cases empty : blkcnt = 0
  · rw [if_pos empty]
    refine iff_of_true ⟨?_, fun _ _ => rfl, called.enabled⟩ (fun _ h => absurd empty h)
    exact fun d _ => holdsBlocks_zero _ _ _ _ _
  rw [if_neg empty]
  rcases found : bus.find desc.target with _ | d
  · refine iff_of_true ⟨?_, fun _ _ => rfl, called.enabled⟩ (fun d _ there => ?_)
    · exact fun d _ => holdsBlocks_zero _ _ _ _ _
    · rw [found] at there
      cases there
  have is_dev := find_isDev called.listed found
  obtain ⟨mem, asynch, passed, failed⟩ :=
    testUnitReady_spec (bus.device d) desc 10 { s with asynch_allowed := false }
  dsimp only
  set ready := usbTestUnitReady (bus.device d) desc 10 { s with asynch_allowed := false }
  by_cases ok : ready.1 = 0
  · rw [if_neg (not_not.mpr ok)]
    have some_blks : blkcnt.toNat ≠ 0 := fun zero => empty (UInt32.toNat_inj.mp zero)
    have loop := readLoop_spec (bus.device d) desc blknr buffer ready.2 some_blks called.room
    set r := readLoop (bus.device d) desc blknr blkcnt.toNat buffer ready.2
    have count : (blkcnt - UInt32.ofNat r.1).toNat = blkcnt.toNat - r.1 := by
      have := loop.left
      have := blkcnt.toNat_lt
      rw [UInt32.toNat_sub, UInt32.toNat_ofNat']
      omega
    have right := loop.right
    rw [mem] at right
    have well : WellBehaved bus desc s blknr blkcnt buffer ↔
        Complete (bus.device d) desc s.mem blknr buffer ready.2.cbws blkcnt.toNat := by
      constructor
      · intro well
        obtain ⟨i, there, complete⟩ := well d empty found
        obtain rfl := Option.some.inj (there.symm.trans (passed ok))
        exact complete
      · intro complete e _ there
        obtain rfl := Option.some.inj (found.symm.trans there)
        exact ⟨_, passed ok, complete⟩
    rw [well, ← right, ← count]
    constructor
    · exact fun read_ok => read_ok.right d is_dev
    · intro holds
      refine ⟨fun e is_dev' => ?_, fun a behind => (loop.inside a behind).trans (congrFun mem a), rfl⟩
      obtain rfl := isDev_unique is_dev is_dev'
      exact holds
  · rw [if_pos ok]
    refine iff_of_false (fun read_ok => ?_) (fun well => ?_)
    · have disabled := asynch.symm.trans read_ok.enabled
      cases disabled
    · obtain ⟨i, there, -⟩ := well d empty found
      rw [failed ok] at there
      cases there

def passing (count : Nat) : Bus where
  devnum i := if i.val = 0 then 1 else -1
  device _ :=
    { disk := fun _ _ => 7
      conduct := fun i => ⟨0, 0, count, fun _ => 0, 0,
        (0, ⟨CSWSIGNATURE, UInt32.ofNat i, UInt32.ofNat (512 - count), 0⟩), 0,
        (0, ⟨CSWSIGNATURE, UInt32.ofNat i, UInt32.ofNat (512 - count), 0⟩)⟩ }

def failing : Bus where
  devnum i := if i.val = 0 then 1 else -1
  device _ := ⟨fun _ _ => 7, fun _ => ⟨0x20, 0, 0, fun _ => 0, 0, (0, ⟨0, 0, 0, 0⟩), 0,
    (0, ⟨0, 0, 0, 0⟩)⟩⟩

def desc512 : Desc := ⟨1, 512⟩

def beforeRead : State := ⟨fun _ => 0, fun _ => 0, List.replicate 16 0, 0, .sense, 0, true⟩

lemma beforeRead_called (bus : Bus) (unused : bus.devnum (Fin.last 31) = -1) :
    Called bus desc512 beforeRead 1 :=
  ⟨rfl, by decide, Fin.last 31, .inl unused⟩

theorem whole_block_counted :
    ReadOk (passing 512) desc512 beforeRead 0 1 0x30000000
      (usbStorRead (passing 512) desc512 beforeRead 0 1 0x30000000) := by
  apply (read_ok_iff (beforeRead_called _ rfl)).mpr
  intro d _ found
  have here : (passing 512).find desc512.target = some 0 := by decide +kernel
  obtain rfl := Option.some.inj (here.symm.trans found)
  have passed : readAt ((passing 512).device 0).conduct (desc512.len 1) 2 1 0 = some (2, 512) := by
    decide +kernel
  refine ⟨1, by decide +kernel, .read passed ?_ (.none_left _ _ _)⟩
  intro k behind low
  have bytes : min 20 (1 : UInt32).toNat * desc512.blksz.toNat = 512 := rfl
  omega

/-- 31 of 512 bytes are moved, and the block is counted. -/
theorem short_block_counted :
    Called (passing 31) desc512 beforeRead 1 ∧ (passing 31).IsDev desc512.target 0 ∧
      (usbStorRead (passing 31) desc512 beforeRead 0 1 0x30000000).1 = 1 ∧
      (usbStorRead (passing 31) desc512 beforeRead 0 1 0x30000000).2.mem 0x3000001f = 0 ∧
      ((passing 31).device 0).disk 0 31 = 7 ∧
    Called failing desc512 beforeRead 1 ∧
      (usbStorRead failing desc512 beforeRead 0 1 0x30000000).2.asynch_allowed = false := by
  refine ⟨beforeRead_called _ rfl, ⟨rfl, by decide⟩, ?_, ?_, rfl, beforeRead_called _ rfl, ?_⟩
  · decide +kernel
  · decide +kernel
  · decide +kernel

end MassStorage
