import UBoot.Net.Tftp
import UBoot.Lib.Runs

/-!
# A transfer from a lock-step server

The server sends each block once the one before it has been acknowledged; any
packet may arrive again, also behind later ones. The client tells blocks apart
by 16 bits and counts a wrap at every sequence number 0.
-/

namespace TftpTransfer

open ByteMemory Tftp Runs

variable {k m : Nat}

structure Transfer where
  file : List UInt8
  blksize : Nat
  loadAddr : Nat
  serverPort : Nat
  blksize_pos : 0 < blksize
  blksize_lt : blksize < sequenceSize
  fits : loadAddr + file.length ≤ ulongMax

namespace Transfer

variable (t : Transfer)

def count : Nat := t.file.length / t.blksize + 1

def blockData (k : Nat) : List UInt8 := (t.file.drop ((k - 1) * t.blksize)).take t.blksize

def packet (k : Nat) : List UInt8 :=
  0 :: 3 :: UInt8.ofNat (k / 256) :: UInt8.ofNat k :: t.blockData k

def image (before : Mem) (m : Nat) : Mem := blit before t.loadAddr (t.file.take (m * t.blksize))

lemma count_bounds :
    (t.count - 1) * t.blksize ≤ t.file.length ∧ t.file.length < t.count * t.blksize := by
  have hdiv := Nat.div_add_mod t.file.length t.blksize
  have hmod := Nat.mod_lt t.file.length t.blksize_pos
  have hcomm := mul_comm t.blksize (t.file.length / t.blksize)
  constructor
  · rw [count, Nat.add_sub_cancel]
    omega
  · rw [count, Nat.add_mul]
    omega

lemma blockData_short (hpos : 1 ≤ k) (hk : k ≤ t.count) :
    (t.blockData k).length < t.blksize ↔ k = t.count := by
  obtain ⟨hlow, hhigh⟩ := t.count_bounds
  obtain ⟨j, rfl⟩ := Nat.exists_eq_add_of_le' hpos
  simp only [blockData, Nat.add_sub_cancel, List.length_take, List.length_drop]
  constructor
  · intro hshort
    by_contra hne
    have hle : (j + 1) * t.blksize ≤ (t.count - 1) * t.blksize :=
      Nat.mul_le_mul_right _ (by omega)
    rw [Nat.add_mul, Nat.one_mul] at hle
    omega
  · intro hlast
    have hpos' := t.blksize_pos
    rw [← hlast, Nat.add_mul, Nat.one_mul] at hhigh
    omega

lemma image_count (before : Mem) : t.image before t.count = blit before t.loadAddr t.file := by
  rw [image, List.take_of_length_le (Nat.le_of_lt t.count_bounds.2)]

@[simp] theorem image_zero (before : Mem) : t.image before 0 = before := by
  simp [image]

lemma image_block (before : Mem) (hpos : 1 ≤ k) (hk : k ≤ m + 1) :
    blit (t.image before m) (t.loadAddr + (k - 1) * t.blksize) (t.blockData k) =
      t.image before (max m k) := by
  have hoff : (k - 1) * t.blksize ≤ m * t.blksize := Nat.mul_le_mul_right _ (by omega)
  have hend : (k - 1) * t.blksize + t.blksize = k * t.blksize := by
    rw [← Nat.succ_mul]
    congr 1
    omega
  have hmax : max (m * t.blksize) (k * t.blksize) = max m k * t.blksize :=
    Nat.mul_max_mul_right ..
  rw [image, blockData, blit_block _ _ _ _ hoff, hend, hmax]
  rfl

end Transfer

variable {t : Transfer} {c : Client} {before : Mem}

structure Session where
  client : Client
  highest : Nat

inductive Arrival where
  | block (k : Nat)
  | timeout

/-- `NetLoop` handles arrivals until the transfer is over. -/
def step (cfg : Config) (t : Transfer) (s : Session) (a : Arrival) : Option Session :=
  if s.client.netState ≠ .running then some s
  else match a with
    | .block k => some ⟨tftpHandler cfg s.client (t.packet k) s.client.ourPort t.serverPort,
        max s.highest k⟩
    | .timeout => some ⟨tftpTimeout s.client, s.highest⟩

def Lockstep (t : Transfer) (s : Session) : Arrival → Prop
  | .block k => 1 ≤ k ∧ k ≤ t.count ∧ k ≤ s.highest + 1
  | .timeout => True

def CurrentRound (s : Session) : Arrival → Prop
  | .block k => k ≤ s.highest → sequenceSize * (s.highest / sequenceSize) < k
  | .timeout => True

/-- Before the first block: the request is out, or its options have been acknowledged. -/
structure Ready (t : Transfer) (c : Client) : Prop where
  blkSize : c.blkSize = t.blksize
  loadAddr : c.loadAddr = t.loadAddr
  running : c.netState = .running
  phase : c.state = .rrq ∨ c.state = .oack ∧ c.serverPort = t.serverPort

/-- The request asks for the standard block size. -/
theorem ready_tftpStart (cfg : Config) (ourPort : Nat) (blksize : t.blksize = 512)
    (loadAddr : c.loadAddr = t.loadAddr) (running : c.netState = .running) :
    Ready t (tftpStart cfg c ourPort) := by
  obtain ⟨sent, hsent⟩ := tftpSend_eq
    { c with timeoutCountMax := cfg.rrqTimeoutCountMax, serverPort := 69, timeoutCount := 0,
             state := .rrq, ourPort := ourPort, block := 0, blkSize := 512 }
  rw [tftpStart, hsent]
  exact ⟨blksize.symm, loadAddr, running, .inl rfl⟩

structure Receiving (t : Transfer) (s : Session) : Prop where
  state : s.client.state = .data
  serverPort : s.client.serverPort = t.serverPort
  wrapOffset : s.client.blockWrapOffset =
    t.blksize * sequenceSize * (s.highest / sequenceSize) % ulongMax
  lastBlock : ∃ k, s.client.lastBlock = k % sequenceSize ∧ k ≤ s.highest ∧
    (k = s.highest ∨ sequenceSize * (s.highest / sequenceSize) < k)

/-- The blocks that have arrived are in place, and nothing else has changed. -/
structure Holding (t : Transfer) (before : Mem) (s : Session) : Prop where
  blkSize : s.client.blkSize = t.blksize
  loadAddr : s.client.loadAddr = t.loadAddr
  memory : s.client.mem = t.image before s.highest
  bound : s.highest ≤ t.count
  waiting : s.client.netState = .running → s.highest < t.count ∧
    (s.highest = 0 → s.client.state = .rrq ∨
      s.client.state = .oack ∧ s.client.serverPort = t.serverPort) ∧
    (0 < s.highest → Receiving t s)
  done : s.client.netState = .success → s.highest = t.count

lemma packet_block (k : Nat) :
    Tftp.be16 (UInt8.ofNat (k / 256)) (UInt8.ofNat k) = k % sequenceSize := by
  simp only [Tftp.be16, sequenceSize, UInt8.toNat_ofNat']
  omega

lemma handler_packet (cfg : Config) (t : Transfer) (k : Nat)
    (port : c.state = .rrq ∨ c.serverPort = t.serverPort) :
    tftpHandler cfg c (t.packet k) c.ourPort t.serverPort =
      handleData cfg c (k % sequenceSize) t.serverPort (t.blockData k) := by
  have hport : ¬ (c.state ≠ .rrq ∧ t.serverPort ≠ c.serverPort) := by
    rintro ⟨hstate, hserver⟩
    rcases port with h | h
    · exact hstate h
    · exact hserver h.symm
  have hproto : Tftp.be16 0 3 = 3 := rfl
  simp only [tftpHandler, ne_eq, not_true_eq_false, if_false, if_neg hport, Transfer.packet,
    hproto, packet_block]
  rfl

lemma blockOffset_round (hpos : 1 ≤ k) (blkSize : c.blkSize = t.blksize)
    (round : c.blockWrapOffset = t.blksize * sequenceSize * (k / sequenceSize) % ulongMax) :
    blockOffset c ((k % sequenceSize + ulongMax - 1) % ulongMax) =
      (k - 1) * t.blksize % ulongMax := by
  have hk := Nat.div_add_mod k sequenceSize
  have hlt := Nat.mod_lt k (show 0 < sequenceSize by decide)
  have hround : t.blksize * sequenceSize * (k / sequenceSize) =
      sequenceSize * (k / sequenceSize) * t.blksize := by
    rw [mul_assoc, mul_comm]
  rw [blockOffset, blkSize, round, Nat.add_mod_mod, hround]
  generalize k / sequenceSize = q at hk ⊢
  generalize k % sequenceSize = r at hk hlt ⊢
  simp only [sequenceSize, ulongMax] at hk hlt ⊢
  by_cases hr : r = 0
  · -- the number 0 is the last one of the round before
    obtain ⟨p, hp⟩ := Nat.exists_eq_add_of_le' (show 1 ≤ 2 ^ 16 * q by omega)
    have hsum : (2 ^ 32 - 1) * t.blksize + (p + 1) * t.blksize =
        p * t.blksize + t.blksize * 2 ^ 32 := by
      have hsucc : (p + 1) * t.blksize = p * t.blksize + t.blksize := Nat.succ_mul _ _
      omega
    have hblock : (r + 2 ^ 32 - 1) % 2 ^ 32 = 2 ^ 32 - 1 := by omega
    have hprev : k - 1 = p := by omega
    rw [hblock, hp, hsum, Nat.add_mul_mod_self_right, hprev]
  · have hblock : (r + 2 ^ 32 - 1) % 2 ^ 32 = r - 1 := by omega
    have hprev : r - 1 + 2 ^ 16 * q = k - 1 := by omega
    rw [hblock, ← Nat.add_mul, hprev]

lemma store_round (hpos : 1 ≤ k) (hk : k ≤ m + 1)
    (blkSize : c.blkSize = t.blksize) (loadAddr : c.loadAddr = t.loadAddr)
    (memory : c.mem = t.image before m) (block : c.block = k % sequenceSize)
    (round : c.blockWrapOffset = t.blksize * sequenceSize * (k / sequenceSize) % ulongMax) :
    blit c.mem ((c.loadAddr + blockOffset c ((c.block + ulongMax - 1) % ulongMax)) % ulongMax)
      (t.blockData k) = t.image before (max m k) := by
  have hfits := t.fits
  rw [block, blockOffset_round hpos blkSize round, loadAddr, memory]
  by_cases hempty : (k - 1) * t.blksize < t.file.length
  · have hoff : (t.loadAddr + (k - 1) * t.blksize % ulongMax) % ulongMax =
        t.loadAddr + (k - 1) * t.blksize := by
      rw [Nat.mod_eq_of_lt (show (k - 1) * t.blksize < ulongMax by omega), Nat.mod_eq_of_lt]
      omega
    rw [hoff]
    exact t.image_block before hpos hk
  · -- the last block has no data, wherever it goes
    have hnil : t.blockData k = [] := by
      rw [Transfer.blockData, List.drop_eq_nil_of_le (by omega), List.take_nil]
    have hkeep := t.image_block before hpos hk
    rw [hnil, blit_nil] at hkeep ⊢
    exact hkeep

/-! ## One arrival -/

lemma same_round (hk : k ≤ m) (round : sequenceSize * (m / sequenceSize) < k) :
    k / sequenceSize = m / sequenceSize ∧ k % sequenceSize ≠ 0 := by
  simp only [sequenceSize] at round ⊢
  omega

lemma next_differs (hk : k ≤ m) (last : k = m ∨ sequenceSize * (m / sequenceSize) < k) :
    (m + 1) % sequenceSize ≠ k % sequenceSize := by
  simp only [sequenceSize] at last ⊢
  omega

/-- The client once the packet's number has been taken in, in the round of that number. -/
structure Arrived (t : Transfer) (before : Mem) (m k : Nat) (c : Client) : Prop where
  blkSize : c.blkSize = t.blksize
  loadAddr : c.loadAddr = t.loadAddr
  memory : c.mem = t.image before m
  running : c.netState = .running
  state : c.state = .data
  serverPort : c.serverPort = t.serverPort
  block : c.block = k % sequenceSize
  wrapOffset : c.blockWrapOffset =
    t.blksize * sequenceSize * (k / sequenceSize) % ulongMax

lemma accept_holds (cfg : Config) (arrived : Arrived t before m k c) (hpos : 1 ≤ k)
    (hnext : k ≤ m + 1) (hcount : k ≤ t.count) (open_ : m < t.count)
    (round : k ≤ m → sequenceSize * (m / sequenceSize) < k) (differs : c.block ≠ c.lastBlock) :
    Holding t before ⟨acceptBlock cfg c (t.blockData k), max m k⟩ ∧
      (acceptBlock cfg c (t.blockData k)).netState ≠ .startAgain := by
  have hstore := store_round hpos hnext arrived.blkSize arrived.loadAddr arrived.memory
    arrived.block arrived.wrapOffset
  have hshort := t.blockData_short hpos hcount
  obtain ⟨size, sent, haccept⟩ := acceptBlock_new cfg (t.blockData k) differs
  rw [haccept]
  have hnot : (if (t.blockData k).length < c.blkSize then .success else c.netState) ≠
      NetState.startAgain := by
    rw [arrived.running]
    split_ifs <;> decide
  refine ⟨{ blkSize := arrived.blkSize, loadAddr := arrived.loadAddr, memory := hstore,
            bound := by simp only; omega, waiting := ?_, done := ?_ }, hnot⟩
  · intro hrunning
    have hlong : ¬ (t.blockData k).length < c.blkSize := by
      intro hlt
      simp [hlt] at hrunning
    rw [arrived.blkSize, hshort] at hlong
    refine ⟨by simp only; omega, fun hzero => by simp only at hzero; omega, fun _ => ?_⟩
    refine { state := arrived.state, serverPort := arrived.serverPort, wrapOffset := ?_,
             lastBlock := ⟨k, arrived.block, Nat.le_max_right m k, ?_⟩ }
    · by_cases hold : k ≤ m
      · have hsame := (same_round hold (round hold)).1
        have hmax : max m k = m := Nat.max_eq_left hold
        simp only [hmax, ← hsame]
        exact arrived.wrapOffset
      · have hmax : max m k = k := Nat.max_eq_right (by omega)
        simp only [hmax]
        exact arrived.wrapOffset
    · by_cases hold : k ≤ m
      · have hmax : max m k = m := Nat.max_eq_left hold
        right
        simp only [hmax]
        exact round hold
      · left
        simp only
        omega
  · intro hsuccess
    have hlt : (t.blockData k).length < c.blkSize := by
      by_contra hlong
      simp [hlong, arrived.running] at hsuccess
    rw [arrived.blkSize, hshort] at hlt
    simp only
    omega

lemma ignore_holds (cfg : Config) (arrived : Arrived t before m k c) (hold : k ≤ m)
    (open_ : m < t.count) (hm : 0 < m) (round : sequenceSize * (m / sequenceSize) < k)
    (same : c.block = c.lastBlock) :
    Holding t before ⟨acceptBlock cfg c (t.blockData k), max m k⟩ ∧
      (acceptBlock cfg c (t.blockData k)).netState ≠ .startAgain := by
  have hmax : max m k = m := Nat.max_eq_left hold
  rw [acceptBlock, if_pos same, hmax]
  refine ⟨{ blkSize := arrived.blkSize, loadAddr := arrived.loadAddr, memory := arrived.memory,
            bound := Nat.le_of_lt open_,
            waiting := fun _ => ⟨open_, fun hzero => ?_, fun _ => ?_⟩,
            done := fun hsuccess => ?_ }, by rw [arrived.running]; decide⟩
  · simp only at hzero
    omega
  · refine { state := arrived.state, serverPort := arrived.serverPort, wrapOffset := ?_,
             lastBlock := ⟨k, same ▸ arrived.block, hold, .inr round⟩ }
    simp only [← (same_round hold round).1]
    exact arrived.wrapOffset
  · simp [arrived.running] at hsuccess

lemma handleData_first {cfg : Config} {src : Nat} {data : List UInt8}
    (first : c.state = .rrq ∨ c.state = .oack) :
    handleData cfg c 1 src data = acceptBlock cfg
      { c with block := 1, state := .data, serverPort := src, lastBlock := 0, blockWrap := 0,
               blockWrapOffset := 0 } data := by
  have hwrap : countWrap { c with block := 1 } = { c with block := 1 } :=
    if_neg (show (1 : Nat) ≠ 0 by decide)
  simp only [handleData, hwrap, if_pos first]
  rfl

lemma handleData_later {cfg : Config} {block src : Nat} {data : List UInt8}
    (later : c.state = .data) :
    handleData cfg c block src data = acceptBlock cfg (countWrap { c with block := block }) data := by
  have hstate : (countWrap { c with block := block }).state = .data := by
    unfold countWrap
    split_ifs <;> exact later
  simp only [handleData, hstate]
  rfl

lemma step_block (cfg : Config) {s : Session} (h : Holding t before s)
    (running : s.client.netState = .running) (lockstep : Lockstep t s (.block k))
    (round : CurrentRound s (.block k)) :
    Holding t before ⟨tftpHandler cfg s.client (t.packet k) s.client.ourPort t.serverPort,
        max s.highest k⟩ ∧
      (tftpHandler cfg s.client (t.packet k) s.client.ourPort t.serverPort).netState ≠
        .startAgain := by
  obtain ⟨hpos, hcount, hnext⟩ := lockstep
  obtain ⟨hopen, hfirst, hlater⟩ := h.waiting running
  by_cases hzero : s.highest = 0
  · -- the first block
    obtain rfl : k = 1 := by omega
    have hstate := hfirst hzero
    rw [handler_packet cfg t 1 (by rcases hstate with hs | ⟨-, hp⟩
                                   · exact .inl hs
                                   · exact .inr hp),
      show 1 % sequenceSize = 1 from rfl,
      handleData_first (by rcases hstate with hs | ⟨hs, -⟩
                           · exact .inl hs
                           · exact .inr hs)]
    apply accept_holds cfg _ hpos hnext hcount hopen round (by simp)
    exact { blkSize := h.blkSize, loadAddr := h.loadAddr, memory := h.memory, running := running,
            state := rfl, serverPort := rfl, block := rfl, wrapOffset := by simp [sequenceSize] }
  have hm : 0 < s.highest := Nat.pos_of_ne_zero hzero
  have hrecv := hlater hm
  obtain ⟨j, hj, hjm, hjlast⟩ := hrecv.lastBlock
  rw [handler_packet cfg t k (.inr hrecv.serverPort), handleData_later hrecv.state]
  by_cases hold : k ≤ s.highest
  · -- a duplicate of the current round
    have hround := round hold
    obtain ⟨hsame, hnonzero⟩ := same_round hold hround
    have hwrap : countWrap { s.client with block := k % sequenceSize } =
        { s.client with block := k % sequenceSize } := if_neg hnonzero
    rw [hwrap]
    have harrived : Arrived t before s.highest k
        { s.client with block := k % sequenceSize } :=
      { blkSize := h.blkSize, loadAddr := h.loadAddr, memory := h.memory, running := running,
        state := hrecv.state, serverPort := hrecv.serverPort, block := rfl,
        wrapOffset := by rw [hsame]; exact hrecv.wrapOffset }
    by_cases hignored : k % sequenceSize = s.client.lastBlock
    · exact ignore_holds cfg harrived hold hopen hm hround hignored
    · exact accept_holds cfg harrived hpos hnext hcount hopen round hignored
  -- the next block
  obtain rfl : k = s.highest + 1 := by omega
  have hdiffers : (s.highest + 1) % sequenceSize ≠ s.client.lastBlock := by
    rw [hj]
    exact next_differs hjm hjlast
  have hwrapped : countWrap { s.client with block := (s.highest + 1) % sequenceSize } =
      { s.client with
        block := (s.highest + 1) % sequenceSize,
        blockWrap := (countWrap { s.client with
          block := (s.highest + 1) % sequenceSize }).blockWrap,
        blockWrapOffset := t.blksize * sequenceSize * ((s.highest + 1) / sequenceSize) %
          ulongMax } := by
    unfold countWrap
    by_cases hwrap : (s.highest + 1) % sequenceSize = 0
    · have hq : (s.highest + 1) / sequenceSize = s.highest / sequenceSize + 1 := by
        simp only [sequenceSize] at hwrap ⊢
        omega
      simp only [if_pos hwrap, hq, h.blkSize, hrecv.wrapOffset, Nat.mod_add_mod, Nat.mul_add,
        mul_one]
    · have hq : (s.highest + 1) / sequenceSize = s.highest / sequenceSize := by
        simp only [sequenceSize] at hwrap ⊢
        omega
      simp only [if_neg hwrap, hq, ← hrecv.wrapOffset]
  rw [hwrapped]
  apply accept_holds cfg _ hpos hnext hcount hopen round hdiffers
  exact { blkSize := h.blkSize, loadAddr := h.loadAddr, memory := h.memory, running := running,
          state := hrecv.state, serverPort := hrecv.serverPort, block := rfl,
          wrapOffset := rfl }

lemma step_timeout {s : Session} (h : Holding t before s) (running : s.client.netState = .running)
    :
    Holding t before ⟨tftpTimeout s.client, s.highest⟩ := by
  obtain ⟨sent, netState, heq, hstate⟩ := tftpTimeout_eq s.client
  rw [heq]
  refine { blkSize := h.blkSize, loadAddr := h.loadAddr, memory := h.memory, bound := h.bound,
           waiting := fun _ => ?_, done := ?_ }
  · obtain ⟨hopen, hfirst, hlater⟩ := h.waiting running
    refine ⟨hopen, hfirst, fun hm => ?_⟩
    have hrecv := hlater hm
    exact { state := hrecv.state, serverPort := hrecv.serverPort,
            wrapOffset := hrecv.wrapOffset, lastBlock := hrecv.lastBlock }
  · intro hsuccess
    rcases hstate with hs | hs
    · simp only at hsuccess
      rw [hs] at hsuccess
      cases hsuccess
    · simp only at hsuccess
      rw [hs, running] at hsuccess
      cases hsuccess

lemma holding_start (ready : Ready t c) :
    Holding t c.mem ⟨c, 0⟩ :=
  { blkSize := ready.blkSize, loadAddr := ready.loadAddr, memory := (t.image_zero c.mem).symm,
    bound := Nat.zero_le _,
    waiting := fun _ => ⟨Nat.succ_pos _, fun _ => ready.phase, fun h => absurd h (Nat.lt_irrefl 0)⟩,
    done := fun h => by rw [ready.running] at h; cases h }

lemma step_holds {cfg : Config} {s : Session} {a : Arrival} (h : Holding t before s)
    (ok : Lockstep t s a ∧ CurrentRound s a) :
    ∃ s', step cfg t s a = some s' ∧ Holding t before s' := by
  by_cases hrunning : s.client.netState = .running
  · cases a with
    | block k =>
      refine ⟨_, if_neg (fun hne => hne hrunning), ?_⟩
      exact (step_block cfg h hrunning ok.1 ok.2).1
    | timeout => exact ⟨_, if_neg (fun hne => hne hrunning), step_timeout h hrunning⟩
  · exact ⟨s, if_pos hrunning, h⟩

/-! ## Whole transfers -/

/-- As long as every duplicate comes from the current round of sequence numbers, the blocks that
have arrived lie where they belong, nothing else has been written, and success is reported only
for the whole file. -/
theorem transfer_stores_file (cfg : Config) (t : Transfer) {c : Client} (ready : Ready t c)
    (arrivals : List Arrival)
    (meet : StepsMeet (step cfg t) (fun s a => Lockstep t s a ∧ CurrentRound s a) ⟨c, 0⟩
      arrivals) :
    ∃ s, runFrom (step cfg t) ⟨c, 0⟩ arrivals = some s ∧
      (∀ k, 1 ≤ k → k ≤ s.highest →
        Holds s.client.mem (t.loadAddr + (k - 1) * t.blksize) (t.blockData k)) ∧
      (∀ i, i < t.loadAddr ∨ t.loadAddr + t.file.length ≤ i → s.client.mem i = c.mem i) ∧
      (s.client.netState = .success → Holds s.client.mem t.loadAddr t.file) ∧
      (s.client.netState = .running → s.highest < t.count) := by
  obtain ⟨s, hrun, h⟩ := invariant_of_run (fun s a hs hok => step_holds hs hok)
    (holding_start ready) meet
  refine ⟨s, hrun, ?_, ?_, ?_, fun hrunning => (h.waiting hrunning).1⟩
  · intro k hpos hk
    -- writing the block once more would change nothing
    have hsame := t.image_block c.mem hpos (Nat.le_succ_of_le hk)
    have hmax : max s.highest k = s.highest := Nat.max_eq_left hk
    rw [hmax] at hsame
    rw [h.memory, ← hsame]
    exact holds_blit _ _ _
  · intro i hi
    rw [h.memory, Transfer.image]
    rcases hi with hi | hi
    · exact blit_before _ _ hi
    · refine blit_after _ _ ?_
      rw [List.length_take]
      omega
  · intro hsuccess
    rw [h.memory, h.done hsuccess, t.image_count]
    exact holds_blit _ _ _

-- a file of three bytes in blocks of two, the first block twice
def threeBytes : Transfer :=
  ⟨[1, 2, 3], 2, 0x30000000, 69, by decide, by decide, by decide⟩

def waitingClient (t : Transfer) : Client :=
  { ourPort := 1024, serverPort := t.serverPort, state := .oack, blkSize := t.blksize,
    blkSizeOption := 1468, block := 0, lastBlock := 0, blockWrap := 0, blockWrapOffset := 0,
    timeoutCount := 0, timeoutCountMax := 10, loadAddr := t.loadAddr, mem := fun _ => 0,
    netBootFileXferSize := 0, netState := .running, sent := [] }

lemma waitingClient_ready (t : Transfer) : Ready t (waitingClient t) :=
  ⟨rfl, rfl, rfl, .inr ⟨rfl, rfl⟩⟩

theorem transfer_stores_three_bytes :
    ∃ s, runFrom (step ⟨10, 10⟩ threeBytes) ⟨waitingClient threeBytes, 0⟩
        [.block 1, .block 1] = some s ∧
      (s.client.netState = .success → Holds s.client.mem 0x30000000 [1, 2, 3]) := by
  obtain ⟨s, hrun, -, -, hsuccess, -⟩ := transfer_stores_file ⟨10, 10⟩ threeBytes
    (waitingClient_ready threeBytes) [.block 1, .block 1]
    ⟨⟨⟨by decide, by decide, by decide⟩, fun h => absurd h (by decide)⟩, fun u hu => by
      obtain rfl := Option.some.inj hu
      exact ⟨⟨⟨by decide, by decide, by decide⟩, fun _ => by decide⟩, fun _ _ => trivial⟩⟩
  exact ⟨s, hrun, hsuccess⟩

/-! ## A duplicate of the block that wraps -/

def inOrder (n : Nat) : List Arrival := (List.range n).map (fun i => .block (i + 1))

lemma inOrder_runs (cfg : Config) (ready : Ready t c) {n : Nat} (hn : n < t.count) :
    StepsMeet (step cfg t) (Lockstep t) ⟨c, 0⟩ (inOrder n) ∧
      ∃ s, runFrom (step cfg t) ⟨c, 0⟩ (inOrder n) = some s ∧ Holding t c.mem s ∧
        s.highest = n ∧ s.client.netState = .running := by
  induction n with
  | zero => exact ⟨trivial, ⟨c, 0⟩, rfl, holding_start ready, rfl, ready.running⟩
  | succ n ih =>
    obtain ⟨hmeet, s, hrun, h, rfl, hrunning⟩ := ih (by omega)
    have hsplit : inOrder (s.highest + 1) = inOrder s.highest ++ [.block (s.highest + 1)] := by
      simp [inOrder, List.range_succ]
    have hlock : Lockstep t s (.block (s.highest + 1)) :=
      ⟨by omega, Nat.le_of_lt hn, Nat.le_refl _⟩
    obtain ⟨hnext, hnot⟩ := step_block cfg h hrunning hlock (fun h => by omega)
    have hmax : max s.highest (s.highest + 1) = s.highest + 1 := by omega
    rw [hmax] at hnext
    have hstep : step cfg t s (.block (s.highest + 1)) = some
        ⟨tftpHandler cfg s.client (t.packet (s.highest + 1)) s.client.ourPort t.serverPort,
          s.highest + 1⟩ := by
      rw [step, if_neg (fun hne => hne hrunning), hmax]
    refine ⟨?_, _, ?_, hnext, rfl, ?_⟩
    · rw [hsplit, stepsMeet_append]
      refine ⟨hmeet, fun u hu => ?_⟩
      obtain rfl := Option.some.inj (hrun.symm.trans hu)
      exact ⟨hlock, fun _ _ => trivial⟩
    · rw [hsplit, runFrom_append, hrun]
      exact runFrom_cons hstep []
    · cases hstate : (tftpHandler cfg s.client (t.packet (s.highest + 1)) s.client.ourPort
        t.serverPort).netState with
      | running => rfl
      | success => exact absurd (hnext.done hstate) (Nat.ne_of_lt hn)
      | startAgain => exact absurd hstate hnot

lemma wrap_duplicate_misplaces (cfg : Config) (ready : Ready t c) {n : Nat}
    (hn : n = sequenceSize) (hcount : t.count = n + 1) :
    StepsMeet (step cfg t) (Lockstep t) ⟨c, 0⟩
        (inOrder n ++ [.block n, .block (n + 1)]) ∧
      ∃ s, runFrom (step cfg t) ⟨c, 0⟩
          (inOrder n ++ [.block n, .block (n + 1)]) = some s ∧
        s.client.netState = .success ∧
        s.client.mem = blit (t.image c.mem n)
          ((t.loadAddr + 2 * (t.blksize * sequenceSize) % ulongMax) % ulongMax)
          (t.blockData (n + 1)) := by
  obtain ⟨hmeet, s, hrun, h, hm, hrunning⟩ :=
    inOrder_runs cfg ready (n := n) (by omega)
  have hrecv := (h.waiting hrunning).2.2 (by rw [hm, hn]; decide)
  have hlast : s.client.lastBlock = 0 := by
    obtain ⟨k, hk, hle, hround⟩ := hrecv.lastBlock
    rw [hm, hn] at hle hround
    simp only [sequenceSize] at hle hround hk
    omega
  have hoffset : s.client.blockWrapOffset = t.blksize * sequenceSize % ulongMax := by
    rw [hrecv.wrapOffset, hm, hn]
    simp [sequenceSize]
  -- the duplicate moves the offset and is then ignored
  let wrapped : Client :=
    { s.client with block := 0, blockWrap := (s.client.blockWrap + 1) % ulongMax,
                    blockWrapOffset := 2 * (t.blksize * sequenceSize) % ulongMax }
  have hdup : step cfg t s (.block n) = some ⟨wrapped, n⟩ := by
    rw [step, if_neg (fun hne => hne hrunning)]
    simp only [handler_packet cfg t n (.inr hrecv.serverPort),
      handleData_later hrecv.state]
    have hzero : n % sequenceSize = 0 := by rw [hn, Nat.mod_self]
    have hwrap : countWrap { s.client with block := n % sequenceSize } = wrapped := by
      have hsum : (s.client.blockWrapOffset + s.client.blkSize * sequenceSize) % ulongMax =
          2 * (t.blksize * sequenceSize) % ulongMax := by
        rw [hoffset, h.blkSize, Nat.mod_add_mod, ← Nat.two_mul]
      simp only [countWrap, hzero, if_true, hsum]
      rfl
    rw [hwrap, acceptBlock, if_pos (show wrapped.block = wrapped.lastBlock from hlast.symm), hm,
      Nat.max_self]
  have hdata := t.blockData_short (k := n + 1) (by omega) (by omega)
  obtain ⟨size, sent, haccept⟩ := acceptBlock_new cfg (c := { wrapped with block := 1 })
    (t.blockData (n + 1)) (show 1 ≠ s.client.lastBlock by omega)
  have hshort : (t.blockData (n + 1)).length < wrapped.blkSize := by
    rw [show wrapped.blkSize = t.blksize from h.blkSize, hdata, hcount]
  have hnext : step cfg t ⟨wrapped, n⟩ (.block (n + 1)) = some
      ⟨acceptBlock cfg { wrapped with block := 1 } (t.blockData (n + 1)),
        n + 1⟩ := by
    rw [step, if_neg (fun hne => hne hrunning)]
    simp only [handler_packet cfg t (c := wrapped) (n + 1) (.inr hrecv.serverPort),
      handleData_later (c := wrapped) hrecv.state]
    have hone : (n + 1) % sequenceSize = 1 := by
      rw [hn]
      rfl
    have hmax : max n (n + 1) = n + 1 := by omega
    have hwrap : countWrap { wrapped with block := 1 } = { wrapped with block := 1 } :=
      if_neg (show (1 : Nat) ≠ 0 by decide)
    rw [hone, hmax, hwrap]
  refine ⟨?_, ⟨acceptBlock cfg { wrapped with block := 1 } (t.blockData (n + 1)),
    n + 1⟩, ?_, ?_, ?_⟩
  · rw [stepsMeet_append]
    refine ⟨hmeet, fun u hu => ?_⟩
    obtain rfl := Option.some.inj (hrun.symm.trans hu)
    have hpos : 0 < n := by
      rw [hn]
      decide
    have hfirst : Lockstep t s (.block n) := ⟨hpos, by omega, by omega⟩
    have hsecond : Lockstep t ⟨wrapped, n⟩ (.block (n + 1)) :=
      ⟨Nat.succ_pos _, Nat.le_of_eq hcount.symm, Nat.le_refl _⟩
    rw [stepsMeet_cons hdup, stepsMeet_cons hnext]
    exact ⟨hfirst, hsecond, trivial⟩
  · rw [runFrom_append, hrun]
    exact (runFrom_cons hdup _).trans (runFrom_cons hnext [])
  · simp only [haccept]
    exact if_pos hshort
  · have hoff : blockOffset { wrapped with block := 1 } ((1 + ulongMax - 1) % ulongMax) =
        2 * (t.blksize * sequenceSize) % ulongMax := by
      have hnone : (1 + ulongMax - 1) % ulongMax = 0 := by decide
      simp only [blockOffset, hnone, zero_mul, zero_add]
      exact Nat.mod_mod _ _
    simp only [haccept]
    rw [hoff, ← hm, ← h.memory]
    exact congrArg (fun a => blit s.client.mem ((a + _) % ulongMax) _) h.loadAddr

/-- A file of `n` equal bytes, in the default blocks. -/
def filled (n : Nat) (room : 0x30000000 + n ≤ ulongMax) : Transfer :=
  ⟨List.replicate n 0xAA, 512, 0x30000000, 69, by decide, by decide, by
    rw [List.length_replicate]
    exact room⟩

lemma wrap_duplicate_spoils {n : Nat} (hn : n = sequenceSize)
    (room : 0x30000000 + (512 * n + 1) ≤ ulongMax) :
    StepsMeet (step ⟨10, 10⟩ (filled _ room)) (Lockstep (filled _ room))
        ⟨waitingClient (filled _ room), 0⟩ (inOrder n ++ [.block n, .block (n + 1)]) ∧
      ∃ s, runFrom (step ⟨10, 10⟩ (filled _ room)) ⟨waitingClient (filled _ room), 0⟩
          (inOrder n ++ [.block n, .block (n + 1)]) = some s ∧
        s.client.netState = .success ∧ (filled _ room).file[512 * n]? = some 0xAA ∧
        s.client.mem (0x30000000 + 512 * n) = 0 := by
  have hlen : (filled _ room).file.length = 512 * n + 1 := List.length_replicate
  have hcount : (filled _ room).count = n + 1 := by
    have hblk : (filled _ room).blksize = 512 := rfl
    rw [Transfer.count, hlen, hblk]
    omega
  obtain ⟨hmeet, s, hrun, hsuccess, hmem⟩ :=
    wrap_duplicate_misplaces ⟨10, 10⟩ (waitingClient_ready (filled _ room)) hn hcount
  refine ⟨hmeet, s, hrun, hsuccess, ?_, ?_⟩
  · exact (List.getElem?_replicate).trans (if_pos (Nat.lt_succ_self _))
  · have hbelow : 0x30000000 + 512 * n <
        (0x30000000 + 2 * (512 * sequenceSize) % ulongMax) % ulongMax := by
      rw [hn]
      decide
    have hbehind : 0x30000000 + ((filled _ room).file.take (n * 512)).length ≤
        0x30000000 + 512 * n := by
      rw [List.length_take]
      omega
    rw [hmem]
    exact (blit_before _ _ hbelow).trans (blit_after _ _ hbehind)

theorem wrap_duplicate_spoils_image :
    StepsMeet (step ⟨10, 10⟩ (filled (512 * sequenceSize + 1) (by decide)))
        (Lockstep (filled (512 * sequenceSize + 1) (by decide)))
        ⟨waitingClient (filled (512 * sequenceSize + 1) (by decide)), 0⟩
        (inOrder sequenceSize ++ [.block sequenceSize, .block (sequenceSize + 1)]) ∧
      ∃ s, runFrom (step ⟨10, 10⟩ (filled (512 * sequenceSize + 1) (by decide)))
          ⟨waitingClient (filled (512 * sequenceSize + 1) (by decide)), 0⟩
          (inOrder sequenceSize ++ [.block sequenceSize, .block (sequenceSize + 1)]) = some s ∧
        s.client.netState = .success ∧
        (filled (512 * sequenceSize + 1) (by decide)).file[512 * sequenceSize]? = some 0xAA ∧
        s.client.mem (0x30000000 + 512 * sequenceSize) = 0 :=
  wrap_duplicate_spoils rfl (by decide)

end TftpTransfer
