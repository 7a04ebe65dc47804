import Mathlib.Algebra.BigOperators.Group.Finset.Basic
import Mathlib.Algebra.Order.BigOperators.Group.Finset
import UBoot.Usb.OhciOwner

/-!
# What the TDs of a URB hold

`td_submit_job` spreads the data of a call over its TDs. Until the call ends each of them keeps
its part, whatever the controller retires.
-/

namespace Ohci

open Runs

structure Part where
  index : Nat
  addr : UInt32
  len : Nat

/-- The data TDs of a call: 4096 bytes each in a bulk transfer, the one behind the setup TD in a
control transfer. -/
def Call.part (c : Call) (k : Nat) : Part :=
  if c.control then ⟨1, c.buffer, c.transfer_len⟩
  else ⟨k, c.buffer + UInt32.ofNat (4096 * k), min 4096 (c.transfer_len - 4096 * k)⟩

def Call.partCount (c : Call) : Nat :=
  if c.control then if c.transfer_len = 0 then 0 else 1 else (c.transfer_len + 4095) / 4096

def Part.Fits (p : Part) : Prop :=
  0 < p.addr.toNat ∧ 0 < p.len ∧ p.addr.toNat + p.len ≤ 4294967296

/-- The TD has the part, and its current buffer pointer is inside or at the end. -/
structure Holds (s : State) (p : Part) (t : Fin 64) : Prop where
  td : s.urb.td p.index = some t
  data : (s.td t).data = p.addr
  be : (s.td t).hwBE = p.addr + UInt32.ofNat p.len - 1
  cbp : (s.td t).hwCBP = 0 ∨ (p.addr.toNat ≤ (s.td t).hwCBP.toNat ∧
    (s.td t).hwCBP.toNat ≤ (s.td t).hwBE.toNat)

/-- The URB has its TDs, and an ED with a dummy. -/
structure Ready (s : State) (n : Nat) : Prop where
  owned : Owned s 0 n
  length : s.urb.length.toNat = n
  set_up : (s.ed s.urb.ed).state ≠ .new

lemma Part.Fits.last {p : Part} (fits : p.Fits) :
    (p.addr + UInt32.ofNat p.len - 1).toNat = p.addr.toNat + p.len - 1 := by
  obtain ⟨low, some_bytes, high⟩ := fits
  rw [UInt32.toNat_sub, UInt32.toNat_add, UInt32.toNat_ofNat', UInt32.toNat_one]
  omega

variable {s s' : State} {data : UInt32} {len index n : Nat} {td td_pt : Fin 64}

lemma Fills.ready (fills : Fills s s' data len index td td_pt) (ready : Ready s n)
    (inside : index < n) : Ready s' n where
  owned := fills.owned ready.owned ready.set_up inside
  length := by
    rw [fills.same.1]
    exact ready.length
  set_up := by
    rw [fills.same.2, fills.state]
    exact ready.set_up

lemma Fills.holds {p : Part} (fills : Fills s s' p.addr p.len p.index td td_pt) (fit : p.Fits) :
    Holds s' p td := by
  obtain ⟨-, data, cbp, be⟩ := fills.filled
  have nonzero : p.len ≠ 0 := Nat.ne_of_gt fit.2.1
  have address : p.addr ≠ 0 := by
    intro zero
    have low := fit.1
    rw [zero] at low
    exact absurd low (lt_irrefl 0)
  rw [if_neg nonzero] at cbp be
  rw [if_neg address] at be
  refine ⟨fills.urb_here, data, be, .inr ?_⟩
  rw [cbp, be, fit.last]
  omega

lemma Fills.holds_other {p : Part} {t : Fin 64} (fills : Fills s s' data len index td td_pt)
    (ready : Ready s n) (inside : p.index < n) (other : p.index ≠ index) (holds : Holds s p t) :
    Holds s' p t := by
  have no_dummy : t ≠ td := by
    rintro rfl
    exact ready.owned.inside p.index t (Nat.zero_le _) inside holds.td
      ⟨s.urb.ed, ready.set_up, fills.old_tail⟩
  have at_index := (fills.urb_other p.index other).trans holds.td
  rcases fills.other t no_dummy with same | same
  · exact ⟨at_index, by rw [same, holds.data], by rw [same, holds.be], by
      rw [same]
      exact holds.cbp⟩
  · exact ⟨at_index, by rw [same, holds.data], by rw [same, holds.be], by
      rw [same]
      exact holds.cbp⟩

variable {c : Call}

lemma bulk_part (bulk : c.control = false) (k : Nat) : c.part k =
    ⟨k, c.buffer + UInt32.ofNat (4096 * k), min 4096 (c.transfer_len - 4096 * k)⟩ := by
  rw [Call.part, bulk]
  rfl

lemma bulk_partCount (bulk : c.control = false) :
    c.partCount = (c.transfer_len + 4095) / 4096 := by
  rw [Call.partCount, bulk]
  rfl

/-- What filling the TDs from the `cnt`-th on comes to. -/
structure FilledFrom (c : Call) (s s' : State) (n cnt : Nat) : Prop where
  ready : Ready s' n
  before : ∀ p t, p.index < cnt → Holds s p t → Holds s' p t
  after : ∀ k, cnt ≤ k → 4096 * k < c.transfer_len → (c.part k).Fits →
    ∃ t, Holds s' (c.part k) t

lemma lastFill_holds (bulk : c.control = false) {cnt : Nat} (ready : Ready s n) (inside : cnt < n)
    (short : c.transfer_len - 4096 * cnt ≤ 4096) :
    FilledFrom c s (tdFill s (c.buffer + UInt32.ofNat (4096 * cnt))
      (c.transfer_len - 4096 * cnt) cnt) n cnt := by
  obtain ⟨td, td_pt, fills⟩ := tdFill_fills ready.owned ready.length ready.set_up
    (c.buffer + UInt32.ofNat (4096 * cnt)) (c.transfer_len - 4096 * cnt) inside
  refine ⟨fills.ready ready inside, ?_, ?_⟩
  · intro p t low holds
    exact fills.holds_other ready (low.trans inside) (ne_of_lt low) holds
  · intro k low there fit
    obtain rfl : k = cnt := by omega
    rw [bulk_part bulk, min_eq_right short] at fit ⊢
    exact ⟨td, fills.holds fit⟩

lemma fillBulk_holds (bulk : c.control = false) (enough : c.partCount ≤ n) (left cnt : Nat)
    (ready : Ready s n) (inside : cnt < n) (fuel : c.transfer_len - 4096 * cnt ≤ 4096 * (left + 1))
    :
    FilledFrom c s (fillBulk left s (c.buffer + UInt32.ofNat (4096 * cnt))
      (c.transfer_len - 4096 * cnt) cnt) n cnt := by
  rw [bulk_partCount bulk] at enough
  induction left generalizing s cnt with
  | zero => exact lastFill_holds bulk ready inside (by omega)
  | succ left ih =>
    rw [fillBulk]
    split
    · rename_i more
      obtain ⟨td, td_pt, fills⟩ := tdFill_fills ready.owned ready.length ready.set_up
        (c.buffer + UInt32.ofNat (4096 * cnt)) 4096 inside
      have next : c.buffer + UInt32.ofNat (4096 * cnt) + 4096 =
          c.buffer + UInt32.ofNat (4096 * (cnt + 1)) := by
        rw [Nat.mul_succ, UInt32.ofNat_add, UInt32.add_assoc]
        rfl
      have rest := ih (cnt + 1) (fills.ready ready inside) (by omega) (by omega)
      rw [next, Nat.sub_sub, ← Nat.mul_succ]
      refine ⟨rest.ready, ?_, ?_⟩
      · intro p t low holds
        exact rest.before p t (Nat.lt_succ_of_lt low)
          (fills.holds_other ready (low.trans inside) (ne_of_lt low) holds)
      · intro k low there fit
        rcases eq_or_lt_of_le low with rfl | later
        · have whole : min 4096 (c.transfer_len - 4096 * cnt) = 4096 := by omega
          rw [bulk_part bulk, whole] at fit ⊢
          exact ⟨td, rest.before _ td (Nat.lt_succ_self cnt) (fills.holds fit)⟩
        · exact rest.after k later there fit
    · rename_i last
      exact lastFill_holds bulk ready inside (not_lt.mp last)

def AllHold (s : State) (c : Call) : Prop :=
  ∀ k < c.partCount, (c.part k).Fits → ∃ t, Holds s (c.part k) t

lemma size_of_bulk (bulk : c.control = false) : c.partCount ≤ c.size := by
  rw [bulk_partCount bulk, Call.size, bulk]
  simp only [Bool.false_eq_true, if_false]
  omega

lemma Ready.fill (ready : Ready s n) (data : UInt32) (len : Nat) {index : Nat}
    (inside : index < n) : Ready (tdFill s data len index) n := by
  obtain ⟨td, td_pt, fills⟩ := tdFill_fills ready.owned ready.length ready.set_up data len inside
  exact fills.ready ready inside

lemma tdSubmitJob_holds (ready : Ready s c.size) :
    Ready (tdSubmitJob s c) c.size ∧ AllHold (tdSubmitJob s c) c := by
  have same : SameOwners s { s with urb := { s.urb with td_cnt := 0 } } :=
    ⟨fun _ => Iff.rfl, fun _ => rfl, rfl, fun _ => rfl⟩
  have start : Ready { s with urb := { s.urb with td_cnt := 0 } } c.size :=
    ⟨same.owned ready.owned, ready.length, ready.set_up⟩
  unfold tdSubmitJob
  cases control : c.control with
  | true =>
    simp only [if_true]
    by_cases empty : c.transfer_len = 0
    · have size : c.size = 2 := by
        rw [Call.size, control, if_pos rfl, if_pos empty]
      have none_left : c.partCount = 0 := by
        rw [Call.partCount, control, if_pos rfl, if_pos empty]
      rw [if_neg (by omega)]
      refine ⟨(start.fill _ _ (by omega)).fill _ _ (by omega), ?_⟩
      intro k low
      rw [none_left] at low
      exact absurd low (Nat.not_lt_zero k)
    have size : 3 ≤ c.size := by
      rw [Call.size, control, if_pos rfl, if_neg empty]
      omega
    have part (k : Nat) : c.part k = ⟨1, c.buffer, c.transfer_len⟩ := by
      rw [Call.part, control]
      rfl
    rw [if_pos (pos_of_ne_zero empty), if_neg empty]
    have first := start.fill c.setup 8 (by omega : 0 < c.size)
    obtain ⟨td, td_pt, fills⟩ := tdFill_fills first.owned first.length first.set_up c.buffer
      c.transfer_len (by omega : 1 < c.size)
    have second := fills.ready first (by omega)
    obtain ⟨td', td_pt', fills'⟩ := tdFill_fills second.owned second.length second.set_up
      c.buffer 0 (by omega : 2 < c.size)
    refine ⟨fills'.ready second (by omega), ?_⟩
    intro k _ fit
    rw [part k] at fit ⊢
    exact ⟨td, fills'.holds_other second (by dsimp only; omega) (ne_of_lt Nat.one_lt_two)
      (fills.holds fit)⟩
  | false =>
    by_cases empty : c.transfer_len = 0
    · rw [if_pos empty, empty]
      refine ⟨start.fill 0 0 (size_pos c), ?_⟩
      intro k low
      rw [bulk_partCount control, empty] at low
      exact absurd low (Nat.not_lt_zero k)
    · rw [if_neg empty]
      have filled := fillBulk_holds control (size_of_bulk control) c.transfer_len 0 start
        (size_pos c) (by omega)
      have at_start : c.buffer + UInt32.ofNat (4096 * 0) = c.buffer := UInt32.add_zero c.buffer
      rw [at_start, mul_zero, Nat.sub_zero] at filled
      refine ⟨filled.ready, ?_⟩
      intro k low fit
      rw [bulk_partCount control] at low
      exact filled.after k (Nat.zero_le k) (by omega) fit

/-- Between calls only the dummies are in use. While a call waits, its TDs are too, and hold its
parts. -/
def Reach (h : Host) : Prop :=
  match h.phase with
  | .idle => Owned h.s 0 0
  | .waiting c _ => c.size < 47 ∧ Ready h.s c.size ∧ AllHold h.s c

lemma allocTds_urb {left i : Nat} {s : State} (accepted : (allocTds left i s).accepted = true) :
    (allocTds left i s).state.urb.length = s.urb.length ∧
      (allocTds left i s).state.urb.ed = s.urb.ed := by
  induction left generalizing i s with
  | zero => exact ⟨rfl, rfl⟩
  | succ left ih =>
    rw [allocTds] at accepted ⊢
    rcases took : takeTd s i with _ | next
    · rw [took] at accepted
      cases accepted
    rw [took] at accepted
    obtain ⟨length, ed⟩ := ih accepted
    obtain ⟨t, -, rfl⟩ := Option.map_eq_some_iff.mp took
    exact ⟨length, ed⟩

lemma epLink_sameUrb (s : State) {e : Fin 32} (set_up : (s.ed e).state ≠ .new) :
    SameUrb s (epLink s e) :=
  setEd_sameUrb s rfl (iff_of_false nofun set_up)

lemma SameUrb.ready {s s' : State} {n : Nat} (same : SameUrb s s') (ready : Ready s n) :
    Ready s' n where
  owned := same.owned ready.owned
  length := by
    rw [same.length]
    exact ready.length
  set_up := by
    rw [same.urb_ed]
    exact mt (same.fresh _).mp ready.set_up

lemma allocAndFill_reach (owned : Owned s 0 0) (small : c.size < 47)
    (set_up : (s.ed c.edIndex).state ≠ .new) :
    ((allocAndFill s c).accepted = true →
      Ready (allocAndFill s c).state c.size ∧ AllHold (allocAndFill s c).state c) ∧
    ((allocAndFill s c).accepted = false → Owned (allocAndFill s c).state 0 0) := by
  have same : SameOwners s (fillPriv s c) := ⟨fun _ => Iff.rfl, fun _ => rfl, rfl, fun _ => rfl⟩
  have enough_room : c.size + 0 < 65536 := by omega
  obtain ⟨taken, refused⟩ := allocTds_owned (same.owned owned) enough_room
  have keeps := allocTds_keeps c.size 0 (fillPriv s c)
  unfold allocAndFill
  by_cases enough : (allocTds c.size 0 (fillPriv s c)).accepted = true
  · obtain ⟨length, ed⟩ := allocTds_urb enough
    have length_eq : (UInt16.ofNat c.size).toNat = c.size := by
      rw [UInt16.toNat_ofNat']
      omega
    have ready : Ready (allocTds c.size 0 (fillPriv s c)).state c.size := by
      refine ⟨taken enough, ?_, ?_⟩
      · rw [length]
        exact length_eq
      · rw [ed, keeps.state]
        exact set_up
    rw [if_neg (by simp [enough])]
    split
    · refine ⟨nofun, fun _ => urbFreePriv_owned ?_⟩
      rw [ready.length]
      exact ready.owned
    have there : ((allocTds c.size 0 (fillPriv s c)).state.ed c.edIndex).state ≠ .new := by
      rw [keeps.state]
      exact set_up
    split
    · exact ⟨fun _ => tdSubmitJob_holds ((epLink_sameUrb _ there).ready ready), nofun⟩
    · exact ⟨fun _ => tdSubmitJob_holds ready, nofun⟩
  · rw [if_pos (by simpa using enough)]
    exact ⟨fun h => absurd h enough, refused⟩

lemma sohciSubmitJob_reach (owned : Owned s 0 0) :
    ((sohciSubmitJob s c).accepted = true → c.size < 47 ∧
      Ready (sohciSubmitJob s c).state c.size ∧ AllHold (sohciSubmitJob s c).state c) ∧
    ((sohciSubmitJob s c).accepted = false → Owned (sohciSubmitJob s c).state 0 0) := by
  have same : SameOwners s { s with urb_finished := false } :=
    ⟨fun _ => Iff.rfl, fun _ => rfl, rfl, fun _ => rfl⟩
  unfold sohciSubmitJob
  split
  · exact ⟨nofun, fun _ => owned⟩
  split
  · exact ⟨nofun, fun _ => owned⟩
  dsimp only
  split
  · exact ⟨nofun, fun _ => same.owned owned⟩
  rename_i s' added
  obtain ⟨owned', set_up⟩ := epAddEd_owned (same.owned owned) added
  split
  · exact ⟨nofun, fun _ => owned'⟩
  · rename_i small
    obtain ⟨accepted, refused⟩ := allocAndFill_reach owned' (not_le.mp small) set_up
    exact ⟨fun h => ⟨not_le.mp small, accepted h⟩, refused⟩

lemma submit_reach {h : Host} (idle : h.phase = .idle) (owned : Owned h.s 0 0) :
    Reach (submit h c) := by
  obtain ⟨accepted, refused⟩ := sohciSubmitJob_reach (c := c) owned
  unfold submit
  split
  · rw [Reach, idle]
    exact owned
  dsimp only
  split
  · rename_i good
    exact accepted good
  · rename_i bad
    exact refused (by simpa using bad)

lemma advance_cases (d : Td) (bytes : Nat) : d.advance bytes = 0 ∨
    (d.hwCBP.toNat ≤ (d.advance bytes).toNat ∧ (d.advance bytes).toNat ≤ d.hwBE.toNat) := by
  unfold Td.advance
  split
  · exact .inl rfl
  split
  · exact .inl rfl
  rename_i inside
  right
  have := d.hwBE.toNat_lt
  have sum : (d.hwCBP + UInt32.ofNat bytes).toNat = d.hwCBP.toNat + bytes := by
    rw [UInt32.toNat_add, UInt32.toNat_ofNat']
    omega
  rw [sum]
  omega

lemma retire_holds {p : Part} {t : Fin 64} (e : Fin 32) (cc : Fin 16) (bytes : Nat)
    (holds : Holds s p t) : Holds (retire s e cc bytes) p t := by
  rcases retire_cases s e cc bytes with same | ⟨u, -, -, -, -, popped⟩
  · rw [same]
    exact holds
  rw [popped]
  have at_t := popHead_td s e u t cc bytes
  by_cases here : t = u
  · subst here
    rw [if_pos rfl] at at_t
    refine ⟨holds.td, ?_, ?_, ?_⟩
    · rw [at_t]
      exact holds.data
    · rw [at_t]
      exact holds.be
    · rw [at_t]
      rcases advance_cases (s.td t) bytes with zero | ⟨low, high⟩
      · exact .inl zero
      rcases holds.cbp with zero | ⟨start, -⟩
      · refine .inl ?_
        rw [Td.advance, if_pos zero]
      · exact .inr ⟨start.trans low, high⟩
  · rw [if_neg here] at at_t
    exact ⟨holds.td, by rw [at_t, holds.data], by rw [at_t, holds.be], by
      rw [at_t]
      exact holds.cbp⟩

lemma hcAct_holds {p : Part} {t : Fin 64} (act : HcAct) (holds : Holds s p t) :
    Holds (hcAct s act) p t := by
  cases act with
  | retire e cc bytes => exact retire_holds e cc bytes holds
  | writeDone other =>
    rcases writeDone_cases s other with same | ⟨-, written⟩
    · rw [hcAct, same]
      exact holds
    · rw [hcAct, written]
      exact ⟨holds.td, holds.data, holds.be, holds.cbp⟩

lemma turn_reach {timeout : Nat} {stat : Int} (small : c.size < 47) (ready : Ready s c.size)
    (all : AllHold s c) : Reach (turn c timeout stat s) := by
  have freed (s : State) (ready : Ready s c.size) (stat : Int) : Reach (finish s c stat) := by
    refine urbFreePriv_owned ?_
    rw [ready.length]
    exact ready.owned
  unfold turn
  split
  · exact freed s ready 0x20
  split
  · exact freed s ready stat
  split
  · have same : SameUrb s { s with urb_finished := true } :=
      ⟨⟨fun _ => Iff.rfl, fun _ => rfl, rfl, fun _ => rfl⟩, rfl, rfl⟩
    exact freed _ (same.ready ready) 0x20
  · exact ⟨small, ready, all⟩

lemma step_reach {h h' : Host} {i : Input} (reach : Reach h) (taken : step h i = some h') :
    Reach h' := by
  rcases h with ⟨s, _ | ⟨c, timeout⟩, result⟩
  · cases i with
    | submit c =>
      cases taken
      exact submit_reach rfl reach
    | hc act =>
      cases taken
      exact (hcAct_sameUrb s act).owned reach
    | poll intrstatus => cases taken
  obtain ⟨small, ready, all⟩ := reach
  cases i with
  | submit c => cases taken
  | hc act =>
    cases taken
    refine ⟨small, (hcAct_sameUrb s act).ready ready, ?_⟩
    intro k low fit
    obtain ⟨t, holds⟩ := all k low fit
    exact ⟨t, hcAct_holds act holds⟩
  | poll intrstatus =>
    obtain ⟨⟨stat, s'⟩, served, rfl⟩ := Option.map_eq_some_iff.mp taken
    obtain ⟨same, td⟩ := hcInterrupt_sameUrb served
    refine turn_reach small (same.ready ready) ?_
    intro k low fit
    obtain ⟨t, holds⟩ := all k low fit
    exact ⟨t, by rw [same.urb]; exact holds.td, by rw [td]; exact holds.data,
      by rw [td]; exact holds.be, by rw [td]; exact holds.cbp⟩

lemma init_owned : Owned State.init 0 0 where
  tail _ set_up := absurd rfl set_up
  apart _ _ _ set_up := absurd rfl set_up
  present i _ high := absurd high (Nat.not_lt_zero i)
  distinct i _ _ _ high := absurd high (Nat.not_lt_zero i)
  inside i _ _ high := absurd high (Nat.not_lt_zero i)
  owner t := by
    refine iff_of_false Bool.false_ne_true ?_
    rintro (⟨e, set_up, -⟩ | ⟨i, -, high, -⟩)
    · exact set_up rfl
    · exact absurd high (Nat.not_lt_zero i)

lemma run_reach {inputs : List Input} {h : Host}
    (run : runFrom step Host.init inputs = some h) : Reach h := by
  have start : Reach Host.init := init_owned
  have every : StepsMeet step (fun _ _ => True) Host.init inputs :=
    stepsMeet_of_forall (fun _ _ => trivial) _ _
  exact invariant_of_arrival (fun _ _ _ reach _ taken => step_reach reach taken) start every run

end Ohci

/-!
## The length a call reports

`submit_common_msg` sets `act_len` to the length that was asked for. It is the length that was
transferred if and only if there was no short packet.
-/

namespace Ohci

open Runs

def bytesMoved (s : State) (p : Part) : Nat :=
  match s.urb.td p.index with
  | some t => if (s.td t).cc < 14 then (s.td t).moved.toNat else 0
  | none => 0

def transferred (s : State) (c : Call) : Nat :=
  ∑ k ∈ Finset.range c.partCount, bytesMoved s (c.part k)

def RetiredWhole (s : State) (p : Part) : Prop :=
  ∃ t, s.urb.td p.index = some t ∧ (s.td t).cc < 14 ∧ (s.td t).hwCBP = 0

/-- The buffer is not NULL, which for a TD is a buffer used to its end, and does not wrap. A call
without data may well be made with NULL; it is not one of these. -/
def Call.InMemory (c : Call) : Prop :=
  0 < c.buffer.toNat ∧ c.buffer.toNat + c.transfer_len ≤ 4294967296

lemma part_fits {c : Call} (memory : c.InMemory) {k : Nat} (low : k < c.partCount) :
    (c.part k).Fits := by
  obtain ⟨address, room⟩ := memory
  cases control : c.control with
  | true =>
    rw [Call.partCount, control, if_pos rfl] at low
    have some_bytes : c.transfer_len ≠ 0 := by
      intro empty
      rw [if_pos empty] at low
      exact absurd low (Nat.not_lt_zero k)
    rw [Call.part, control, if_pos rfl]
    exact ⟨address, pos_of_ne_zero some_bytes, room⟩
  | false =>
    rw [bulk_partCount control] at low
    rw [bulk_part control]
    have start : (c.buffer + UInt32.ofNat (4096 * k)).toNat = c.buffer.toNat + 4096 * k := by
      rw [UInt32.toNat_add, UInt32.toNat_ofNat']
      omega
    unfold Part.Fits
    dsimp only
    rw [start]
    omega

lemma part_sum (c : Call) :
    ∑ k ∈ Finset.range c.partCount, (c.part k).len = c.transfer_len := by
  cases control : c.control with
  | true =>
    rw [Call.partCount, control, if_pos rfl]
    by_cases empty : c.transfer_len = 0
    · rw [if_pos empty, empty]
      rfl
    · rw [if_neg empty, Finset.sum_range_one, Call.part, control, if_pos rfl]
  | false =>
    have part_len (k : Nat) : (c.part k).len = min 4096 (c.transfer_len - 4096 * k) := by
      rw [bulk_part control]
    have upto (n : Nat) : ∑ k ∈ Finset.range n, (c.part k).len = min c.transfer_len (4096 * n) := by
      induction n with
      | zero => simp
      | succ n ih =>
        rw [Finset.sum_range_succ, ih, part_len]
        omega
    rw [upto, bulk_partCount control]
    omega

lemma bytesMoved_spec {s : State} {p : Part} {t : Fin 64} (holds : Holds s p t) (fit : p.Fits) :
    bytesMoved s p ≤ p.len ∧ (bytesMoved s p = p.len ↔ RetiredWhole s p) := by
  have retired : RetiredWhole s p ↔ (s.td t).cc < 14 ∧ (s.td t).hwCBP = 0 := by
    constructor
    · rintro ⟨u, at_p, done⟩
      obtain rfl : t = u := Option.some.inj (holds.td.symm.trans at_p)
      exact done
    · exact fun done => ⟨t, holds.td, done⟩
  have last := fit.last
  obtain ⟨low, some_bytes, high⟩ := fit
  have be : (s.td t).hwBE.toNat = p.addr.toNat + p.len - 1 := by rw [holds.be, last]
  have be_ne : (s.td t).hwBE ≠ 0 := by
    intro zero
    rw [zero, UInt32.toNat_zero] at be
    omega
  rw [retired, bytesMoved, holds.td]
  dsimp only
  by_cases done : (s.td t).cc < 14
  · rw [if_pos done, Td.moved, if_neg be_ne]
    by_cases whole : (s.td t).hwCBP = 0
    · have moved : ((s.td t).hwBE - (s.td t).data + 1).toNat = p.len := by
        rw [holds.data, UInt32.toNat_add, UInt32.toNat_sub, UInt32.toNat_one, be]
        omega
      rw [if_pos whole, moved]
      exact ⟨le_rfl, iff_of_true rfl ⟨done, whole⟩⟩
    · have range := holds.cbp.resolve_left whole
      have moved : ((s.td t).hwCBP - (s.td t).data).toNat =
          (s.td t).hwCBP.toNat - p.addr.toNat := by
        rw [holds.data, UInt32.toNat_sub]
        omega
      rw [if_neg whole, moved]
      refine ⟨by omega, iff_of_false (by omega) (fun h => whole h.2)⟩
  · rw [if_neg done]
    exact ⟨Nat.zero_le _, iff_of_false (by omega) (fun h => done h.1)⟩

lemma turn_ended {c : Call} {timeout : Nat} {stat status : Int} {s : State} {act_len : Nat}
    (ended : (turn c timeout stat s).result = some (.ended status act_len)) :
    act_len = c.transfer_len := by
  unfold turn at ended
  split at ended
  · cases ended
    rfl
  split at ended
  · cases ended
    rfl
  split at ended
  · cases ended
    rfl
  · cases ended

/-- However the controller retires the TDs of a call: when the call ends with status 0, the
length that the callers report is the number of bytes transferred if and only if every data TD
was retired with its buffer used to the end. -/
theorem act_len_iff {inputs : List Input} {h h' : Host} {c : Call} {timeout : Nat}
    {intrstatus : UInt32} {act_len : Nat} (memory : c.InMemory)
    (run : runFrom step Host.init inputs = some h) (waits : h.phase = .waiting c timeout)
    (taken : step h (.poll intrstatus) = some h')
    (ended : h'.result = some (.ended 0 act_len)) :
    usbBulkMsg 0 act_len = (0, act_len) ∧ usbControlMsg 0 act_len = act_len ∧
      (act_len = transferred h.s c ↔ ∀ k < c.partCount, RetiredWhole h.s (c.part k)) := by
  refine ⟨rfl, rfl, ?_⟩
  have reach := run_reach run
  rw [Reach, waits] at reach
  obtain ⟨-, -, all⟩ := reach
  have spec (k : Nat) (low : k ∈ Finset.range c.partCount) :
      bytesMoved h.s (c.part k) ≤ (c.part k).len ∧
        (bytesMoved h.s (c.part k) = (c.part k).len ↔ RetiredWhole h.s (c.part k)) := by
    have fit := part_fits memory (Finset.mem_range.mp low)
    obtain ⟨t, holds⟩ := all k (Finset.mem_range.mp low) fit
    exact bytesMoved_spec holds fit
  have length : act_len = c.transfer_len := by
    unfold step at taken
    rw [waits] at taken
    obtain ⟨⟨stat, s'⟩, -, rfl⟩ := Option.map_eq_some_iff.mp taken
    exact turn_ended ended
  rw [length, transferred, ← part_sum c, eq_comm,
    Finset.sum_eq_sum_iff_of_le fun k low => (spec k low).1]
  constructor
  · intro whole k low
    exact (spec k (Finset.mem_range.mpr low)).2.mp (whole k (Finset.mem_range.mpr low))
  · intro whole k low
    exact (spec k low).2.mpr (whole k (Finset.mem_range.mp low))

def readCall : Call := ⟨1, false, false, 64, 0x30000000, 512, 0⟩

/-- The controller retires the TD of `readCall` after so many bytes. -/
def retireAfter (bytes : Nat) : List Input :=
  [.submit readCall, .hc (.retire 2 0 bytes), .hc (.writeDone false)]

theorem whole_read_reported : ∃ h h', runFrom step Host.init (retireAfter 512) = some h ∧
    step h (.poll 0) = some h' ∧ h'.result = some (.ended 0 512) ∧
      512 = transferred h.s readCall := by
  refine ⟨_, _, rfl, rfl, rfl, ?_⟩
  refine (@act_len_iff (retireAfter 512) _ _ readCall 5000 0 512 ⟨by decide, by decide⟩ rfl rfl
    rfl rfl).2.2.mpr ?_
  intro k low
  obtain rfl : k = 0 := Nat.lt_one_iff.mp low
  exact ⟨_, rfl, Nat.zero_lt_succ 13, by decide +kernel⟩

/-- Of 512 bytes the device sends 31, and 512 are reported. -/
theorem short_read_reported : ∃ h h', runFrom step Host.init (retireAfter 31) = some h ∧
    step h (.poll 0) = some h' ∧ h'.result = some (.ended 0 512) ∧
      transferred h.s readCall = 31 := by
  exact ⟨_, _, rfl, rfl, rfl, rfl⟩

end Ohci
