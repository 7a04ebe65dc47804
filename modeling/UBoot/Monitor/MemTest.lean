import Mathlib.Data.Nat.Bitwise
import Mathlib.Logic.Function.Basic

/-!
# The quick memory test (common/cmd_mem.c)

`do_mem_mtest`, without `CONFIG_SYS_ALT_MEMTEST`, writes a pattern that changes from word to word,
reads it back, and goes on with another pattern. A fault is a bit that always reads the same.
-/

namespace MemTest

abbrev Words := UInt32 → UInt32

structure Fault where
  addr : UInt32
  bit : Nat
  value : Bool
  bit_lt : bit < 32

def Fault.force (f : Fault) (w : UInt32) : UInt32 :=
  let mask := UInt32.ofNat (2 ^ f.bit)
  if f.value then w ||| mask else w &&& ~~~mask

def readWord (fault : Option Fault) (mem : Words) (addr : UInt32) : UInt32 :=
  match fault with
  | none => mem addr
  | some f => if addr = f.addr then f.force (mem addr) else mem addr

structure Report where
  addr : UInt32
  found : UInt32
  expected : UInt32
  deriving DecidableEq

/-- The variables, what has been printed, and how often `ctrlc` has been called. -/
structure Test where
  iterations : Int
  pattern : UInt32
  incr : UInt32
  errs : UInt32
  mem : Words
  reports : List Report
  polls : Nat

inductive Outcome where
  | running (t : Test)
  | returned (code : Nat) (t : Test)

def Outcome.test : Outcome → Test
  | .running t => t
  | .returned _ t => t

def words (start stop : UInt32) : Nat := (stop - start).toNat / 4

def writeLoop (stop incr : UInt32) : (left : Nat) → (addr val : UInt32) → Words → Words
  | 0, _, _, mem => mem
  | left + 1, addr, val, mem =>
    if addr < stop then
      writeLoop stop incr left (addr + 4) (val + incr) (Function.update mem addr val)
    else mem

def Test.report (t : Test) (addr found expected : UInt32) : Test :=
  { t with
    reports := t.reports ++ [⟨addr, found, expected⟩]
    errs := t.errs + 1
    polls := t.polls + 1 }

def readLoop (ctrlc : Nat → Bool) (fault : Option Fault) (stop : UInt32) :
    (left : Nat) → (addr val : UInt32) → Test → Outcome
  | 0, _, _, t => .running t
  | left + 1, addr, val, t =>
    if addr < stop then
      let readback := readWord fault t.mem addr
      if readback ≠ val then
        if ctrlc t.polls then .returned 1 (t.report addr readback val)
        else
          readLoop ctrlc fault stop left (addr + 4) (val + t.incr) (t.report addr readback val)
      else readLoop ctrlc fault stop left (addr + 4) (val + t.incr) t
    else .running t

def flip (p : UInt32 × UInt32) : UInt32 × UInt32 :=
  (if p.1 &&& 0x80000000 ≠ 0 then -p.1 else ~~~p.1, -p.2)

def Test.flipped (t : Test) : Test :=
  { t with
    pattern := (flip (t.pattern, t.incr)).1
    incr := (flip (t.pattern, t.incr)).2 }

def iteration (ctrlc : Nat → Bool) (fault : Option Fault) (start stop : UInt32)
    (iterationLimit : Int) (t : Test) : Outcome :=
  let polled := { t with polls := t.polls + 1 }
  if ctrlc t.polls then .returned 1 polled
  else if iterationLimit ≠ 0 ∧ t.iterations > iterationLimit then
    .returned (if t.errs ≠ 0 then 1 else 0) polled
  else
    let written := { polled with
      iterations := t.iterations + 1
      mem := writeLoop stop t.incr (words start stop) start t.pattern t.mem }
    match readLoop ctrlc fault stop (words start stop) start t.pattern written with
    | .returned code t => .returned code t
    | .running t => .running t.flipped

/-- The test of a region, up to `n` iterations. -/
def mtest (ctrlc : Nat → Bool) (fault : Option Fault) (start stop pattern : UInt32)
    (iterationLimit : Int) (mem : Words) : (n : Nat) → Outcome
  | 0 => .running ⟨1, pattern, 1, 0, mem, [], 0⟩
  | n + 1 =>
    match mtest ctrlc fault start stop pattern iterationLimit mem n with
    | .running t => iteration ctrlc fault start stop iterationLimit t
    | .returned code t => .returned code t

/-! ## What is promised -/

structure Region (start stop : UInt32) : Prop where
  start_aligned : start.toNat % 4 = 0
  stop_aligned : stop.toNat % 4 = 0
  nonempty : start < stop

structure Fault.Inside (f : Fault) (start stop : UInt32) : Prop where
  low : start ≤ f.addr
  high : f.addr < stop
  aligned : f.addr.toNat % 4 = 0

/-- Three iterations are not made without a report. `iterations` counts from 1. -/
def Detects (start stop pattern : UInt32) (f : Fault) : Prop :=
  ∀ ctrlc limit mem n, (mtest ctrlc (some f) start stop pattern limit mem n).test.iterations ≥ 4 →
    (mtest ctrlc (some f) start stop pattern limit mem n).test.reports ≠ []

def Quiet (start stop pattern : UInt32) : Prop :=
  ∀ ctrlc limit mem n, (mtest ctrlc none start stop pattern limit mem n).test.reports = []

/-- The pattern is 0x80000000, and with the number of the word added to it it has no bits below the
stuck one, and there the value it is stuck at. -/
def Blind (start pattern : UInt32) (f : Fault) : Prop :=
  let w := pattern + (f.addr - start) / 4
  pattern = 0x80000000 ∧ (∀ b < f.bit, w.toNat.testBit b = false) ∧
    w.toNat.testBit f.bit = f.value

/-! ## One iteration -/

def wordAddr (start : UInt32) (j : Nat) : UInt32 := start + 4 * UInt32.ofNat j

lemma wordAddr_succ (start : UInt32) (j : Nat) :
    wordAddr start (j + 1) = wordAddr (start + 4) j := by
  have step : (4 : UInt32) * UInt32.ofNat (j + 1) = 4 + 4 * UInt32.ofNat j := by
    rw [UInt32.ofNat_add, UInt32.mul_add, UInt32.add_comm]
    rfl
  rw [wordAddr, wordAddr, step, UInt32.add_assoc]

lemma wordAddr_zero (start : UInt32) : wordAddr start 0 = start := UInt32.add_zero start

lemma wordAddr_toNat {start : UInt32} {j : Nat} (fits : start.toNat + 4 * j < 4294967296) :
    (wordAddr start j).toNat = start.toNat + 4 * j := by
  rw [wordAddr, UInt32.toNat_add, UInt32.toNat_mul, UInt32.toNat_ofNat']
  have four : (4 : UInt32).toNat = 4 := rfl
  rw [four]
  omega

def valueAt (val incr : UInt32) (j : Nat) : UInt32 := val + UInt32.ofNat j * incr

lemma valueAt_zero (val incr : UInt32) : valueAt val incr 0 = val := by
  have none : UInt32.ofNat 0 * incr = 0 := UInt32.zero_mul
  rw [valueAt, none, UInt32.add_zero]

lemma valueAt_succ (val incr : UInt32) (j : Nat) :
    valueAt val incr (j + 1) = valueAt (val + incr) incr j := by
  have step : UInt32.ofNat (j + 1) * incr = incr + UInt32.ofNat j * incr := by
    rw [UInt32.ofNat_add, UInt32.add_mul, UInt32.add_comm]
    exact congrArg (· + UInt32.ofNat j * incr) (UInt32.one_mul incr)
  rw [valueAt, valueAt, step, UInt32.add_assoc]

section
variable {stop addr : UInt32} {left : Nat}

lemma next_addr (ends : addr.toNat + 4 * (left + 1) = stop.toNat) :
    addr < stop ∧ (addr + 4).toNat = addr.toNat + 4 := by
  have small := stop.toNat_lt
  have four : (4 : UInt32).toNat = 4 := rfl
  constructor
  · rw [UInt32.lt_iff_toNat_lt]
    omega
  · rw [UInt32.toNat_add, four]
    omega

lemma writeLoop_spec (incr : UInt32) (ends : addr.toNat + 4 * left = stop.toNat) (val : UInt32)
    (mem : Words) :
    (∀ j < left, writeLoop stop incr left addr val mem (wordAddr addr j) = valueAt val incr j) ∧
      ∀ a : UInt32, a.toNat < addr.toNat → writeLoop stop incr left addr val mem a = mem a := by
  induction left generalizing addr val mem with
  | zero => exact ⟨fun j none => absurd none j.not_lt_zero, fun _ _ => rfl⟩
  | succ left ih =>
    obtain ⟨more, next⟩ := next_addr ends
    obtain ⟨written, below⟩ := @ih (addr + 4) (by omega) (val + incr)
      (Function.update mem addr val)
    rw [writeLoop, if_pos more]
    constructor
    · intro j inside
      cases j with
      | zero =>
        rw [wordAddr_zero, below addr (by omega), Function.update_self, valueAt_zero]
      | succ j => rw [wordAddr_succ, valueAt_succ, written j (by omega)]
    · intro a less
      rw [below a (by omega), Function.update_of_ne]
      rintro rfl
      exact absurd less (lt_irrefl _)

def Good (fault : Option Fault) (mem : Words) (addr val incr : UInt32) (left : Nat) : Prop :=
  ∀ j < left, readWord fault mem (wordAddr addr j) = valueAt val incr j

lemma good_succ (fault : Option Fault) (mem : Words) (addr val incr : UInt32) (left : Nat) :
    Good fault mem addr val incr (left + 1) ↔
      readWord fault mem addr = val ∧ Good fault mem (addr + 4) (val + incr) incr left := by
  constructor
  · intro good
    have first := good 0 (Nat.succ_pos left)
    rw [wordAddr_zero, valueAt_zero] at first
    refine ⟨first, fun j inside => ?_⟩
    rw [← wordAddr_succ, ← valueAt_succ]
    exact good (j + 1) (Nat.succ_lt_succ inside)
  · rintro ⟨first, rest⟩ j inside
    cases j with
    | zero => rw [wordAddr_zero, valueAt_zero, first]
    | succ j => rw [wordAddr_succ, valueAt_succ, rest j (Nat.lt_of_succ_lt_succ inside)]

structure Reads (good : Prop) (t r : Test) : Prop where
  iterations : r.iterations = t.iterations
  pattern : r.pattern = t.pattern
  incr : r.incr = t.incr
  reports : r.reports = [] ↔ t.reports = [] ∧ good

lemma readLoop_spec (ctrlc : Nat → Bool) (fault : Option Fault)
    (ends : addr.toNat + 4 * left = stop.toNat) (val : UInt32) (t : Test) :
    Reads (Good fault t.mem addr val t.incr left) t
      (readLoop ctrlc fault stop left addr val t).test := by
  induction left generalizing addr val t with
  | zero => exact ⟨rfl, rfl, rfl,
      (and_iff_left fun j none => absurd none j.not_lt_zero).symm⟩
  | succ left ih =>
    obtain ⟨more, next⟩ := next_addr ends
    have rest := @ih (addr + 4) (by omega) (val + t.incr)
    rw [readLoop, if_pos more, good_succ]
    by_cases same : readWord fault t.mem addr = val
    · rw [if_neg (not_not.mpr same), and_iff_right same]
      exact rest t
    have bad : ¬ (t.reports = [] ∧ readWord fault t.mem addr = val ∧
        Good fault t.mem (addr + 4) (val + t.incr) t.incr left) :=
      fun all => same all.2.1
    have told (found : UInt32) : (t.report addr found val).reports ≠ [] :=
      List.append_ne_nil_of_right_ne_nil _ (List.cons_ne_nil _ [])
    rw [if_pos same]
    split
    case isTrue => exact ⟨rfl, rfl, rfl, iff_of_false (told _) bad⟩
    case isFalse =>
      have goes_on := rest (t.report addr (readWord fault t.mem addr) val)
      exact ⟨goes_on.iterations, goes_on.pattern, goes_on.incr,
        iff_of_false (fun none => told _ (goes_on.reports.mp none).1) bad⟩

lemma readLoop_runs (fault : Option Fault) (val : UInt32) (t : Test) :
    ∃ r, readLoop (fun _ => false) fault stop left addr val t = .running r := by
  induction left generalizing addr val t with
  | zero => exact ⟨t, rfl⟩
  | succ left ih =>
    rw [readLoop]
    dsimp only
    split
    · split
      · exact ih _ _
      · exact ih _ _
    · exact ⟨t, rfl⟩

end

/-! ## The run -/

def orbit (pattern : UInt32) : Nat → UInt32 × UInt32
  | 0 => (pattern, 1)
  | k + 1 => flip (orbit pattern k)

def QuietAt (fault : Option Fault) (start stop pattern : UInt32) (k : Nat) : Prop :=
  ∀ j < words start stop,
    let w := valueAt (orbit pattern k).1 (orbit pattern k).2 j
    readWord fault (fun _ => w) (wordAddr start j) = w

/-- `k` iterations have been made, and nothing is reported if all were quiet. -/
structure Made (fault : Option Fault) (start stop pattern : UInt32) (k : Nat) (t : Test) :
    Prop where
  iterations : t.iterations = k + 1
  reports : t.reports = [] ↔ ∀ m < k, QuietAt fault start stop pattern m

lemma readWord_at (fault : Option Fault) {mem : Words} {addr w : UInt32} (here : mem addr = w) :
    readWord fault mem addr = readWord fault (fun _ => w) addr := by
  rw [← here]
  rfl

lemma Region.ends {start stop : UInt32} (region : Region start stop) :
    start.toNat + 4 * words start stop = stop.toNat := by
  have less := UInt32.lt_iff_toNat_lt.mp region.nonempty
  have := region.start_aligned
  have := region.stop_aligned
  rw [words, UInt32.toNat_sub_of_le _ _ (UInt32.le_of_lt region.nonempty)]
  omega

section
variable (fault : Option Fault) {start stop : UInt32} (region : Region start stop)
variable (pattern : UInt32)
include region

lemma iteration_made (ctrlc : Nat → Bool) (limit : Int) {k : Nat} {t : Test}
    (made : Made fault start stop pattern k t)
    (here : (t.pattern, t.incr) = orbit pattern k) :
    (∃ k', Made fault start stop pattern k' (iteration ctrlc fault start stop limit t).test) ∧
      ∀ r, iteration ctrlc fault start stop limit t = .running r →
        Made fault start stop pattern (k + 1) r ∧ (r.pattern, r.incr) = orbit pattern (k + 1) := by
  obtain ⟨iterations, reports⟩ := made
  unfold iteration
  dsimp only
  split
  case isTrue => exact ⟨⟨k, iterations, reports⟩, nofun⟩
  case isFalse =>
    split
    case isTrue => exact ⟨⟨k, iterations, reports⟩, nofun⟩
    case isFalse =>
      generalize written_eq : ({ t with
        polls := t.polls + 1
        iterations := t.iterations + 1
        mem := writeLoop stop t.incr (words start stop) start t.pattern t.mem } : Test) = written
      have read := readLoop_spec ctrlc fault region.ends t.pattern written
      have good_iff : Good fault written.mem start t.pattern written.incr (words start stop) ↔
          QuietAt fault start stop pattern k := by
        obtain ⟨stored, -⟩ := writeLoop_spec t.incr region.ends t.pattern t.mem
        rw [← written_eq]
        unfold Good QuietAt
        rw [← here]
        refine forall_congr' fun j => forall_congr' fun inside => ?_
        rw [readWord_at fault (stored j inside)]
      have made' : Made fault start stop pattern (k + 1)
          (readLoop ctrlc fault stop (words start stop) start t.pattern written).test := by
        constructor
        · rw [read.iterations, ← written_eq]
          dsimp only
          omega
        · rw [read.reports, good_iff, Nat.forall_lt_succ_right, ← reports, ← written_eq]
      generalize readLoop ctrlc fault stop (words start stop) start t.pattern written = out
        at read made'
      cases out with
      | returned code r => exact ⟨⟨k + 1, made'⟩, nofun⟩
      | running r =>
        have made_flipped : Made fault start stop pattern (k + 1) r.flipped :=
          ⟨made'.iterations, made'.reports⟩
        refine ⟨⟨k + 1, made_flipped⟩, fun r' same => ?_⟩
        cases same
        refine ⟨made_flipped, ?_⟩
        have same : (r.pattern, r.incr) = (t.pattern, t.incr) := by
          have pattern_eq := read.pattern
          have incr_eq := read.incr
          rw [← written_eq] at pattern_eq incr_eq
          exact Prod.ext pattern_eq incr_eq
        rw [orbit, ← here, ← same]
        rfl

lemma mtest_made (ctrlc : Nat → Bool) (limit : Int) (mem : Words) (n : Nat) :
    (∃ k, Made fault start stop pattern k
      (mtest ctrlc fault start stop pattern limit mem n).test) ∧
      ∀ r, mtest ctrlc fault start stop pattern limit mem n = .running r →
        Made fault start stop pattern n r ∧ (r.pattern, r.incr) = orbit pattern n := by
  induction n with
  | zero =>
    have made : Made fault start stop pattern 0 ⟨1, pattern, 1, 0, mem, [], 0⟩ :=
      ⟨rfl, iff_of_true rfl fun m none => absurd none m.not_lt_zero⟩
    refine ⟨⟨0, made⟩, fun r same => ?_⟩
    cases same
    exact ⟨made, rfl⟩
  | succ n ih =>
    obtain ⟨some_made, goes_on⟩ := ih
    rw [mtest]
    cases run : mtest ctrlc fault start stop pattern limit mem n with
    | returned code t =>
      rw [run] at some_made
      exact ⟨some_made, nofun⟩
    | running t =>
      obtain ⟨made, here⟩ := goes_on t run
      exact iteration_made fault region pattern ctrlc limit made here

omit region in
/-- Without Ctrl-C and a limit the test goes on. -/
lemma mtest_runs (mem : Words) (n : Nat) :
    ∃ r, mtest (fun _ => false) fault start stop pattern 0 mem n = .running r := by
  induction n with
  | zero => exact ⟨_, rfl⟩
  | succ n ih =>
    obtain ⟨t, run⟩ := ih
    rw [mtest, run]
    dsimp only
    rw [iteration]
    simp only [Bool.false_eq_true, if_false, ne_eq, not_true_eq_false, false_and]
    obtain ⟨r, read⟩ := @readLoop_runs stop start (words start stop) fault t.pattern { t with
        polls := t.polls + 1
        iterations := t.iterations + 1
        mem := writeLoop stop t.incr (words start stop) start t.pattern t.mem }
    rw [read]
    exact ⟨r.flipped, rfl⟩

omit fault in
/-- So a fault is not seen if and only if three iterations are quiet. -/
lemma detects_iff_quiet (f : Fault) : Detects start stop pattern f ↔
    ¬ ∀ m < 3, QuietAt (some f) start stop pattern m := by
  constructor
  · intro detects quiet
    obtain ⟨r, run⟩ := @mtest_runs (some f) start stop pattern (fun _ => 0) 3
    obtain ⟨made, -⟩ := (mtest_made (some f) region pattern _ _ _ 3).2 r run
    have told := detects (fun _ => false) 0 (fun _ => 0) 3
    rw [run] at told
    exact told (by rw [Outcome.test, made.iterations]; decide) (made.reports.mpr quiet)
  · intro loud ctrlc limit mem n three none
    obtain ⟨⟨k, made⟩, -⟩ := mtest_made (some f) region pattern ctrlc limit mem n
    have quiet := made.reports.mp none
    rw [made.iterations] at three
    exact loud fun m less => quiet m (by omega)

omit fault in
/-- Without a fault every iteration is quiet. -/
lemma quiet_without_fault : Quiet start stop pattern := by
  intro ctrlc limit mem n
  obtain ⟨⟨k, made⟩, -⟩ := mtest_made none region pattern ctrlc limit mem n
  exact made.reports.mpr fun m _ j _ => rfl

end

/-! ## The stuck bit -/

lemma force_eq_iff (f : Fault) (w : UInt32) : f.force w = w ↔ w.toNat.testBit f.bit = f.value := by
  have small := f.bit_lt
  have mask (i : Nat) (inside : i < 32) :
      (UInt32.ofNat (2 ^ f.bit)).toBitVec[i] = decide (f.bit = i) := by
    rw [BitVec.getElem_eq_testBit_toNat, UInt32.toNat_toBitVec, UInt32.toNat_ofNat',
      Nat.testBit_mod_two_pow, Nat.testBit_two_pow, decide_eq_true inside, Bool.true_and]
  have forced : (f.force w).toBitVec[f.bit] = f.value := by
    unfold Fault.force
    cases f.value <;> simp [mask]
  have other (i : Nat) (inside : i < 32) (away : f.bit ≠ i) :
      (f.force w).toBitVec[i] = w.toBitVec[i] := by
    unfold Fault.force
    cases f.value <;> simp [mask, away]
  have at_bit : w.toBitVec[f.bit] = w.toNat.testBit f.bit := rfl
  constructor
  · intro same
    rw [← forced, ← at_bit, same]
  · intro same
    apply UInt32.toBitVec_inj.mp
    apply BitVec.eq_of_getElem_eq
    intro i inside
    by_cases here : f.bit = i
    · subst here
      rw [forced, at_bit, same]
    · exact other i inside here

lemma testBit_not (w : UInt32) {b : Nat} (small : b < 32) :
    (~~~w).toNat.testBit b = !w.toNat.testBit b := by
  change (~~~w.toBitVec).getLsbD b = !w.toBitVec.getLsbD b
  rw [BitVec.getLsbD_not, decide_eq_true small, Bool.true_and]

lemma testBit_neg_eq (w : UInt32) {b : Nat} (small : b < 32) :
    (-w).toNat.testBit b = w.toNat.testBit b ↔ ∀ i < b, w.toNat.testBit i = false := by
  have bits : (-w).toNat.testBit b =
      (w.toNat.testBit b ^^ decide (b < 32) && decide (∃ i < b, w.toNat.testBit i = true)) :=
    BitVec.getLsbD_neg
  rw [bits, decide_eq_true small, Bool.true_and]
  by_cases below : ∃ i < b, w.toNat.testBit i = true
  · obtain ⟨i, less, set⟩ := below
    rw [decide_eq_true ⟨i, less, set⟩, Bool.xor_true]
    refine iff_of_false (by simp) fun none => ?_
    rw [none i less] at set
    cases set
  · rw [decide_eq_false below, Bool.xor_false]
    refine iff_of_true rfl fun i less => Bool.eq_false_iff.mpr fun set => below ⟨i, less, set⟩

/-! ## The three values of a word -/

lemma valueAt_neg (val incr : UInt32) (j : Nat) :
    valueAt (-val) (-incr) j = -valueAt val incr j := by
  rw [valueAt, valueAt, UInt32.mul_neg, UInt32.neg_add, UInt32.sub_eq_add_neg]

lemma valueAt_not (val incr : UInt32) (j : Nat) :
    valueAt (~~~val) (-incr) j = ~~~valueAt val incr j := by
  have not_eq (w : UInt32) : ~~~w = -w - 1 := UInt32.not_eq_neg_sub w
  rw [not_eq, not_eq, ← valueAt_neg, valueAt, valueAt, UInt32.sub_eq_add_neg,
    UInt32.sub_eq_add_neg, UInt32.add_assoc, UInt32.add_assoc, UInt32.add_comm (-1)]

def valueIn (pattern : UInt32) (j k : Nat) : UInt32 :=
  valueAt (orbit pattern k).1 (orbit pattern k).2 j

lemma valueIn_zero (pattern : UInt32) (j : Nat) :
    valueIn pattern j 0 = pattern + UInt32.ofNat j := by
  rw [valueIn, orbit, valueAt, UInt32.mul_one]

lemma valueIn_succ (pattern : UInt32) (j k : Nat) : valueIn pattern j (k + 1) =
    if (orbit pattern k).1 &&& 0x80000000 ≠ 0 then -valueIn pattern j k
    else ~~~valueIn pattern j k := by
  unfold valueIn
  rw [orbit, flip]
  split
  · exact valueAt_neg _ _ j
  · exact valueAt_not _ _ j

lemma highest_iff (w : UInt32) : w &&& 0x80000000 ≠ 0 ↔ 2147483648 ≤ w.toNat := by
  have small := w.toNat_lt
  have power : (0x80000000 : UInt32).toNat = 2 ^ 31 := rfl
  rw [ne_eq, ← UInt32.toNat_inj, UInt32.toNat_and, power, Nat.and_two_pow,
    Nat.testBit_eq_decide_div_mod_eq, UInt32.toNat_zero]
  by_cases high : 2147483648 ≤ w.toNat
  · rw [decide_eq_true (by omega)]
    exact iff_of_true (by decide) high
  · rw [decide_eq_false (by omega)]
    exact iff_of_false (by decide) high

lemma inverted {pattern : UInt32} (other : pattern ≠ 0x80000000) (j : Nat) :
    ∃ k < 2, valueIn pattern j (k + 1) = ~~~valueIn pattern j k := by
  by_cases high : pattern &&& 0x80000000 ≠ 0
  · have low : ¬ (-pattern) &&& 0x80000000 ≠ 0 := by
      have above := (highest_iff pattern).mp high
      have apart : pattern.toNat ≠ 2147483648 := fun same => other (UInt32.toNat_inj.mp same)
      rw [highest_iff, UInt32.toNat_neg]
      unfold UInt32.size
      omega
    have second : (orbit pattern 1).1 = -pattern := if_pos high
    refine ⟨1, by omega, ?_⟩
    rw [valueIn_succ, second, if_neg low]
  · exact ⟨0, by omega, (valueIn_succ pattern j 0).trans (if_neg high)⟩

lemma orbit_own_negative (k : Nat) : (orbit 0x80000000 k).1 = 0x80000000 := by
  induction k with
  | zero => rfl
  | succ k ih =>
    rw [orbit, flip, ih]
    rfl

lemma valueIn_own_negative (j k : Nat) :
    valueIn 0x80000000 j (k + 1) = -valueIn 0x80000000 j k := by
  rw [valueIn_succ, orbit_own_negative]
  exact if_pos (by decide)

/-! ## When it holds -/

section
variable {start stop : UInt32} (region : Region start stop) {f : Fault}
variable (inside : f.Inside start stop)
include region inside

lemma fault_word : ∃ j < words start stop, f.addr = wordAddr start j ∧
    (f.addr - start) / 4 = UInt32.ofNat j := by
  have low := UInt32.le_iff_toNat_le.mp inside.low
  have high := UInt32.lt_iff_toNat_lt.mp inside.high
  have ends := region.ends
  have aligned := region.start_aligned
  have aligned' := inside.aligned
  have small := stop.toNat_lt
  have offset := UInt32.toNat_sub_of_le _ _ inside.low
  refine ⟨(f.addr.toNat - start.toNat) / 4, by omega, ?_, ?_⟩
  · apply UInt32.toNat_inj.mp
    rw [wordAddr_toNat (by omega)]
    omega
  · apply UInt32.toNat_inj.mp
    have four : (4 : UInt32).toNat = 4 := rfl
    rw [UInt32.toNat_div, offset, four, UInt32.toNat_ofNat']
    omega

omit inside in
/-- An iteration is quiet if and only if the word has the value of the stuck bit there. -/
lemma quietAt_iff {j : Nat} (word : j < words start stop) (here : f.addr = wordAddr start j)
    (pattern : UInt32) (k : Nat) : QuietAt (some f) start stop pattern k ↔
      (valueIn pattern j k).toNat.testBit f.bit = f.value := by
  have ends := region.ends
  have small := stop.toNat_lt
  rw [← force_eq_iff]
  constructor
  · intro quiet
    exact (if_pos here.symm).symm.trans (quiet j word)
  · intro same i less
    dsimp only
    by_cases hit : wordAddr start i = f.addr
    · have apart : i = j := by
        have := congrArg UInt32.toNat (hit.trans here)
        rw [wordAddr_toNat (by omega), wordAddr_toNat (by omega)] at this
        omega
      subst apart
      exact (if_pos hit).trans same
    · exact if_neg hit

lemma detects_iff_not_blind (pattern : UInt32) :
    Detects start stop pattern f ↔ ¬ Blind start pattern f := by
  obtain ⟨j, word, here, number⟩ := fault_word region inside
  have bit := f.bit_lt
  rw [detects_iff_quiet region, not_iff_not]
  simp only [quietAt_iff region word here]
  unfold Blind
  rw [number, ← valueIn_zero]
  constructor
  · intro same
    have own : pattern = 0x80000000 := by
      by_contra other
      obtain ⟨k, few, inverse⟩ := inverted other j
      have now := same k (by omega)
      have next := same (k + 1) (by omega)
      rw [inverse, testBit_not _ bit, now] at next
      cases stuck : f.value <;> rw [stuck] at next <;> cases next
    subst own
    have first := same 0 (by decide)
    have second := same 1 (by decide)
    rw [valueIn_own_negative] at second
    exact ⟨rfl, (testBit_neg_eq _ bit).mp (second.trans first.symm), first⟩
  · rintro ⟨rfl, below, value⟩
    have second : (valueIn 0x80000000 j 1).toNat.testBit f.bit = f.value := by
      rw [valueIn_own_negative, (testBit_neg_eq _ bit).mpr below, value]
    have third : (valueIn 0x80000000 j 2).toNat.testBit f.bit = f.value := by
      rw [valueIn_own_negative, valueIn_own_negative, UInt32.neg_neg, value]
    intro k few
    obtain rfl | rfl | rfl : k = 0 ∨ k = 1 ∨ k = 2 := by omega
    · exact value
    · exact second
    · exact third

theorem mtest_detects_iff (pattern : UInt32) : Quiet start stop pattern ∧
    (Detects start stop pattern f ↔ ¬ Blind start pattern f) :=
  ⟨quiet_without_fault region pattern, detects_iff_not_blind region inside pattern⟩

end

def highStuck : Fault := ⟨0x30000000, 31, true, by decide⟩

lemma twoWords : Region 0x30000000 0x30000008 := ⟨by decide, by decide, by decide⟩

lemma highStuck_inside : highStuck.Inside 0x30000000 0x30000008 :=
  ⟨by decide, by decide, by decide⟩

theorem highStuck_zero_detected : Quiet 0x30000000 0x30000008 0 ∧
    (Detects 0x30000000 0x30000008 0 highStuck ↔ ¬ Blind 0x30000000 0 highStuck) :=
  mtest_detects_iff twoWords highStuck_inside 0

/-- The pattern 0x80000000 is its own negative, and is written to the first word for ever. -/
theorem highStuck_undetected : Region 0x30000000 0x30000008 ∧
    highStuck.Inside 0x30000000 0x30000008 ∧
    ¬ Detects 0x30000000 0x30000008 0x80000000 highStuck := by
  refine ⟨twoWords, highStuck_inside, fun detects => ?_⟩
  refine (detects_iff_not_blind twoWords highStuck_inside _).mp detects ⟨rfl, ?_, rfl⟩
  decide

end MemTest
