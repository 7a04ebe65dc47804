import Mathlib.Data.Nat.ModEq
import Mathlib.Algebra.BigOperators.Group.List.Basic

/-!
# Counts of timer 4 (cpu/arm920t/s3c24x0/timer.c)

The timer counts down and starts again from its load value. `get_ticks` adds up what has gone by
since it was called last, and `get_timer` makes milliseconds of it. Time is the number of counts
since the timer was started.
-/

namespace Timer

def sysHz : UInt32 := 1000

/-- A clock for which the load value fits the timer and a millisecond has a count. -/
structure Clock where
  pclk : UInt32
  fits : pclk.toNat / 3200 < 65536
  counts : 32000 ≤ pclk.toNat

def Clock.timerLoadVal (c : Clock) : UInt32 := c.pclk / (2 * 16 * 100)

def Clock.timerClk (c : Clock) : UInt32 := c.pclk / (2 * 16)

/-- `READ_TIMER`, when the timer has counted `t`. -/
def readTimer (c : Clock) (t : Nat) : UInt32 :=
  UInt32.ofNat (c.timerLoadVal.toNat - t % c.timerLoadVal.toNat) &&& 0xFFFF

structure State where
  timestamp : UInt32
  lastdec : UInt32

def timerInit (c : Clock) : State := ⟨0, c.timerLoadVal⟩

def resetTimerMasked (c : Clock) (t : Nat) : State := ⟨0, readTimer c t⟩

def getTicks (c : Clock) (t : Nat) (s : State) : UInt64 × State :=
  let now := readTimer c t
  let timestamp :=
    if s.lastdec ≥ now then s.timestamp + (s.lastdec - now)
    else s.timestamp + (s.lastdec + c.timerLoadVal - now)
  (timestamp.toUInt64, ⟨timestamp, now⟩)

def getTimerMasked (c : Clock) (t : Nat) (s : State) : UInt32 × State :=
  let (tmr, s) := getTicks c t s
  (tmr.toUInt32 / (c.timerClk / sysHz), s)

def getTimer (c : Clock) (t : Nat) (base : UInt32) (s : State) : UInt32 × State :=
  let (tmr, s) := getTimerMasked c t s
  (tmr - base, s)

/-- What is called. `get_timer` calls `get_ticks`. -/
inductive Call where
  | reset
  | ticks
  deriving DecidableEq

structure Event where
  gap : Nat
  call : Call

structure Moment where
  now : Nat
  reset : Nat
  s : State

def boot (c : Clock) : Moment := ⟨0, 0, timerInit c⟩

def step (c : Clock) (m : Moment) (e : Event) : Moment :=
  match e.call with
  | .reset => ⟨m.now + e.gap, m.now + e.gap, resetTimerMasked c (m.now + e.gap)⟩
  | .ticks => ⟨m.now + e.gap, m.reset, (getTicks c (m.now + e.gap) m.s).2⟩

def run (c : Clock) (m : Moment) (events : List Event) : Moment := events.foldl (step c) m

/-- `get_ticks` is called at least once in each period. -/
def Timely (c : Clock) (events : List Event) : Prop :=
  ∀ e ∈ events, e.call = .ticks → e.gap < c.timerLoadVal.toNat

def ticksAfter (gaps : List Nat) : List Event := gaps.map fun gap => ⟨gap, .ticks⟩

def Moment.counts (m : Moment) : Nat := m.now - m.reset

def Clock.perMs (c : Clock) : Nat := c.timerClk.toNat / 1000

/-- `t0 = get_timer (0)`, other calls of `get_ticks`, and `get_timer (t0)` some counts after these:
the milliseconds between the two, but for one. -/
def Measures (c : Clock) (m : Moment) (first : Nat) (between : List Nat) (last : Nat) : Prop :=
  let (t0, s) := getTimer c (m.now + first) 0 m.s
  let m' := run c ⟨m.now + first, m.reset, s⟩ (ticksAfter between)
  let ms := (getTimer c (m'.now + last) t0 m'.s).1.toNat
  let elapsed := (between.sum + last) / c.perMs
  ms ≤ elapsed + 1 ∧ elapsed ≤ ms + 1

def NoWrap (m : Moment) (first : Nat) (between : List Nat) (last : Nat) : Prop :=
  (m.counts + first) / 4294967296 = (m.counts + first + (between.sum + last)) / 4294967296

lemma loadVal_toNat (c : Clock) : c.timerLoadVal.toNat = c.pclk.toNat / 3200 :=
  UInt32.toNat_div c.pclk 3200

lemma loadVal_pos (c : Clock) : 0 < c.timerLoadVal.toNat := by
  have := c.counts
  rw [loadVal_toNat]
  omega

lemma loadVal_lt (c : Clock) : c.timerLoadVal.toNat < 65536 := by
  rw [loadVal_toNat]
  exact c.fits

lemma perMs_eq (c : Clock) : c.perMs = c.pclk.toNat / 32 / 1000 :=
  congrArg (· / 1000) (UInt32.toNat_div c.pclk 32)

lemma perMs_pos (c : Clock) : 0 < c.perMs := by
  have := c.counts
  rw [perMs_eq]
  omega

lemma readTimer_toNat (c : Clock) (t : Nat) :
    (readTimer c t).toNat = c.timerLoadVal.toNat - t % c.timerLoadVal.toNat := by
  have small := loadVal_lt c
  have mask : (0xFFFF : UInt32).toNat = 2 ^ 16 - 1 := rfl
  rw [readTimer, UInt32.toNat_and, mask, Nat.and_two_pow_sub_one_eq_mod, UInt32.toNat_ofNat']
  omega

variable {gap : Nat} {c : Clock} {m : Moment}

lemma phase_add (t : Nat) {load : Nat} (short : gap < load) : (t + gap) % load =
    if t % load + gap < load then t % load + gap else t % load + gap - load := by
  have phase := Nat.mod_lt t (Nat.zero_lt_of_lt short)
  rw [Nat.add_mod, Nat.mod_eq_of_lt short]
  split
  case isTrue same => exact Nat.mod_eq_of_lt same
  case isFalse next =>
    rw [Nat.mod_eq_sub_mod (Nat.le_of_not_lt next)]
    exact Nat.mod_eq_of_lt (by omega)

lemma readings (c : Clock) (t : Nat) (short : gap < c.timerLoadVal.toNat) :
    let last := (readTimer c t).toNat
    let now := (readTimer c (t + gap)).toNat
    now ≤ last ∧ last - now = gap ∨ last < now ∧ last + c.timerLoadVal.toNat - now = gap := by
  have phase := Nat.mod_lt t (loadVal_pos c)
  rw [readTimer_toNat, readTimer_toNat, phase_add t short]
  split <;> omega

lemma getTicks_adds (c : Clock) {t : Nat} {s : State} (last : s.lastdec = readTimer c t)
    (short : gap < c.timerLoadVal.toNat) :
    (getTicks c (t + gap) s).2.timestamp = s.timestamp + UInt32.ofNat gap := by
  have small := loadVal_lt c
  rcases readings c t short with ⟨down, moved⟩ | ⟨again, moved⟩
  · have normal : s.lastdec ≥ readTimer c (t + gap) := by
      rw [last]
      exact UInt32.le_iff_toNat_le.mpr down
    have difference : readTimer c t - readTimer c (t + gap) = UInt32.ofNat gap := by
      apply UInt32.toNat_inj.mp
      rw [UInt32.toNat_sub_of_le _ _ (UInt32.le_iff_toNat_le.mpr down), moved,
        UInt32.toNat_ofNat_of_lt' (lt_trans short (lt_trans small (by decide)))]
    rw [getTicks, if_pos normal, last, difference]
  · have overflow : ¬ s.lastdec ≥ readTimer c (t + gap) := by
      rw [last]
      exact fun le => not_le.mpr again (UInt32.le_iff_toNat_le.mp le)
    have now := readTimer_toNat c (t + gap)
    have difference : readTimer c t + c.timerLoadVal - readTimer c (t + gap) =
        UInt32.ofNat gap := by
      apply UInt32.toNat_inj.mp
      rw [UInt32.toNat_sub, UInt32.toNat_add, UInt32.toNat_ofNat']
      omega
    rw [getTicks, if_neg overflow, last, difference]

lemma getTicks_result (c : Clock) (t : Nat) (s : State) :
    (getTicks c t s).1 = (getTicks c t s).2.timestamp.toUInt64 := rfl

/-- The variables say when `get_ticks` was called last and how long after the reset. -/
structure Tracks (c : Clock) (m : Moment) : Prop where
  order : m.reset ≤ m.now
  last : m.s.lastdec = readTimer c m.now
  stamp : m.s.timestamp = UInt32.ofNat m.counts

lemma boot_tracks (c : Clock) : Tracks c (boot c) where
  order := Nat.le_refl 0
  last := by
    apply UInt32.toNat_inj.mp
    rw [readTimer_toNat]
    change c.timerLoadVal.toNat = c.timerLoadVal.toNat - 0 % c.timerLoadVal.toNat
    rw [Nat.zero_mod, Nat.sub_zero]
  stamp := rfl

lemma step_tracks (tracks : Tracks c m) (e : Event)
    (timely : e.call = .ticks → e.gap < c.timerLoadVal.toNat) : Tracks c (step c m e) := by
  have order := tracks.order
  cases call : e.call with
  | reset =>
    rw [step, call]
    refine ⟨le_rfl, rfl, ?_⟩
    rw [Moment.counts, Nat.sub_self]
    rfl
  | ticks =>
    rw [step, call]
    refine ⟨le_trans order (Nat.le_add_right _ _), rfl, ?_⟩
    rw [getTicks_adds c tracks.last (timely call), tracks.stamp, ← UInt32.ofNat_add]
    congr 1
    simp only [Moment.counts]
    omega

lemma run_tracks (tracks : Tracks c m) {events : List Event} (timely : Timely c events) :
    Tracks c (run c m events) := by
  induction events generalizing m with
  | nil => exact tracks
  | cons e events ih =>
    obtain ⟨first, rest⟩ := List.forall_mem_cons.mp timely
    exact ih (step_tracks tracks e first) rest

lemma run_ticksAfter (c : Clock) (m : Moment) (gaps : List Nat) :
    (run c m (ticksAfter gaps)).reset = m.reset ∧
      (run c m (ticksAfter gaps)).now = m.now + gaps.sum := by
  induction gaps generalizing m with
  | nil => exact ⟨rfl, rfl⟩
  | cons gap gaps ih =>
    obtain ⟨reset, now⟩ := ih (step c m ⟨gap, .ticks⟩)
    refine ⟨reset, ?_⟩
    rw [List.sum_cons, ← add_assoc]
    exact now

lemma ms_iff {per start d : Nat} (some_counts : 0 < per) (many : per ≤ 2147483648)
    (near : d < 2147483648) :
    let ms := ((start + d) % 4294967296 / per + 4294967296 - start % 4294967296 / per) % 4294967296
    (ms ≤ d / per + 1 ∧ d / per ≤ ms + 1) ↔
      per = 1 ∨ start / 4294967296 = (start + d) / 4294967296 := by
  have low := Nat.div_le_self (start % 4294967296) per
  by_cases wraps : start / 4294967296 = (start + d) / 4294967296
  · have sum : (start + d) % 4294967296 = start % 4294967296 + d := by omega
    have parts := Nat.add_div (a := start % 4294967296) (b := d) some_counts
    have bound := Nat.div_le_self ((start + d) % 4294967296) per
    refine iff_of_true ?_ (.inr wraps)
    rw [← sum] at parts
    generalize (start + d) % 4294967296 / per = now at parts bound ⊢
    generalize start % 4294967296 / per = before at parts low ⊢
    generalize d / per = elapsed at parts ⊢
    split at parts <;> omega
  · have sum : (start + d) % 4294967296 + (4294967296 - d) = start % 4294967296 := by omega
    have parts := Nat.add_div (a := (start + d) % 4294967296) (b := 4294967296 - d) some_counts
    rw [sum] at parts
    by_cases one : per = 1
    · refine iff_of_true ?_ (.inl one)
      subst one
      omega
    refine iff_of_false ?_ (not_or.mpr ⟨one, wraps⟩)
    have half : (4294967296 - d) / per ≤ (4294967296 - d) / 2 :=
      Nat.div_le_div_left (by omega) (by decide)
    have whole : 1 ≤ (4294967296 - d) / per := (Nat.le_div_iff_mul_le some_counts).mpr (by omega)
    have elapsed : d / per ≤ d / 2 := Nat.div_le_div_left (by omega) (by decide)
    generalize (start + d) % 4294967296 / per = now at parts ⊢
    generalize start % 4294967296 / per = before at parts low ⊢
    generalize d / per = ms at elapsed ⊢
    generalize (4294967296 - d) / per = rest at parts half whole
    split at parts <;> omega

lemma getTicks_counts (tracks : Tracks c m) (short : gap < c.timerLoadVal.toNat) :
    (getTicks c (m.now + gap) m.s).2.timestamp = UInt32.ofNat (m.counts + gap) := by
  rw [getTicks_adds c tracks.last short, tracks.stamp, UInt32.ofNat_add]

lemma getTimer_state (c : Clock) (m : Moment) (gap : Nat) (base : UInt32) :
    (⟨m.now + gap, m.reset, (getTimer c (m.now + gap) base m.s).2⟩ : Moment) =
      step c m ⟨gap, .ticks⟩ := rfl

lemma getTimer_ms (tracks : Tracks c m) (short : gap < c.timerLoadVal.toNat) (base : UInt32) :
    (getTimer c (m.now + gap) base m.s).1.toNat =
      ((m.counts + gap) % 4294967296 / c.perMs + 4294967296 - base.toNat) % 4294967296 := by
  have per : (c.timerClk / sysHz).toNat = c.perMs := UInt32.toNat_div c.timerClk sysHz
  have stamp := getTicks_counts tracks short
  change ((getTicks c (m.now + gap) m.s).2.timestamp.toUInt64.toUInt32 / (c.timerClk / sysHz) -
    base).toNat = _
  have less := base.toNat_lt
  rw [UInt32.toUInt32_toUInt64, stamp, UInt32.toNat_sub, UInt32.toNat_div, per,
    UInt32.toNat_ofNat', add_comm (2 ^ 32 - base.toNat),
    ← Nat.add_sub_assoc (le_of_lt less)]

lemma measures_iff (tracks : Tracks c m) {first last : Nat} {between : List Nat}
    (first_short : first < c.timerLoadVal.toNat)
    (between_short : ∀ gap ∈ between, gap < c.timerLoadVal.toNat)
    (last_short : last < c.timerLoadVal.toNat) (near : between.sum + last < 2147483648) :
    Measures c m first between last ↔ c.perMs = 1 ∨ NoWrap m first between last := by
  have base := getTimer_ms tracks first_short 0
  have started := step_tracks tracks ⟨first, .ticks⟩ fun _ => first_short
  have timely : Timely c (ticksAfter between) := by
    intro e member _
    obtain ⟨gap, inside, rfl⟩ := List.mem_map.mp member
    exact between_short gap inside
  have arrived := run_tracks started timely
  obtain ⟨reset, now⟩ := run_ticksAfter c (step c m ⟨first, .ticks⟩) between
  have ms := getTimer_ms arrived last_short (getTimer c (m.now + first) 0 m.s).1
  have order := tracks.order
  have counts : (run c (step c m ⟨first, .ticks⟩) (ticksAfter between)).counts + last =
      m.counts + first + (between.sum + last) := by
    rw [Moment.counts, reset, now]
    change m.now + first + between.sum - m.reset + last = _
    unfold Moment.counts
    omega
  have small : c.perMs ≤ 2147483648 := by
    have := c.fits
    rw [perMs_eq]
    omega
  have quotient := Nat.div_le_self ((m.counts + first) % 4294967296) c.perMs
  have base_eq : (getTimer c (m.now + first) 0 m.s).1.toNat =
      (m.counts + first) % 4294967296 / c.perMs := by
    have first_lt := Nat.mod_lt (m.counts + first) (show 4294967296 > 0 by decide)
    rw [base, UInt32.toNat_zero, Nat.sub_zero, Nat.add_mod_right]
    exact Nat.mod_eq_of_lt (lt_of_le_of_lt quotient first_lt)
  rw [counts, base_eq] at ms
  unfold Measures NoWrap
  dsimp only
  rw [getTimer_state, ms]
  exact ms_iff (perMs_pos c) small near

/-- The count is right at any time; milliseconds measured across a wrap of it are not. -/
theorem counts_and_ms (c : Clock) {before : List Event} (timely : Timely c before) :
    let m := run c (boot c) before
    (∀ gap < c.timerLoadVal.toNat,
      (getTicks c (m.now + gap) m.s).1.toNat = (m.counts + gap) % 4294967296) ∧
    ∀ first between last, first < c.timerLoadVal.toNat →
      (∀ gap ∈ between, gap < c.timerLoadVal.toNat) → last < c.timerLoadVal.toNat →
      between.sum + last < 2147483648 →
      (Measures c m first between last ↔ c.perMs = 1 ∨ NoWrap m first between last) := by
  dsimp only
  have tracks := run_tracks (boot_tracks c) timely
  constructor
  · intro gap short
    rw [getTicks_result, getTicks_counts tracks short, UInt32.toNat_toUInt64, UInt32.toNat_ofNat']
  · intro first between last first_short between_short last_short near
    exact measures_iff tracks first_short between_short last_short near

def fiftyMegahertz : Clock where
  pclk := 50000000
  fits := by decide
  counts := by decide

lemma fiftyMegahertz_load : fiftyMegahertz.timerLoadVal.toNat = 15625 := by decide

def upFor (n : Nat) : List Event := ticksAfter (List.replicate n 10000)

lemma upFor_timely (n : Nat) : Timely fiftyMegahertz (upFor n) := by
  intro e member _
  obtain ⟨gap, inside, rfl⟩ := List.mem_map.mp member
  rw [fiftyMegahertz_load, List.eq_of_mem_replicate inside]
  decide

theorem one_period_ms : Timely fiftyMegahertz (upFor 3) ∧
    (Measures fiftyMegahertz (run fiftyMegahertz (boot fiftyMegahertz) (upFor 3)) 1 [] 10000 ↔
      fiftyMegahertz.perMs = 1 ∨
        NoWrap (run fiftyMegahertz (boot fiftyMegahertz) (upFor 3)) 1 [] 10000) :=
  ⟨upFor_timely 3, (counts_and_ms fiftyMegahertz (upFor_timely 3)).2 1 [] 10000 (by decide)
    (fun _ none => absurd none List.not_mem_nil) (by decide) (by decide)⟩

lemma upFor_counts (n : Nat) :
    (run fiftyMegahertz (boot fiftyMegahertz) (upFor n)).counts = 10000 * n := by
  obtain ⟨reset, now⟩ := run_ticksAfter fiftyMegahertz (boot fiftyMegahertz)
    (List.replicate n 10000)
  rw [Moment.counts, upFor, reset, now, List.sum_replicate_nat, mul_comm]
  exact (Nat.sub_zero _).trans (zero_add _)

/-- After 429496 calls 7296 counts are left before the count wraps. -/
theorem wrapped_not_measured : ∃ before, Timely fiftyMegahertz before ∧
    ¬ Measures fiftyMegahertz (run fiftyMegahertz (boot fiftyMegahertz) before) 0 [] 10000 := by
  refine ⟨upFor 429496, upFor_timely _, ?_⟩
  have tracks := run_tracks (boot_tracks fiftyMegahertz) (upFor_timely 429496)
  rw [measures_iff tracks (by decide) (fun _ none => absurd none List.not_mem_nil) (by decide)
    (by decide), NoWrap, upFor_counts]
  decide

end Timer
