import UBoot.Timer.Ticks

/-!
# Waiting for some microseconds (cpu/arm920t/s3c24x0/timer.c)

`udelay` and `udelay_masked` make counts of the microseconds and call `get_ticks` until these have
gone by. How many counts go by between two calls is left open.
-/

namespace Timer

def waitLoop (c : Clock) (more : UInt64 → Bool) : (gaps : List Nat) → (t : Nat) → State → Option Nat
  | [], _, _ => none
  | gap :: gaps, t, s =>
    let (ticks, s) := getTicks c (t + gap) s
    if more ticks then waitLoop c more gaps (t + gap) s else some (t + gap)

def msCounts (c : Clock) (usec : UInt32) : UInt32 := usec / 1000 * (c.timerLoadVal * 100) / 1000

def udelay (c : Clock) (usec : UInt32) (gaps : List Nat) (t : Nat) (s : State) : Option Nat :=
  let (start, s) := getTicks c t s
  let tmo := msCounts c usec
  waitLoop c (fun ticks => (ticks - start.toUInt32.toUInt64).toUInt32 < tmo) gaps t s

def maskedCounts (c : Clock) (usec : UInt32) : UInt32 :=
  if usec ≥ 1000 then msCounts c usec else usec * (c.timerLoadVal * 100) / (1000 * 1000)

def udelayMasked (c : Clock) (usec : UInt32) (gaps : List Nat) (t : Nat) (s : State) : Option Nat :=
  let (ticks, s) := getTicks c t s
  let endtime := (ticks + (maskedCounts c usec).toUInt64).toUInt32
  waitLoop c (fun now => (endtime - now.toUInt32).toInt32 ≥ 0) gaps t s

/-- The counts of some microseconds, of `timer_load_val * 100` counts in a second. -/
def countsOf (c : Clock) (usec : UInt32) : Nat :=
  usec.toNat * (c.timerLoadVal.toNat * 100) / 1000000

/-- From any phase, with any calls of `get_ticks`, no return comes before the counts have gone
by. -/
def Waits (c : Clock) (usec : UInt32) (delay : List Nat → Nat → State → Option Nat) : Prop :=
  ∀ gaps t s t', delay gaps t s = some t' → t + countsOf c usec ≤ t'

def MsFit (c : Clock) (usec : UInt32) : Prop :=
  usec.toNat / 1000 * (c.timerLoadVal.toNat * 100) < 4294967296

/-- What is left behind the whole counts of the whole milliseconds, in millionths of a count. -/
def leftOver (c : Clock) (usec : UInt32) : Nat :=
  usec.toNat / 1000 * (c.timerLoadVal.toNat * 100) % 1000 * 1000 +
    usec.toNat % 1000 * (c.timerLoadVal.toNat * 100)

variable {c : Clock} {more : UInt64 → Bool} {bound : Nat}

lemma readTimer_period (c : Clock) (t gap : Nat) :
    readTimer c (t + gap % c.timerLoadVal.toNat) = readTimer c (t + gap) := by
  rw [readTimer, readTimer, Nat.add_mod_mod]

/-- A loop that goes on while fewer than `bound` counts are seen. -/
structure Counts (more : UInt64 → Bool) (start : UInt32) (bound : Nat) : Prop where
  exact_ : ∀ n < bound + 65536,
    more (start + UInt32.ofNat n).toUInt64 = decide (n < bound)

/-- `seen` counts have been seen since the start, and no more than have gone by. -/
structure Seen (c : Clock) (start : UInt32) (t seen : Nat) (s : State) : Prop where
  last : s.lastdec = readTimer c t
  stamp : s.timestamp = start + UInt32.ofNat seen

lemma Seen.next {c : Clock} {start : UInt32} {t seen : Nat} {s : State}
    (sees : Seen c start t seen s) (gap : Nat) :
    Seen c start (t + gap) (seen + gap % c.timerLoadVal.toNat) (getTicks c (t + gap) s).2 where
  last := rfl
  stamp := by
    have adds := getTicks_adds c sees.last (Nat.mod_lt gap (loadVal_pos c))
    rw [getTicks, readTimer_period, ← getTicks] at adds
    rw [adds, sees.stamp, UInt32.ofNat_add, UInt32.add_assoc]

lemma waitLoop_waits {start : UInt32} (counts : Counts more start bound) {gaps : List Nat}
    {origin t t' seen : Nat} {s : State} (sees : Seen c start t seen s) (gone : origin + seen ≤ t)
    (few : seen ≤ bound) (ended : waitLoop c more gaps t s = some t') : origin + bound ≤ t' := by
  induction gaps generalizing t seen s with
  | nil => cases ended
  | cons gap gaps ih =>
    have next := sees.next gap
    have part := Nat.mod_lt gap (loadVal_pos c)
    have whole := Nat.mod_le gap c.timerLoadVal.toNat
    have small := loadVal_lt c
    have goes := counts.exact_ (seen + gap % c.timerLoadVal.toNat) (by omega)
    rw [waitLoop] at ended
    dsimp only at ended
    rw [getTicks_result, next.stamp, goes] at ended
    by_cases more_left : seen + gap % c.timerLoadVal.toNat < bound
    · rw [if_pos (decide_eq_true more_left)] at ended
      exact ih next (by omega) (by omega) ended
    · rw [decide_eq_false more_left, if_neg Bool.false_ne_true] at ended
      cases ended
      omega

lemma waitLoop_ones {start : UInt32} (counts : Counts more start bound) {k t seen : Nat} {s : State}
    (sees : Seen c start t seen s) (rest : seen + (k + 1) = bound) :
    waitLoop c more (List.replicate (k + 1) 1) t s = some (t + (k + 1)) := by
  have one : 1 % c.timerLoadVal.toNat = 1 := by
    have := c.counts
    apply Nat.mod_eq_of_lt
    rw [loadVal_toNat]
    omega
  induction k generalizing t seen s with
  | zero =>
    have next := sees.next 1
    rw [one] at next
    rw [List.replicate_one, waitLoop]
    dsimp only
    rw [getTicks_result, next.stamp, counts.exact_ _ (by omega), decide_eq_false (by omega),
      if_neg Bool.false_ne_true]
  | succ k ih =>
    have next := sees.next 1
    rw [one] at next
    rw [List.replicate_succ, waitLoop]
    dsimp only
    rw [getTicks_result, next.stamp, counts.exact_ _ (by omega),
      if_pos (decide_eq_true (by omega)), ih next (by omega)]
    congr 1
    omega

lemma waitLoop_sharp {start : UInt32} {t : Nat} {s : State} (counts : Counts more start bound)
    (sees : Seen c start t 0 s) :
    ∃ gaps, waitLoop c more gaps t s = some (t + bound) := by
  cases bound with
  | zero =>
    have next := sees.next 0
    rw [Nat.zero_mod] at next
    refine ⟨[0], ?_⟩
    rw [waitLoop]
    dsimp only
    rw [getTicks_result, next.stamp, counts.exact_ 0 (by decide)]
    rfl
  | succ k => exact ⟨_, waitLoop_ones counts sees (zero_add _)⟩

lemma waits_iff {usec : UInt32} {delay : List Nat → Nat → State → Option Nat}
    (loops : ∀ t s, ∃ more, (∀ gaps, delay gaps t s =
      waitLoop c more gaps t (getTicks c t s).2) ∧
        Counts more (getTicks c t s).2.timestamp bound) :
    Waits c usec delay ↔ countsOf c usec ≤ bound := by
  have sees (t : Nat) (s : State) :
      Seen c (getTicks c t s).2.timestamp t 0 (getTicks c t s).2 :=
    ⟨rfl, (UInt32.add_zero _).symm⟩
  constructor
  · intro waits
    obtain ⟨more, delay_eq, counts⟩ := loops 0 (timerInit c)
    obtain ⟨gaps, ended⟩ := waitLoop_sharp counts (sees 0 _)
    have enough := waits gaps 0 (timerInit c) _ ((delay_eq gaps).trans ended)
    omega
  · intro enough gaps t s t' ended
    obtain ⟨more, delay_eq, counts⟩ := loops t s
    rw [delay_eq] at ended
    have gone := waitLoop_waits counts (sees t s) (Nat.le_refl t) (Nat.zero_le _) ended
    omega

lemma rate_toNat (c : Clock) :
    (c.timerLoadVal * 100).toNat = c.timerLoadVal.toNat * 100 := by
  have := loadVal_lt c
  have hundred : (100 : UInt32).toNat = 100 := rfl
  rw [UInt32.toNat_mul, hundred]
  omega

lemma msCounts_toNat (c : Clock) (usec : UInt32) : (msCounts c usec).toNat =
    usec.toNat / 1000 * (c.timerLoadVal.toNat * 100) % 4294967296 / 1000 := by
  have thousand : (1000 : UInt32).toNat = 1000 := rfl
  rw [msCounts, UInt32.toNat_div, UInt32.toNat_mul, rate_toNat, UInt32.toNat_div, thousand]

lemma udelay_counts (c : Clock) (usec start : UInt32) :
    Counts (fun ticks => (ticks - start.toUInt64.toUInt32.toUInt64).toUInt32 < msCounts c usec)
      start (msCounts c usec).toNat where
  exact_ n near := by
    have tmo := msCounts_toNat c usec
    have less : n < 4294967296 := by omega
    have gone : ((start + UInt32.ofNat n).toUInt64 -
        start.toUInt64.toUInt32.toUInt64).toUInt32 = UInt32.ofNat n := by
      rw [UInt32.toUInt32_toUInt64, UInt64.toUInt32_sub, UInt32.toUInt32_toUInt64,
        UInt32.toUInt32_toUInt64, UInt32.add_comm, UInt32.add_sub_cancel]
    rw [gone]
    apply decide_eq_decide.mpr
    rw [UInt32.lt_iff_toNat_lt, UInt32.toNat_ofNat_of_lt' less]

lemma difference_nonneg {x : UInt32} {n : Nat} (small : x.toNat < 2147418111)
    (near : n < x.toNat + 1 + 65536) : (x - UInt32.ofNat n).toInt32 ≥ 0 ↔ n < x.toNat + 1 := by
  have less : (UInt32.ofNat n).toNat = n := by
    apply UInt32.toNat_ofNat_of_lt'
    change n < 4294967296
    omega
  have difference :
      (x - UInt32.ofNat n).toNat = (x.toNat + 4294967296 - n) % 4294967296 := by
    rw [UInt32.toNat_sub, less]
    omega
  have sign : (x - UInt32.ofNat n).toInt32 ≥ 0 ↔ (x - UInt32.ofNat n).toNat < 2147483648 := by
    rw [ge_iff_le, Int32.le_iff_toInt_le]
    change 0 ≤ (x - UInt32.ofNat n).toBitVec.toInt ↔ _
    rw [BitVec.toInt_eq_toNat_cond]
    change _ ↔ (x - UInt32.ofNat n).toBitVec.toNat < 2147483648
    split <;> omega
  rw [sign, difference]
  omega

lemma udelayMasked_counts (start tmo : UInt32) (small : tmo.toNat < 2147418111) :
    Counts (fun now => ((start.toUInt64 + tmo.toUInt64).toUInt32 - now.toUInt32).toInt32 ≥ 0)
      start (tmo.toNat + 1) where
  exact_ n near := by
    have left : ((start.toUInt64 + tmo.toUInt64).toUInt32 -
        (start + UInt32.ofNat n).toUInt64.toUInt32) = tmo - UInt32.ofNat n := by
      rw [UInt64.toUInt32_add, UInt32.toUInt32_toUInt64, UInt32.toUInt32_toUInt64,
        UInt32.toUInt32_toUInt64]
      grind
    rw [left]
    exact decide_eq_decide.mpr (difference_nonneg small near)

lemma udelay_waits_iff (c : Clock) (usec : UInt32) :
    Waits c usec (udelay c usec) ↔ countsOf c usec ≤ (msCounts c usec).toNat := by
  apply waits_iff
  intro t s
  exact ⟨_, fun gaps => rfl, udelay_counts c usec (getTicks c t s).2.timestamp⟩

lemma maskedCounts_small (c : Clock) (usec : UInt32) :
    (maskedCounts c usec).toNat < 2147418111 := by
  have ms := msCounts_toNat c usec
  have million : (1000 * 1000 : UInt32).toNat = 1000000 := rfl
  have less := (usec * (c.timerLoadVal * 100)).toNat_lt
  unfold maskedCounts
  split
  case isTrue => omega
  case isFalse =>
    rw [UInt32.toNat_div, million]
    omega

lemma udelayMasked_waits_iff (c : Clock) (usec : UInt32) :
    Waits c usec (udelayMasked c usec) ↔
      countsOf c usec ≤ (maskedCounts c usec).toNat + 1 := by
  apply waits_iff
  intro t s
  exact ⟨_, fun gaps => rfl, udelayMasked_counts (getTicks c t s).2.timestamp
    (maskedCounts c usec) (maskedCounts_small c usec)⟩

lemma counts_split (usec rate : Nat) :
    usec * rate = 1000 * (usec / 1000 * rate) + usec % 1000 * rate := by
  conv_lhs => rw [← Nat.div_add_mod usec 1000]
  rw [add_mul, mul_assoc]

/-- `udelay` waits long enough if what it leaves behind is less than a count, and `udelay_masked`
if it is less than two. -/
theorem delays_wait_iff (c : Clock) (usec : UInt32) :
    (Waits c usec (udelay c usec) ↔ MsFit c usec ∧ leftOver c usec < 1000000) ∧
    (Waits c usec (udelayMasked c usec) ↔
      (1000 ≤ usec.toNat → MsFit c usec ∧ leftOver c usec < 2000000) ∧
      (usec.toNat < 1000 → usec.toNat * (c.timerLoadVal.toNat * 100) < 4294967296)) := by
  have ms := msCounts_toNat c usec
  have parts := counts_split usec.toNat (c.timerLoadVal.toNat * 100)
  rw [udelay_waits_iff, udelayMasked_waits_iff]
  unfold countsOf MsFit leftOver
  constructor
  · rw [ms, parts]
    generalize usec.toNat / 1000 * (c.timerLoadVal.toNat * 100) = whole
    generalize usec.toNat % 1000 * (c.timerLoadVal.toNat * 100) = rest
    omega
  · by_cases long : usec ≥ 1000
    · have long_nat : 1000 ≤ usec.toNat := UInt32.le_iff_toNat_le.mp long
      rw [maskedCounts, if_pos long, ms, parts]
      generalize usec.toNat / 1000 * (c.timerLoadVal.toNat * 100) = whole
      generalize usec.toNat % 1000 * (c.timerLoadVal.toNat * 100) = rest
      omega
    · have short_nat : ¬ 1000 ≤ usec.toNat := fun le => long (UInt32.le_iff_toNat_le.mpr le)
      have million : (1000 * 1000 : UInt32).toNat = 1000000 := rfl
      rw [maskedCounts, if_neg long, UInt32.toNat_div, UInt32.toNat_mul, rate_toNat, million]
      generalize usec.toNat * (c.timerLoadVal.toNat * 100) = product
      omega

/-- A millisecond and a half is a millisecond. -/
theorem ms_and_half_not_waited : ¬ Waits fiftyMegahertz 1500 (udelay fiftyMegahertz 1500) := by
  rw [udelay_waits_iff]
  decide

end Timer
