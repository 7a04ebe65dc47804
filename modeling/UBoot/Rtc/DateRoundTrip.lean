import Mathlib.Data.List.Basic
import Mathlib.Tactic.IntervalCases
import UBoot.Lib.Calendar

/-!
# Dates of the clock (drivers/rtc/date.c)

Seconds since 1970-01-01 00:00:00 as a date, and back.
-/

namespace Rtc

/-- `struct rtc_time`, as far as it is set here. -/
structure RtcTime where
  sec : Int
  min : Int
  hour : Int
  mday : Int
  mon : Int
  year : Int
  wday : Int
  deriving DecidableEq

def secday : Int := 86400
def startoftime : Int := 1970

def Leapyear (year : Int) : Prop := year.tmod 4 = 0

instance (year : Int) : Decidable (Leapyear year) := inferInstanceAs (Decidable (_ = _))

def daysInYear (a : Int) : Int := if Leapyear a then 366 else 365

def monthDays : List Int := [31, 28, 31, 30, 31, 30, 31, 31, 30, 31, 30, 31]

def monthOffset : List Int := [0, 31, 59, 90, 120, 151, 181, 212, 243, 273, 304, 334]

/-- `GregorianDay`; there is no month in front of the first or behind the last. -/
def gregorianDay (tm : RtcTime) : Option RtcTime :=
  let lastYear := tm.year - 1
  let leapsToDate := lastYear.tdiv 4 - lastYear.tdiv 100 + lastYear.tdiv 400
  let day := if tm.year.tmod 4 = 0 ∧ (tm.year.tmod 100 ≠ 0 ∨ tm.year.tmod 400 = 0) ∧ 2 < tm.mon
    then 1 else 0
  if tm.mon < 1 then none
  else monthOffset[(tm.mon - 1).toNat]?.map fun offset =>
    let day := day + (lastYear * 365 + leapsToDate + offset + tm.mday)
    { tm with wday := day.tmod 7 }

lemma daysInYear_pos (a : Int) : 0 < daysInYear a := by
  rw [daysInYear]
  split_ifs <;> decide

/-- "Number of years in days": the days left, and the year. -/
def yearLoop (day i : Int) : Int × Int :=
  if daysInYear i ≤ day then yearLoop (day - daysInYear i) (i + 1) else (day, i)
termination_by day.toNat
decreasing_by
  have := daysInYear_pos i
  omega

/-- "Number of months in days left", with the lengths of the months from this one on. -/
def monthLoop : List Int → Int → Int → Option (Int × Int)
  | [], _, _ => none
  | days :: months, day, i =>
    if days ≤ day then monthLoop months (day - days) (i + 1) else some (day, i)

def toTm (tim : Int) : Option RtcTime :=
  let hms := tim.tmod secday
  let years := yearLoop (tim.tdiv secday) startoftime
  let lengths := if Leapyear years.2 then monthDays.set 1 29 else monthDays
  (monthLoop lengths years.1 1).bind fun months =>
    gregorianDay {
      hour := hms.tdiv 3600
      min := (hms.tmod 3600).tdiv 60
      sec := (hms.tmod 3600).tmod 60
      year := years.2
      mon := months.2
      mday := months.1 + 1
      wday := 0 }

def mktime (year mon day hour min sec : UInt32) : UInt32 :=
  -- "1..12 -> 11,12,1..10": "Puts Feb last since it has leap day"
  let early := (mon - 2).toInt32 ≤ 0
  let year := if early then year - 1 else year
  let mon := if early then mon - 2 + 12 else mon - 2
  (((year / 4 - year / 100 + year / 400 + 367 * mon / 12 + day + year * 365 - 719499) * 24 +
    hour) * 60 + min) * 60 + sec

/-!
## Dates and seconds

`to_tm` gives the date of the Gregorian calendar, and `mktime` takes it back.
-/

open Calendar

def epoch : Date := ⟨1970, 1, 1⟩

lemma epoch_valid : epoch.Valid :=
  ⟨⟨Nat.le_refl 1, by decide⟩, Nat.le_refl 1, by decide⟩

/-- A date and a time as `rtc_time`; 1970-01-01 was a Thursday. -/
def rtcTime (d : Date) (hour min sec : Nat) : RtcTime where
  sec := sec
  min := min
  hour := hour
  mday := d.day
  mon := d.month
  year := d.year
  wday := ((4 + (d.number - epoch.number)) % 7 : Nat)

/-- The time `t` seconds after 1970-01-01 00:00:00. -/
def timeAfter (t : Nat) : RtcTime :=
  rtcTime (epoch.after (t / 86400)) (t / 3600 % 24) (t / 60 % 60) (t % 60)

def seconds (d : Date) (hour min sec : Nat) : Nat :=
  (d.number - epoch.number) * 86400 + hour * 3600 + min * 60 + sec

def RtcTime.mktime (tm : RtcTime) : UInt32 :=
  Rtc.mktime (UInt32.ofInt tm.year) (UInt32.ofInt tm.mon) (UInt32.ofInt tm.mday)
    (UInt32.ofInt tm.hour) (UInt32.ofInt tm.min) (UInt32.ofInt tm.sec)

variable {y : Nat}

lemma yearStart_epoch : yearStart 1970 = 719528 := by
  have start : yearStart 1970 + 1969 / 100 = 366 + 365 * 1969 + 1969 / 4 + 1969 / 400 :=
    yearStart_succ 1969
  omega

lemma yearStart_2100 : yearStart 2100 = 767010 := by
  have start : yearStart 2100 + 2099 / 100 = 366 + 365 * 2099 + 2099 / 4 + 2099 / 400 :=
    yearStart_succ 2099
  omega

lemma epoch_number : epoch.number = 719528 := by
  have year : yearStart epoch.year = 719528 := yearStart_epoch
  have month : monthStart epoch.year epoch.month = 0 := rfl
  have day : epoch.day - 1 = 0 := rfl
  rw [Date.number, year, month, day]

lemma leapyear_iff (low : 1970 ≤ y) (high : y < 2100) : Leapyear y ↔ IsLeap y := by
  have year : (y : Int).tmod 4 = ((y % 4 : Nat) : Int) := (Int.ofNat_tmod y 4).symm
  rw [Leapyear, year, IsLeap]
  omega

lemma daysInYear_eq (low : 1970 ≤ y) (high : y < 2100) : daysInYear y = yearDays y := by
  rw [daysInYear, yearDays]
  by_cases leap : IsLeap y
  · rw [if_pos leap, if_pos ((leapyear_iff low high).mpr leap)]
    rfl
  · rw [if_neg leap, if_neg (mt (leapyear_iff low high).mp leap)]
    rfl

lemma year_lt {day : Nat} (range : yearStart y + day < yearStart 2100) : y < 2100 := by
  refine Nat.lt_of_not_le fun late => ?_
  have start := yearStart_le late
  omega

lemma yearLoop_eq (day : Nat) (low : 1970 ≤ y) (range : yearStart y + day < yearStart 2100) :
    ∃ y' day' : Nat, yearLoop day y = ((day' : Int), (y' : Int)) ∧ 1970 ≤ y' ∧
      yearStart y' + day' = yearStart y + day ∧ day' < yearDays y' := by
  induction day using Nat.strongRecOn generalizing y with
  | ind day ih =>
    have days := daysInYear_eq low (year_lt range)
    by_cases more : yearDays y ≤ day
    · have some := yearDays_ge y
      have left : ((day : Int) - (yearDays y : Int)) = ((day - yearDays y : Nat) : Int) :=
        (Int.ofNat_sub more).symm
      have start : yearStart (y + 1) = yearStart y + yearDays y := rfl
      obtain ⟨y', day', found, low', sum, inside⟩ :=
        ih (day - yearDays y) (by omega) (y := y + 1) (Nat.le_succ_of_le low) (by omega)
      refine ⟨y', day', ?_, low', by omega, inside⟩
      rw [yearLoop, days, if_pos (Int.ofNat_le.mpr more), left]
      exact found
    · refine ⟨y, day, ?_, low, rfl, Nat.lt_of_not_le more⟩
      rw [yearLoop, days, if_neg (mt Int.ofNat_le.mp more)]

variable {m : Nat}

lemma monthLoop_eq (y : Nat) (months : Nat) {day : Nat}
    (range : monthStart y m + day < monthStart y (m + months)) :
    ∃ m' day' : Nat,
      monthLoop ((List.range' m months).map fun k => (Calendar.monthDays y k : Int)) day m =
        some ((day' : Int), (m' : Int)) ∧ m ≤ m' ∧ m' < m + months ∧
        monthStart y m' + day' = monthStart y m + day ∧ day' < Calendar.monthDays y m' := by
  induction months generalizing m day with
  | zero =>
    rw [add_zero] at range
    omega
  | succ months ih =>
    rw [List.range'_succ, List.map_cons, monthLoop]
    by_cases more : Calendar.monthDays y m ≤ day
    · have left : ((day : Int) - (Calendar.monthDays y m : Int)) =
          ((day - Calendar.monthDays y m : Nat) : Int) := (Int.ofNat_sub more).symm
      have start : monthStart y (m + 1) = monthStart y m + Calendar.monthDays y m := rfl
      have shift : m + (months + 1) = m + 1 + months := by omega
      rw [shift] at range ⊢
      have range' : monthStart y (m + 1) + (day - Calendar.monthDays y m) <
          monthStart y (m + 1 + months) := by omega
      obtain ⟨m', day', found, above, below, sum, inside⟩ := ih range'
      refine ⟨m', day', ?_, by omega, below, by omega, inside⟩
      rw [if_pos (Int.ofNat_le.mpr more), left]
      exact found
    · refine ⟨m, day, ?_, Nat.le_refl m, by omega, rfl, Nat.lt_of_not_le more⟩
      rw [if_neg (mt Int.ofNat_le.mp more)]

lemma monthDays_eq (low : 1970 ≤ y) (high : y < 2100) :
    (if Leapyear y then monthDays.set 1 29 else monthDays) =
      (List.range' 1 12).map fun k => (Calendar.monthDays y k : Int) := by
  by_cases leap : IsLeap y
  · rw [if_pos ((leapyear_iff low high).mpr leap)]
    simp only [Calendar.monthDays, if_pos leap]
    decide
  · rw [if_neg (mt (leapyear_iff low high).mp leap)]
    simp only [Calendar.monthDays, if_neg leap]
    decide

lemma monthOffset_eq (y : Nat) (first : 1 ≤ m) (last : m ≤ 12) :
    ∃ offset : Nat, monthOffset[m - 1]? = some (offset : Int) ∧
      monthStart y m = offset + if IsLeap y ∧ 2 < m then 1 else 0 := by
  by_cases leap : IsLeap y
  · interval_cases m <;> refine ⟨_, rfl, ?_⟩ <;>
      simp only [monthStart, Calendar.monthDays, leap, true_and] <;> rfl
  · interval_cases m <;> refine ⟨_, rfl, ?_⟩ <;>
      simp only [monthStart, Calendar.monthDays, leap, false_and] <;> rfl

variable {d : Date}

lemma leap_iff (y : Nat) : ((y : Int).tmod 4 = 0 ∧
    ((y : Int).tmod 100 ≠ 0 ∨ (y : Int).tmod 400 = 0)) ↔ IsLeap y := by
  have four : (y : Int).tmod 4 = ((y % 4 : Nat) : Int) := (Int.ofNat_tmod y 4).symm
  have hundred : (y : Int).tmod 100 = ((y % 100 : Nat) : Int) := (Int.ofNat_tmod y 100).symm
  have fourHundred : (y : Int).tmod 400 = ((y % 400 : Nat) : Int) := (Int.ofNat_tmod y 400).symm
  rw [four, hundred, fourHundred, IsLeap]
  omega

lemma epoch_le (low : 1970 ≤ d.year) : epoch.number ≤ d.number := by
  have start := yearStart_le low
  have first := Date.number_ge d
  rw [yearStart_epoch] at start
  rw [epoch_number]
  omega

lemma gregorianDay_eq (valid : d.Valid) (low : 1970 ≤ d.year) {tm : RtcTime}
    (year : tm.year = d.year) (mon : tm.mon = d.month) (mday : tm.mday = d.day) :
    gregorianDay tm =
      some { tm with wday := ((4 + (d.number - epoch.number)) % 7 : Nat) } := by
  obtain ⟨first, last⟩ := valid.month
  obtain ⟨offset, found, months⟩ := monthOffset_eq d.year first last
  obtain ⟨y, same⟩ := Nat.exists_eq_add_of_le' (le_trans (by decide : 1 ≤ 1970) low)
  have start := yearStart_succ y
  rw [← same] at start
  have some := valid.day.1
  have since := epoch_le low
  have lastYear : (d.year : Int) - 1 = (y : Int) := by omega
  have index : ((d.month : Int) - 1).toNat = d.month - 1 := by omega
  have leaps : (y : Int).tdiv 4 - (y : Int).tdiv 100 + (y : Int).tdiv 400 =
      ((y / 4 : Nat) : Int) - ((y / 100 : Nat) : Int) + ((y / 400 : Nat) : Int) := rfl
  have past : ((d.year : Int).tmod 4 = 0 ∧ ((d.year : Int).tmod 100 ≠ 0 ∨
      (d.year : Int).tmod 400 = 0) ∧ 2 < (d.month : Int)) ↔ IsLeap d.year ∧ 2 < d.month := by
    rw [← and_assoc, leap_iff]
    exact and_congr_right' Int.ofNat_lt
  have day : (if (d.year : Int).tmod 4 = 0 ∧ ((d.year : Int).tmod 100 ≠ 0 ∨
      (d.year : Int).tmod 400 = 0) ∧ 2 < (d.month : Int) then (1 : Int) else 0) =
        ((if IsLeap d.year ∧ 2 < d.month then 1 else 0 : Nat) : Int) := by
    rw [apply_ite Nat.cast, if_congr past rfl rfl]
    rfl
  generalize (if IsLeap d.year ∧ 2 < d.month then 1 else 0) = past at months day
  have total : (past : Int) + ((y : Int) * 365 + (((y / 4 : Nat) : Int) - ((y / 100 : Nat) : Int) +
      ((y / 400 : Nat) : Int)) + (offset : Int) + (d.day : Int)) =
        ((d.number - 365 : Nat) : Int) := by
    rw [epoch_number] at since
    rw [Date.number] at since ⊢
    omega
  have weekday : (((d.number - 365 : Nat) : Int)).tmod 7 =
      ((4 + (d.number - epoch.number)) % 7 : Nat) := by
    rw [epoch_number] at since ⊢
    have days : (d.number - 365) % 7 = (4 + (d.number - 719528)) % 7 := by omega
    rw [← days]
    rfl
  rw [gregorianDay, if_neg (by omega), mon, index, found, year, lastYear, leaps, mday, day,
    Option.map_some]
  dsimp only
  rw [total, weekday]

lemma toTm_eq {t : Nat} (range : t < 2 ^ 31) : toTm t = some (timeAfter t) := by
  have days : (t : Int).tdiv secday = ((t / 86400 : Nat) : Int) := rfl
  have hms : (t : Int).tmod secday = ((t % 86400 : Nat) : Int) := rfl
  have inside : yearStart 1970 + t / 86400 < yearStart 2100 := by
    rw [yearStart_epoch, yearStart_2100]
    omega
  obtain ⟨y, left, year, low, sum, short⟩ := yearLoop_eq (t / 86400) (Nat.le_refl 1970) inside
  have range' : yearStart y + left < yearStart 2100 := by omega
  have high := year_lt range'
  have january : monthStart y 1 = 0 := rfl
  have months : monthStart y 1 + left < monthStart y (1 + 12) := by
    rw [january, zero_add, monthStart_year]
    exact short
  obtain ⟨m, day, month, first, last, sum', short'⟩ := monthLoop_eq y 12 months
  have valid : (⟨y, m, day + 1⟩ : Date).Valid :=
    ⟨⟨first, Nat.le_of_lt_succ last⟩, Nat.le_add_left 1 day, short'⟩
  have number : (⟨y, m, day + 1⟩ : Date).number = epoch.number + t / 86400 := by
    rw [january] at sum'
    rw [yearStart_epoch] at sum
    rw [epoch_number, Date.number]
    dsimp only
    omega
  have date := epoch_valid.eq_after valid number
  have hour : t % 86400 / 3600 = t / 3600 % 24 := by omega
  have min : t % 86400 % 3600 / 60 = t / 60 % 60 := by omega
  have sec : t % 86400 % 3600 % 60 = t % 60 := by omega
  have found : monthLoop (if Leapyear y then monthDays.set 1 29 else monthDays) left 1 =
      some ((day : Int), (m : Int)) := by
    rw [monthDays_eq low high]
    exact month
  have start : startoftime = ((1970 : Nat) : Int) := rfl
  rw [toTm, days, hms, start, year]
  rw [found, Option.bind_some, gregorianDay_eq valid low rfl rfl rfl, timeAfter, ← date, ← hour,
    ← min, ← sec]
  rfl

variable {hour min sec : Nat}

/-- The formula of `mktime` in numbers without a width. -/
def formula (y m d : Nat) : Nat := y / 4 - y / 100 + y / 400 + 367 * m / 12 + d + y * 365

lemma leap_step (y : Nat) : (y + 1) / 4 + y / 100 + (y + 1) / 400 =
    y / 4 + (y + 1) / 100 + y / 400 + if IsLeap (y + 1) then 1 else 0 := by
  split_ifs with leap
  · rw [IsLeap] at leap
    omega
  · rw [IsLeap] at leap
    omega

lemma monthStart_late (y : Nat) (first : 2 < m) (last : m ≤ 12) :
    monthStart y m = 367 * (m - 2) / 12 + 29 + if IsLeap y then 1 else 0 := by
  by_cases leap : IsLeap y
  · interval_cases m <;>
      simp only [monthStart, Calendar.monthDays, leap] <;> rfl
  · interval_cases m <;>
      simp only [monthStart, Calendar.monthDays, leap] <;> rfl

lemma formula_early (valid : d.Valid) (some : 1 ≤ d.year) (early : d.month ≤ 2) :
    formula (d.year - 1) (d.month + 10) d.day = d.number - 29 := by
  obtain ⟨y, same⟩ := Nat.exists_eq_add_of_le' some
  have start := yearStart_succ y
  have first := valid.month.1
  have day := valid.day.1
  have month : monthStart d.year d.month = 31 * (d.month - 1) := by
    interval_cases d.month
    · rfl
    · rfl
  have third : 367 * (d.month + 10) / 12 = 305 + 31 * d.month := by
    interval_cases d.month
    · rfl
    · rfl
  rw [formula, third, Date.number, month, same, Nat.add_sub_cancel]
  omega

lemma formula_late (valid : d.Valid) (some : 1 ≤ d.year) (late : 2 < d.month) :
    formula d.year (d.month - 2) d.day = d.number - 29 := by
  obtain ⟨y, same⟩ := Nat.exists_eq_add_of_le' some
  have start := yearStart_succ y
  have step := leap_step y
  have day := valid.day.1
  have less : (y + 1) / 100 ≤ (y + 1) / 4 := by omega
  rw [formula, Date.number, monthStart_late d.year late valid.month.2, same]
  generalize 367 * (d.month - 2) / 12 = months
  generalize (if IsLeap (y + 1) then 1 else 0) = leap at step ⊢
  generalize (y + 1) / 4 = four, (y + 1) / 100 = hundred, (y + 1) / 400 = fourHundred
    at step less ⊢
  generalize y / 4 = four', y / 100 = hundred', y / 400 = fourHundred' at step start
  omega

lemma words_eq {d : Nat} (year : y < 4000000) (month : m < 4000000) (since : 719499 ≤ formula y m d)
    :
    (((UInt32.ofNat y / 4 - UInt32.ofNat y / 100 + UInt32.ofNat y / 400 +
      367 * UInt32.ofNat m / 12 + UInt32.ofNat d + UInt32.ofNat y * 365 - 719499) * 24 +
        UInt32.ofNat hour) * 60 + UInt32.ofNat min) * 60 + UInt32.ofNat sec =
      UInt32.ofNat ((((formula y m d - 719499) * 24 + hour) * 60 + min) * 60 + sec) := by
  have four : UInt32.ofNat y / 4 = UInt32.ofNat (y / 4) :=
    (UInt32.ofNat_div (by omega) (by decide)).symm
  have hundred : UInt32.ofNat y / 100 = UInt32.ofNat (y / 100) :=
    (UInt32.ofNat_div (by omega) (by decide)).symm
  have fourHundred : UInt32.ofNat y / 400 = UInt32.ofNat (y / 400) :=
    (UInt32.ofNat_div (by omega) (by decide)).symm
  have months : 367 * UInt32.ofNat m = UInt32.ofNat (367 * m) := (UInt32.ofNat_mul 367 m).symm
  have twelfth : UInt32.ofNat (367 * m) / 12 = UInt32.ofNat (367 * m / 12) :=
    (UInt32.ofNat_div (by omega) (by decide)).symm
  have days : UInt32.ofNat (formula y m d - 719499) = UInt32.ofNat (formula y m d) - 719499 :=
    UInt32.ofNat_sub since
  have less : y / 100 ≤ y / 4 := by omega
  rw [four, hundred, fourHundred, months, twelfth, ← UInt32.ofNat_sub less]
  rw [UInt32.ofNat_add, UInt32.ofNat_mul, UInt32.ofNat_add, UInt32.ofNat_mul, UInt32.ofNat_add,
    UInt32.ofNat_mul, days, formula, UInt32.ofNat_add, UInt32.ofNat_mul, UInt32.ofNat_add,
    UInt32.ofNat_add, UInt32.ofNat_add]
  rfl

lemma ofInt_natCast (n : Nat) : UInt32.ofInt n = UInt32.ofNat n := by
  have small : ((n : Int) % 2 ^ 32).toNat = n % 2 ^ 32 := rfl
  rw [UInt32.ofInt, small]
  exact UInt32.ofNat_mod_size

lemma early_iff (first : 1 ≤ m) (last : m ≤ 12) :
    (UInt32.ofNat m - 2).toInt32 ≤ 0 ↔ m ≤ 2 := by
  interval_cases m <;> decide

lemma mktime_formula {d : Date} (low : 1970 ≤ d.year) (same : formula y m d.day = d.number - 29)
    (year : y < 4000000) (month : m < 4000000) (fits : seconds d hour min sec < 2 ^ 32) :
    ((((UInt32.ofNat y / 4 - UInt32.ofNat y / 100 + UInt32.ofNat y / 400 +
      367 * UInt32.ofNat m / 12 + UInt32.ofNat d.day + UInt32.ofNat y * 365 - 719499) * 24 +
        UInt32.ofNat hour) * 60 + UInt32.ofNat min) * 60 + UInt32.ofNat sec).toNat =
      seconds d hour min sec := by
  have since := epoch_le low
  rw [epoch_number] at since
  have days : formula y m d.day - 719499 = d.number - epoch.number := by
    rw [same, epoch_number]
    omega
  have sum : (((d.number - epoch.number) * 24 + hour) * 60 + min) * 60 + sec =
      seconds d hour min sec := by
    rw [seconds]
    omega
  rw [words_eq year month (by omega), days, sum]
  exact UInt32.toNat_ofNat_of_lt' fits

lemma mktime_eq (valid : d.Valid) (low : 1970 ≤ d.year) (fits : seconds d hour min sec < 2 ^ 32) :
    (rtcTime d hour min sec).mktime.toNat = seconds d hour min sec := by
  obtain ⟨first, last⟩ := valid.month
  have some : 1 ≤ d.year := by omega
  have year : d.year < 4000000 := by
    have since := Date.number_ge d
    have years := yearStart_ge low
    have bound := fits
    rw [yearStart_epoch] at years
    rw [seconds, epoch_number] at bound
    omega
  rw [RtcTime.mktime, rtcTime]
  rw [ofInt_natCast, ofInt_natCast, ofInt_natCast, ofInt_natCast, ofInt_natCast, ofInt_natCast,
    mktime]
  by_cases early : d.month ≤ 2
  · have february := (early_iff first last).mpr early
    have before : UInt32.ofNat d.year - 1 = UInt32.ofNat (d.year - 1) :=
      (UInt32.ofNat_sub some).symm
    have behind : UInt32.ofNat d.month - 2 + 12 = UInt32.ofNat (d.month + 10) := by
      rw [UInt32.ofNat_add]
      interval_cases d.month <;> decide
    rw [if_pos february, if_pos february, before, behind]
    exact mktime_formula low (formula_early valid some early) (by omega) (by omega) fits
  · have march := mt (early_iff first last).mp early
    have late : 2 < d.month := Nat.lt_of_not_le early
    have behind : UInt32.ofNat d.month - 2 = UInt32.ofNat (d.month - 2) :=
      (UInt32.ofNat_sub (le_of_lt late)).symm
    rw [if_neg march, if_neg march, behind]
    exact mktime_formula low (formula_late valid some late) year (by omega) fits

lemma after_year (n : Nat) : 1970 ≤ (epoch.after n).year := by
  obtain ⟨valid, number⟩ := epoch_valid.after n
  refine Nat.le_of_not_lt fun early => ?_
  have last := valid.number_lt
  have start : yearStart ((epoch.after n).year + 1) ≤ yearStart 1970 := yearStart_le early
  rw [yearStart_epoch] at start
  rw [number, epoch_number] at last
  omega

lemma timeAfter_seconds (t : Nat) :
    seconds (epoch.after (t / 86400)) (t / 3600 % 24) (t / 60 % 60) (t % 60) = t := by
  obtain ⟨-, number⟩ := epoch_valid.after (t / 86400)
  rw [seconds, number, Nat.add_sub_cancel_left]
  omega

lemma rtcTime_eq (valid : d.Valid) (low : 1970 ≤ d.year) (hours : hour < 24) (mins : min < 60)
    (secs : sec < 60) :
    rtcTime d hour min sec = timeAfter (seconds d hour min sec) := by
  have since := epoch_le low
  have days : seconds d hour min sec / 86400 = d.number - epoch.number := by
    rw [seconds]
    omega
  have date : d = epoch.after (seconds d hour min sec / 86400) := by
    refine epoch_valid.eq_after valid ?_
    rw [days]
    omega
  have hour' : seconds d hour min sec / 3600 % 24 = hour := by
    rw [seconds]
    omega
  have min' : seconds d hour min sec / 60 % 60 = min := by
    rw [seconds]
    omega
  have sec' : seconds d hour min sec % 60 = sec := by
    rw [seconds]
    omega
  rw [timeAfter, ← date, hour', min', sec']

/-- For 2 ^ 31 seconds `to_tm` gives the date, the time and the day of the week, `mktime` of them is
the number of seconds, and `to_tm` of `mktime` of a date and time is these again. -/
theorem toTm_mktime :
    (∀ t : Nat, t < 2 ^ 31 → toTm t = some (timeAfter t) ∧ (timeAfter t).mktime.toNat = t) ∧
      ∀ (d : Date) (hour min sec : Nat), d.Valid → 1970 ≤ d.year → hour < 24 → min < 60 →
        sec < 60 → seconds d hour min sec < 2 ^ 31 →
          toTm (rtcTime d hour min sec).mktime.toNat = some (rtcTime d hour min sec) := by
  constructor
  · intro t range
    refine ⟨toTm_eq range, ?_⟩
    obtain ⟨valid, -⟩ := epoch_valid.after (t / 86400)
    have same := timeAfter_seconds t
    have fits : t < 2 ^ 32 := Nat.lt_trans range (by decide)
    rw [timeAfter, mktime_eq valid (after_year _) (same.symm ▸ fits), same]
  · intro d hour min sec valid low hours mins secs range
    have fits : seconds d hour min sec < 2 ^ 32 := Nat.lt_trans range (by decide)
    rw [mktime_eq valid low fits, toTm_eq range, ← rtcTime_eq valid low hours mins secs]

/-- The last second of 29 February 2000, and the first of 1 March. -/
theorem toTm_mktime_leap :
    toTm ((951868799 : Nat) : Int) = some (timeAfter 951868799) ∧
      toTm (rtcTime ⟨2000, 3, 1⟩ 0 0 0).mktime.toNat = some (rtcTime ⟨2000, 3, 1⟩ 0 0 0) := by
  obtain ⟨forth, back⟩ := toTm_mktime
  refine ⟨(forth 951868799 (by decide)).1, back ⟨2000, 3, 1⟩ 0 0 0 ?_ (by decide) (by decide)
    (by decide) (by decide) ?_⟩
  · exact ⟨⟨by decide, by decide⟩, by decide, by decide⟩
  · have start : yearStart 2000 + 1999 / 100 = 366 + 365 * 1999 + 1999 / 4 + 1999 / 400 :=
      yearStart_succ 1999
    have months : monthStart 2000 3 = 60 := by decide
    rw [seconds, epoch_number, Date.number]
    dsimp only
    rw [months]
    omega

end Rtc
