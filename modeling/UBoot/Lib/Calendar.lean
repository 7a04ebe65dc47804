import Mathlib.Data.Nat.Basic
import Mathlib.Logic.Function.Iterate

/-!
# The Gregorian calendar

Dates, the day behind a date, and the number of a day.
-/

namespace Calendar

/-- Years are leap years if they are divisible by 4, except when they are divisible by 100 unless
they are divisible by 400. -/
def IsLeap (year : Nat) : Prop := year % 4 = 0 ∧ (year % 100 ≠ 0 ∨ year % 400 = 0)

instance (year : Nat) : Decidable (IsLeap year) := inferInstanceAs (Decidable (_ ∧ _))

def yearDays (year : Nat) : Nat := if IsLeap year then 366 else 365

def monthDays (year month : Nat) : Nat :=
  if month = 2 then (if IsLeap year then 29 else 28)
  else if month = 4 ∨ month = 6 ∨ month = 9 ∨ month = 11 then 30
  else if month = 0 then 0
  else 31

@[ext] structure Date where
  year : Nat
  month : Nat
  day : Nat
  deriving DecidableEq

structure Date.Valid (d : Date) : Prop where
  month : 1 ≤ d.month ∧ d.month ≤ 12
  day : 1 ≤ d.day ∧ d.day ≤ monthDays d.year d.month

def Date.next (d : Date) : Date :=
  if d.day < monthDays d.year d.month then { d with day := d.day + 1 }
  else if d.month < 12 then ⟨d.year, d.month + 1, 1⟩
  else ⟨d.year + 1, 1, 1⟩

def Date.after (d : Date) (n : Nat) : Date := Date.next^[n] d

def yearStart : Nat → Nat
  | 0 => 0
  | year + 1 => yearStart year + yearDays year

def monthStart (year : Nat) : Nat → Nat
  | 0 => 0
  | month + 1 => monthStart year month + monthDays year month

def Date.number (d : Date) : Nat := yearStart d.year + monthStart d.year d.month + (d.day - 1)

lemma yearDays_ge (year : Nat) : 365 ≤ yearDays year := by
  rw [yearDays]
  split_ifs
  · exact Nat.le_succ 365
  · exact Nat.le_refl 365

lemma monthDays_pos {year month : Nat} (some : 1 ≤ month) : 0 < monthDays year month := by
  rw [monthDays]
  split_ifs <;> omega

lemma yearStart_le {year later : Nat} (before : year ≤ later) :
    yearStart year ≤ yearStart later := by
  induction before with
  | refl => exact le_rfl
  | step _ ih => exact Nat.le_add_right_of_le ih

lemma yearStart_ge {year later : Nat} (before : year ≤ later) :
    yearStart year + 365 * (later - year) ≤ yearStart later := by
  induction before with
  | refl => rw [Nat.sub_self, Nat.mul_zero, Nat.add_zero]
  | @step later before ih =>
    have more := yearDays_ge later
    rw [yearStart]
    omega

lemma monthStart_le {year month later : Nat} (before : month ≤ later) :
    monthStart year month ≤ monthStart year later := by
  induction before with
  | refl => exact le_rfl
  | step _ ih => exact Nat.le_add_right_of_le ih

lemma monthStart_year (year : Nat) : monthStart year 13 = yearDays year := by
  simp only [monthStart, monthDays, yearDays]
  by_cases leap : IsLeap year
  · simp only [if_pos leap]
    rfl
  · simp only [if_neg leap]
    rfl

lemma yearStart_succ (year : Nat) :
    yearStart (year + 1) + year / 100 = 366 + 365 * year + year / 4 + year / 400 := by
  induction year with
  | zero => rfl
  | succ year ih =>
    rw [yearStart, yearDays]
    split_ifs with leap
    · rw [IsLeap] at leap
      omega
    · rw [IsLeap] at leap
      omega

variable {d e : Date}

lemma Date.Valid.inside (valid : d.Valid) :
    monthStart d.year d.month + (d.day - 1) < monthStart d.year (d.month + 1) := by
  obtain ⟨first, last⟩ := valid.day
  rw [monthStart]
  omega

lemma Date.Valid.number_lt (valid : d.Valid) : d.number < yearStart (d.year + 1) := by
  have inside := valid.inside
  have months : monthStart d.year (d.month + 1) ≤ monthStart d.year 13 :=
    monthStart_le (Nat.succ_le_succ valid.month.2)
  rw [monthStart_year] at months
  rw [yearStart, number]
  omega

lemma Date.number_ge (d : Date) : yearStart d.year ≤ d.number := by
  rw [number]
  omega

lemma Date.Valid.eq_of_number (valid : d.Valid) (valid' : e.Valid) (same : d.number = e.number) :
    d = e := by
  have year : d.year = e.year := by
    rcases lt_trichotomy d.year e.year with before | same' | after
    · have start : yearStart (d.year + 1) ≤ yearStart e.year := yearStart_le before
      have last := valid.number_lt
      have first := number_ge e
      omega
    · exact same'
    · have start : yearStart (e.year + 1) ≤ yearStart d.year := yearStart_le after
      have last := valid'.number_lt
      have first := number_ge d
      omega
  have days : monthStart d.year d.month + (d.day - 1) =
      monthStart e.year e.month + (e.day - 1) := by
    rw [number, number, year] at same
    rw [year]
    omega
  have month : d.month = e.month := by
    rcases lt_trichotomy d.month e.month with before | same' | after
    · have start : monthStart e.year (d.month + 1) ≤ monthStart e.year e.month :=
        monthStart_le before
      have last := valid.inside
      rw [year] at last days
      omega
    · exact same'
    · have start : monthStart e.year (e.month + 1) ≤ monthStart e.year d.month :=
        monthStart_le after
      have last := valid'.inside
      rw [year] at days
      omega
  refine Date.ext year month ?_
  have first := valid.day.1
  have first' := valid'.day.1
  rw [year, month] at days
  omega

lemma Date.Valid.next (valid : d.Valid) : d.next.Valid := by
  rw [Date.next]
  split_ifs with day month
  · exact ⟨valid.month, Nat.le_add_left _ _, day⟩
  · exact ⟨⟨Nat.le_add_left _ _, month⟩, Nat.le_refl 1, monthDays_pos (Nat.le_add_left _ _)⟩
  · exact ⟨⟨Nat.le_refl 1, Nat.le_add_left 1 11⟩, Nat.le_refl 1, monthDays_pos (Nat.le_refl 1)⟩

lemma Date.Valid.number_next (valid : d.Valid) : d.next.number = d.number + 1 := by
  obtain ⟨first, last⟩ := valid.day
  obtain ⟨some, most⟩ := valid.month
  rw [Date.next]
  split_ifs with day month
  · rw [number, number]
    dsimp only
    omega
  · rw [number, number]
    dsimp only
    rw [monthStart]
    omega
  · have december : d.month = 12 := by omega
    have months := monthStart_year d.year
    rw [monthStart, ← december] at months
    rw [number, number]
    dsimp only
    rw [yearStart, ← months]
    change _ + (0 + 0) + _ = _
    omega

lemma Date.Valid.after (valid : d.Valid) (n : Nat) :
    (d.after n).Valid ∧ (d.after n).number = d.number + n := by
  induction n with
  | zero => exact ⟨valid, rfl⟩
  | succ n ih =>
    obtain ⟨valid', number'⟩ := ih
    have step : d.after (n + 1) = (d.after n).next := Function.iterate_succ_apply' _ _ _
    rw [step]
    exact ⟨valid'.next, by rw [valid'.number_next, number', Nat.add_assoc]⟩

lemma Date.Valid.eq_after (valid : d.Valid) (valid' : e.Valid) {n : Nat}
    (number : e.number = d.number + n) : e = d.after n := by
  obtain ⟨valid'', number'⟩ := valid.after n
  exact valid'.eq_of_number valid'' (number.trans number'.symm)

end Calendar
