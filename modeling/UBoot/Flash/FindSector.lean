import UBoot.Flash.BankTable
import UBoot.Lib.Runs

/-!
# The sector of an address (drivers/mtd/cfi_flash.c)

`find_sector` starts from the sector that it has found before, which may have been in another bank.
-/

namespace FlashBanks

open Runs

/-- "while ((info->start[sector] < addr) && (sector < info->sector_count - 1))", where `left` is the
distance to the last sector. -/
def upwards (info : Bank) (addr : UInt32) : (left sector : Nat) → Nat
  | 0, sector => sector
  | left + 1, sector =>
    if info.start sector < addr then upwards info addr left (sector + 1) else sector

/-- "while ((info->start[sector] > addr) && (sector > 0))" -/
def downwards (info : Bank) (addr : UInt32) : (sector : Nat) → Nat
  | 0 => 0
  | sector + 1 => if addr < info.start (sector + 1) then downwards info addr sector else sector + 1

/-- `find_sector`, which is `saved_sector` of the next call as well. -/
def findSector (info : Bank) (addr : UInt32) (savedSector : Nat) : Nat :=
  downwards info addr (upwards info addr (info.sectorCount.toNat - 1 - savedSector) savedSector)

def findSectors : (savedSector : Nat) → List (Bank × UInt32) → List Nat
  | _, [] => []
  | savedSector, (info, addr) :: calls =>
    findSector info addr savedSector :: findSectors (findSector info addr savedSector) calls

structure Bank.Searched (info : Bank) (addr : UInt32) : Prop where
  nonempty : 0 < info.sectorCount.toNat
  increasing : ∀ i, i + 1 < info.sectorCount.toNat →
    (info.start i).toNat < (info.start (i + 1)).toNat
  low : (info.start 0).toNat ≤ addr.toNat
  high : addr.toNat < info.stop

structure Bank.Holds (info : Bank) (addr : UInt32) (i : Nat) : Prop where
  less : i < info.sectorCount.toNat
  low : (info.start i).toNat ≤ addr.toNat
  high : addr.toNat < info.sectorStop i

def Bank.SectorOf (info : Bank) (addr : UInt32) (i : Nat) : Prop :=
  info.Holds addr i ∧ ∀ j, info.Holds addr j → j = i

/-- All entries of the table from the end of the bank to the saved sector are above the address. -/
def Clear (savedSector : Nat) (call : Bank × UInt32) : Prop :=
  ∀ j, j ≤ savedSector → call.1.sectorCount.toNat ≤ j → call.2 < call.1.start j

instance Clear.decidable (savedSector : Nat) (call : Bank × UInt32) :
    Decidable (Clear savedSector call) :=
  inferInstanceAs (Decidable (∀ j, j ≤ savedSector → _ → _))

def saves (savedSector : Nat) (call : Bank × UInt32) : Option Nat :=
  some (findSector call.1 call.2 savedSector)

section
variable {info : Bank} {addr : UInt32}

lemma upwards_spec (left sector : Nat) :
    sector ≤ upwards info addr left sector ∧ upwards info addr left sector ≤ sector + left ∧
      (upwards info addr left sector = sector + left ∨
        addr.toNat ≤ (info.start (upwards info addr left sector)).toNat) := by
  induction left generalizing sector with
  | zero => exact ⟨Nat.le_refl _, Nat.le_refl _, .inl rfl⟩
  | succ left ih =>
    rw [upwards]
    by_cases below : info.start sector < addr
    · rw [if_pos below]
      obtain ⟨more, less, stopped⟩ := ih (sector + 1)
      refine ⟨by omega, by omega, stopped.imp_left fun all => by omega⟩
    · rw [if_neg below]
      have above : addr.toNat ≤ (info.start sector).toNat :=
        Nat.not_lt.mp fun less => below (UInt32.lt_iff_toNat_lt.mpr less)
      exact ⟨Nat.le_refl _, by omega, .inr above⟩

lemma downwards_spec (sector : Nat) :
    downwards info addr sector ≤ sector ∧
      (downwards info addr sector = 0 ∨
        (info.start (downwards info addr sector)).toNat ≤ addr.toNat) ∧
      ∀ j, downwards info addr sector < j → j ≤ sector →
        addr.toNat < (info.start j).toNat := by
  induction sector with
  | zero => exact ⟨Nat.le_refl 0, .inl rfl, fun j more less => by omega⟩
  | succ sector ih =>
    rw [downwards]
    by_cases above : addr < info.start (sector + 1)
    · rw [if_pos above]
      obtain ⟨less, stopped, passed⟩ := ih
      refine ⟨by omega, stopped, fun j more less => ?_⟩
      rcases Nat.lt_or_eq_of_le less with inside | rfl
      · exact passed j more (Nat.le_of_lt_succ inside)
      · exact UInt32.lt_iff_toNat_lt.mp above
    · rw [if_neg above]
      have below : (info.start (sector + 1)).toNat ≤ addr.toNat :=
        Nat.not_lt.mp fun less => above (UInt32.lt_iff_toNat_lt.mpr less)
      exact ⟨Nat.le_refl _, .inr below, fun j more less => by omega⟩

lemma Bank.Searched.sectorStop_le (searched : info.Searched addr) {i j : Nat} (less : i < j)
    (inside : j < info.sectorCount.toNat) : info.sectorStop i ≤ (info.start j).toNat := by
  rw [Bank.sectorStop, if_neg (by omega)]
  induction j with
  | zero => omega
  | succ j ih =>
    rcases Nat.lt_succ_iff_lt_or_eq.mp less with before | rfl
    · exact Nat.le_trans (ih before (by omega)) (Nat.le_of_lt (searched.increasing j inside))
    · exact Nat.le_refl _

lemma Bank.Searched.unique (searched : info.Searched addr) {i j : Nat} (here : info.Holds addr i)
    (there : info.Holds addr j) : j = i := by
  rcases Nat.lt_trichotomy i j with less | same | more
  · have := searched.sectorStop_le less there.less
    have := here.high
    have := there.low
    omega
  · exact same.symm
  · have := searched.sectorStop_le more here.less
    have := there.high
    have := here.low
    omega

lemma Bank.Searched.holds_downwards (searched : info.Searched addr) {sector : Nat}
    (less : downwards info addr sector < info.sectorCount.toNat)
    (started : downwards info addr sector < sector ∨ sector + 1 = info.sectorCount.toNat ∨
      addr.toNat ≤ (info.start sector).toNat) :
    info.Holds addr (downwards info addr sector) := by
  obtain ⟨down, stopped, passed⟩ := @downwards_spec info addr sector
  have low : (info.start (downwards info addr sector)).toNat ≤ addr.toNat := by
    rcases stopped with zero | low
    · rw [zero]
      exact searched.low
    · exact low
  refine ⟨less, low, ?_⟩
  rw [Bank.sectorStop]
  by_cases last : downwards info addr sector + 1 = info.sectorCount.toNat
  · rw [if_pos last]
    exact searched.high
  rw [if_neg last]
  rcases started with further | end_of_bank | at_start
  · exact passed _ (Nat.lt_succ_self _) further
  · exact passed _ (Nat.lt_succ_self _) (by omega)
  · by_cases further : downwards info addr sector < sector
    · exact passed _ (Nat.lt_succ_self _) further
    have same : downwards info addr sector = sector := by omega
    have next := searched.increasing (downwards info addr sector) (by omega)
    rw [same] at next ⊢
    omega

lemma findSector_right_iff (searched : info.Searched addr) (savedSector : Nat) :
    info.SectorOf addr (findSector info addr savedSector) ↔ Clear savedSector (info, addr) := by
  have count := searched.nonempty
  have right_of_less (less : findSector info addr savedSector < info.sectorCount.toNat) :
      info.SectorOf addr (findSector info addr savedSector) := by
    obtain ⟨more, bound, stopped⟩ :=
      @upwards_spec info addr (info.sectorCount.toNat - 1 - savedSector) savedSector
    have holds : info.Holds addr (findSector info addr savedSector) := by
      refine searched.holds_downwards less ?_
      rcases stopped with all | above
      · rw [findSector] at less
        rw [all] at less ⊢
        omega
      · exact .inr (.inr above)
    exact ⟨holds, fun j there => searched.unique holds there⟩
  obtain ⟨more, bound, -⟩ :=
    @upwards_spec info addr (info.sectorCount.toNat - 1 - savedSector) savedSector
  obtain ⟨down, stopped, passed⟩ := @downwards_spec info addr
    (upwards info addr (info.sectorCount.toNat - 1 - savedSector) savedSector)
  constructor
  · intro right j le behind
    have less := right.1.less
    exact UInt32.lt_iff_toNat_lt.mpr (passed j (Nat.lt_of_lt_of_le less behind) (by omega))
  · intro clear
    refine right_of_less (Nat.not_le.mp fun behind => ?_)
    rw [findSector] at behind
    have above := UInt32.lt_iff_toNat_lt.mp (clear _ (by omega) behind)
    rcases stopped with zero | below
    · omega
    · exact absurd below (Nat.not_le.mpr above)

end

/-- All calls find the sector of their address if and only if none of them starts behind the end of
its bank, at an entry that is not above the address or in front of such an entry. -/
theorem find_sector_right_iff (calls : List (Bank × UInt32))
    (searched : ∀ call ∈ calls, call.1.Searched call.2) :
    List.Forall₂ (fun call i => call.1.SectorOf call.2 i) calls (findSectors 0 calls) ↔
      StepsMeet saves Clear 0 calls := by
  generalize 0 = savedSector
  induction calls generalizing savedSector with
  | nil => exact iff_of_true .nil trivial
  | cons call calls ih =>
    obtain ⟨here, later⟩ := List.forall_mem_cons.mp searched
    rw [findSectors, List.forall₂_cons, findSector_right_iff here, ih later,
      stepsMeet_cons (rfl : saves savedSector call = _)]

def twoSectors : Bank :=
  ⟨0x20000, 2, 0, fun i => if i = 1 then 0x10000 else 0, fun _ => 0⟩

def oneSector : Bank :=
  ⟨0x10000, 1, 0, fun i => if i = 0 then 0x20000 else 0, fun _ => 0⟩

lemma twoSectors_searched {addr : UInt32} (inside : addr.toNat < 0x20000) :
    twoSectors.Searched addr where
  nonempty := by decide
  increasing i less := by
    obtain rfl : i = 0 := by
      change i + 1 < 2 at less
      omega
    decide
  low := Nat.zero_le _
  high := inside

/-- Within one bank the sectors are found in any order. -/
theorem twoSectors_found :
    List.Forall₂ (fun call i => call.1.SectorOf call.2 i)
      [(twoSectors, 0x10004), (twoSectors, 0xfffc), (twoSectors, 0x10000)] [1, 0, 1] :=
  (find_sector_right_iff [(twoSectors, 0x10004), (twoSectors, 0xfffc), (twoSectors, 0x10000)]
    (by
      intro call member
      simp only [List.mem_cons, List.not_mem_nil, or_false] at member
      rcases member with rfl | rfl | rfl <;> exact twoSectors_searched (by decide))).mpr (by decide)

/-- The sector that was found in one bank is none of the next. -/
theorem other_bank_sector : oneSector.Searched 0x20000 ∧
    findSectors 0 [(twoSectors, 0x10000), (oneSector, 0x20000)] = [1, 1] ∧
    ¬oneSector.SectorOf 0x20000 1 := by
  refine ⟨⟨by decide, fun i less => ?_, by decide, by decide⟩, by decide, fun right => ?_⟩
  · change i + 1 < 1 at less
    omega
  · exact absurd right.1.less (by decide)

end FlashBanks
