import UBoot.Flash.SectErase
import UBoot.Lib.NumberText

/-!
# Sectors of a bank by their numbers (common/cmd_flash.c)

`abbrev_spec` reads `N:SF` and `N:SF-SL` for `erase` and `protect`. The numbers are read as
`unsigned long` and kept as `int`.
-/

namespace AbbrevSpec

open FlashBanks
open NumberText

/-- What `abbrev_spec` returns: 0, -1, or 1 with the place of the bank in the table and the first
and the last sector. -/
inductive Abbrev where
  | absent
  | bad
  | range (info : Nat) (first last : Int)
  deriving DecidableEq

def asInt (n : UInt32) : Int := n.toInt32.toInt

/-- A number with nothing behind it: `ep` is not where it started, and it is at the end. -/
def number (str : List UInt8) : Option Int :=
  if ReadWhole str then some (asInt (simpleStrtoul str 10).1) else none

def sectors (fp : Bank) (str : List UInt8) (p : Option (List UInt8)) : Option (Int × Int) := do
  let first ← number str
  if first ≥ fp.sectorCount.toNat then none
  else
    match p with
    | none => some (first, first)
    | some p => do
      let last ← number p
      if last < first ∨ last ≥ fp.sectorCount.toNat then none else some (first, last)

def bankOf (banks : List Bank) (str : List UInt8) : Option Nat := do
  let bank ← number str
  if bank < 1 ∨ bank > banks.length then none
  else
    let fp ← banks[(bank - 1).toNat]?
    if fp.flashId = flashUnknown then none else some (bank - 1).toNat

def abbrevSpec (banks : List Bank) (str : List UInt8) : Abbrev :=
  match cutAt 58 str with
  | none => .absent
  | some (str, p) =>
    match bankOf banks str with
    | none => .bad
    | some info =>
      match banks[info]? with
      | none => .bad
      | some fp =>
        let (str, p) := ((cutAt 45 p).map fun r => (r.1, some r.2)).getD (p, none)
        match sectors fp str p with
        | none => .bad
        | some (first, last) => .range info first last

def indices (first last : Int) : List Int :=
  (List.range (last - first + 1).toNat).map fun (i : Nat) => first + i

/-- The sectors that `flash_erase` looks up in `info->protect` and `info->start`. -/
def eraseIndices (info : Bank) (sFirst sLast : Int) : List Int :=
  if info.flashId = flashUnknown then []
  else if sFirst < 0 ∨ sFirst > sLast then []
  else if ¬ SectRange.Amd info then []
  else indices sFirst sLast

def doFlerase (banks : List Bank) (str : List UInt8) : List (Nat × Int) :=
  match abbrevSpec banks str with
  | .range info first last =>
    (banks[info]?.elim [] fun fp => eraseIndices fp first last).map (info, ·)
  | _ => []

def doProtect (banks : List Bank) (str : List UInt8) : List (Nat × Int) :=
  match abbrevSpec banks str with
  | .range info first last => (indices first last).map (info, ·)
  | _ => []

inductive Spec (str : List UInt8) (n sf : Nat) : Nat → Prop where
  | one (bank first : List UInt8) : str = bank ++ 58 :: first → DecimalNumber bank n →
      DecimalNumber first sf → Spec str n sf sf
  | range (bank first last : List UInt8) (sl : Nat) : str = bank ++ 58 :: (first ++ 45 :: last) →
      DecimalNumber bank n → DecimalNumber first sf → DecimalNumber last sl → Spec str n sf sl

def Inside (banks : List Bank) (x : Nat × Int) : Prop :=
  ∃ fp, banks[x.1]? = some fp ∧ 0 ≤ x.2 ∧ x.2 < fp.sectorCount.toNat

structure Sound (banks : List Bank) (str : List UInt8) : Prop where
  exact_values : ∀ info first last, abbrevSpec banks str = .range info first last →
    ∃ n sf sl : Nat, Spec str n sf sl ∧ 1 ≤ n ∧ n ≤ banks.length ∧ sf ≤ sl ∧
      (∃ fp, banks[n - 1]? = some fp ∧ sl < fp.sectorCount.toNat) ∧
      info = n - 1 ∧ first = sf ∧ last = sl
  erase : ∀ x ∈ doFlerase banks str, Inside banks x
  protect : ∀ x ∈ doProtect banks str, Inside banks x

def read (s : List UInt8) : Int := asInt (UInt32.ofNat (strtoulValue s 10))

/-- Digits only, and their number is the `int`: it is below 2^31. -/
def Exact (s : List UInt8) : Prop := (∀ c ∈ s, isDigit c) ∧ read s = strtoulValue s 10

/-- The parts of a string: before the first colon, and before and behind the first dash after
it. -/
inductive Parts (str : List UInt8) : List UInt8 → List UInt8 → Option (List UInt8) → Prop where
  | one (bank first : List UInt8) : str = bank ++ 58 :: first → 58 ∉ bank → 45 ∉ first →
      Parts str bank first none
  | range (bank first last : List UInt8) : str = bank ++ 58 :: (first ++ 45 :: last) → 58 ∉ bank →
      45 ∉ first → Parts str bank first (some last)

/-- The range checks, as they are made on `int`. -/
structure Passes (banks : List Bank) (bank first last : List UInt8) : Prop where
  whole : ReadWhole bank ∧ ReadWhole first ∧ ReadWhole last
  bank_low : 1 ≤ read bank
  ordered : read first ≤ read last
  top : ∃ fp, banks[(read bank - 1).toNat]? = some fp ∧ fp.Known ∧
    read last < fp.sectorCount.toNat

/-- No text passes for another number than it is: what passes the checks is in base ten and is not
changed as an `int`. -/
def NoDisguise (banks : List Bank) (str : List UInt8) : Prop :=
  ∀ bank first last, Parts str bank first last → Passes banks bank first (last.getD first) →
    Exact bank ∧ Exact first ∧ Exact (last.getD first)

variable {x : Int} {str bank first : List UInt8} {banks : List Bank} {last : Option (List UInt8)}

lemma number_eq_some {s : List UInt8} :
    number s = some x ↔ ReadWhole s ∧ x = read s := by
  have value : asInt (simpleStrtoul s 10).1 = read s :=
    congrArg asInt (simpleStrtoul_value s 10)
  unfold number
  by_cases whole : ReadWhole s
  · rw [if_pos whole, value, Option.some_inj, and_iff_right whole]
    exact eq_comm
  · rw [if_neg whole]
    exact iff_of_false (Option.some_ne_none x).symm fun both => whole both.1

lemma sectors_eq_some {fp : Bank} {p : Option (List UInt8)} {y : Int} :
    sectors fp str p = some (x, y) ↔
      (ReadWhole str ∧ ReadWhole (p.getD str)) ∧ read str ≤ read (p.getD str) ∧
        read (p.getD str) < fp.sectorCount.toNat ∧ x = read str ∧ y = read (p.getD str) := by
  unfold sectors
  cases first : number str with
  | none =>
    refine iff_of_false (Option.some_ne_none _).symm fun ⟨whole, _⟩ => ?_
    rw [number_eq_some.mpr ⟨whole.1, rfl⟩] at first
    cases first
  | some a =>
    obtain ⟨whole, rfl⟩ := number_eq_some.mp first
    rw [Option.bind_eq_bind, Option.bind_some]
    by_cases high : read str ≥ fp.sectorCount.toNat
    · rw [if_pos high]
      exact iff_of_false (Option.some_ne_none _).symm fun ⟨_, order, low, _⟩ => by omega
    rw [if_neg high]
    cases p with
    | none =>
      dsimp only [Option.getD_none]
      rw [Option.some_inj, Prod.mk.injEq, and_iff_right (And.intro whole whole),
        and_iff_right (Int.le_refl _), and_iff_right (Int.not_le.mp high)]
      exact and_congr eq_comm eq_comm
    | some p =>
      dsimp only [Option.getD_some]
      cases second : number p with
      | none =>
        refine iff_of_false (Option.some_ne_none _).symm fun ⟨both, _⟩ => ?_
        rw [number_eq_some.mpr ⟨both.2, rfl⟩] at second
        cases second
      | some b =>
        obtain ⟨whole', rfl⟩ := number_eq_some.mp second
        rw [Option.bind_some, and_iff_right (And.intro whole whole')]
        by_cases wrong : read p < read str ∨ read p ≥ fp.sectorCount.toNat
        · rw [if_pos wrong]
          exact iff_of_false (Option.some_ne_none _).symm fun ⟨order, low, _⟩ => by omega
        obtain ⟨order, low⟩ := not_or.mp wrong
        rw [if_neg wrong, Option.some_inj, Prod.mk.injEq, and_iff_right (Int.not_lt.mp order),
          and_iff_right (Int.not_le.mp low)]
        exact and_congr eq_comm eq_comm

lemma bankOf_eq_some {info : Nat} :
    bankOf banks str = some info ↔ ReadWhole str ∧ 1 ≤ read str ∧
      (∃ fp, banks[(read str - 1).toNat]? = some fp ∧ fp.Known) ∧
      info = (read str - 1).toNat := by
  unfold bankOf
  cases first : number str with
  | none =>
    refine iff_of_false (Option.some_ne_none _).symm fun ⟨whole, _⟩ => ?_
    rw [number_eq_some.mpr ⟨whole, rfl⟩] at first
    cases first
  | some a =>
    obtain ⟨whole, rfl⟩ := number_eq_some.mp first
    rw [Option.bind_eq_bind, Option.bind_some, and_iff_right whole]
    by_cases wrong : read str < 1 ∨ read str > banks.length
    · rw [if_pos wrong]
      refine iff_of_false (Option.some_ne_none _).symm fun ⟨low, ⟨fp, found, _⟩, _⟩ => ?_
      have := (List.getElem?_eq_some_iff.mp found).1
      omega
    rw [if_neg wrong, and_iff_right (by omega)]
    cases found : banks[(read str - 1).toNat]? with
    | none =>
      refine iff_of_false (Option.some_ne_none _).symm fun ⟨⟨fp, other, _⟩, _⟩ => ?_
      cases other
    | some fp =>
      rw [Option.bind_eq_bind, Option.bind_some]
      by_cases unknown : fp.flashId = flashUnknown
      · rw [if_pos unknown]
        refine iff_of_false (Option.some_ne_none _).symm fun ⟨⟨fp', same, known⟩, _⟩ => ?_
        cases same
        exact known unknown
      · rw [if_neg unknown, Option.some_inj, and_iff_right ⟨fp, rfl, unknown⟩]
        exact eq_comm

lemma parts_iff :
    Parts str bank first last ↔ ∃ p, cutAt 58 str = some (bank, p) ∧
      ((cutAt 45 p).map fun r => (r.1, some r.2)).getD (p, none) = (first, last) := by
  constructor
  · intro parts
    cases parts with
    | one split colon dash =>
      refine ⟨_, cutAt_eq_some.mpr ⟨split, colon⟩, ?_⟩
      rw [cutAt_eq_none.mpr dash]
      rfl
    | range last split colon dash =>
      refine ⟨_, cutAt_eq_some.mpr ⟨split, colon⟩, ?_⟩
      rw [cutAt_eq_some.mpr ⟨rfl, dash⟩]
      rfl
  · rintro ⟨p, before, behind⟩
    obtain ⟨split, colon⟩ := cutAt_eq_some.mp before
    cases second : cutAt 45 p with
    | none =>
      rw [second] at behind
      cases behind
      exact .one _ _ split colon (cutAt_eq_none.mp second)
    | some r =>
      rw [second] at behind
      cases behind
      obtain ⟨split', dash⟩ := cutAt_eq_some.mp second
      exact .range _ _ _ (split' ▸ split) colon dash

lemma abbrevSpec_range {info : Nat} {y : Int} :
    abbrevSpec banks str = .range info x y ↔ ∃ bank first last, Parts str bank first last ∧
      Passes banks bank first (last.getD first) ∧ info = (read bank - 1).toNat ∧
      x = read first ∧ y = read (last.getD first) := by
  simp only [parts_iff]
  constructor
  · intro accepted
    rw [abbrevSpec] at accepted
    split at accepted
    case h_1 => cases accepted
    case h_2 bank p before =>
      split at accepted
      case h_1 => cases accepted
      case h_2 place bankOf_eq =>
        obtain ⟨whole, low, ⟨fp, found, known⟩, rfl⟩ := bankOf_eq_some.mp bankOf_eq
        rw [found] at accepted
        dsimp only at accepted
        generalize behind : ((cutAt 45 p).map fun r => (r.1, some r.2)).getD (p, none) = parts
          at accepted
        obtain ⟨first, last⟩ := parts
        split at accepted
        case h_1 => cases accepted
        case h_2 sFirst sLast sectors_eq =>
          cases accepted
          obtain ⟨wholes, ordered, top, rfl, rfl⟩ := sectors_eq_some.mp sectors_eq
          exact ⟨bank, first, last, ⟨p, before, behind⟩,
            ⟨⟨whole, wholes⟩, low, ordered, fp, found, known, top⟩, rfl, rfl, rfl⟩
  · rintro ⟨bank, first, last, ⟨p, before, behind⟩, ⟨⟨whole, wholes⟩, low, ordered, fp, found,
      known, top⟩, rfl, rfl, rfl⟩
    have bankOf_eq := bankOf_eq_some.mpr ⟨whole, low, ⟨fp, found, known⟩, rfl⟩
    have sectors_eq := sectors_eq_some.mpr ⟨wholes, ordered, top, rfl, rfl⟩
    rw [abbrevSpec, before]
    dsimp only
    rw [bankOf_eq]
    dsimp only
    rw [found, behind]
    dsimp only
    rw [sectors_eq]

lemma mem_indices {first last : Int} : x ∈ indices first last ↔ first ≤ x ∧ x ≤ last := by
  rw [indices, List.mem_map]
  constructor
  · rintro ⟨i, member, rfl⟩
    have := List.mem_range.mp member
    omega
  · rintro ⟨low, high⟩
    exact ⟨(x - first).toNat, List.mem_range.mpr (by omega), by omega⟩

lemma mem_eraseIndices {fp : Bank} {first last : Int} (member : x ∈ eraseIndices fp first last) :
    0 ≤ first ∧ first ≤ x ∧ x ≤ last := by
  unfold eraseIndices at member
  split at member
  case isTrue => cases member
  case isFalse =>
    split at member
    case isTrue => cases member
    case isFalse fine =>
      split at member
      case isTrue => cases member
      case isFalse => exact ⟨by omega, mem_indices.mp member⟩

lemma doFlerase_inside (banks : List Bank) (str : List UInt8) :
    ∀ x ∈ doFlerase banks str, Inside banks x := by
  intro x member
  unfold doFlerase at member
  split at member
  case h_1 info sFirst sLast accepted =>
    obtain ⟨bank, first, last, -, passes, rfl, rfl, rfl⟩ := abbrevSpec_range.mp accepted
    obtain ⟨fp, found, -, top⟩ := passes.top
    rw [found] at member
    obtain ⟨i, erased, rfl⟩ := List.mem_map.mp member
    have bounds := mem_eraseIndices erased
    exact ⟨fp, found, by omega, by omega⟩
  case h_2 => cases member

lemma doProtect_inside_iff {info : Nat} {y : Int}
    (accepted : abbrevSpec banks str = .range info x y) :
    (∀ z ∈ doProtect banks str, Inside banks z) ↔ 0 ≤ x := by
  obtain ⟨bank, first, last, -, passes, rfl, rfl, rfl⟩ := abbrevSpec_range.mp accepted
  obtain ⟨fp, found, -, top⟩ := passes.top
  rw [doProtect, accepted]
  rw [List.forall_mem_map]
  constructor
  · intro all
    obtain ⟨-, -, low, -⟩ := all (read first) (mem_indices.mpr ⟨Int.le_refl _, passes.ordered⟩)
    exact low
  · intro low i member
    have bounds := mem_indices.mp member
    exact ⟨fp, found, Int.le_trans low bounds.1, Int.lt_of_le_of_lt bounds.2 top⟩

variable {n : Nat}

lemma Spec.parts {sf sl : Nat} (spec : Spec str n sf sl) :
    ∃ bank first last, Parts str bank first last ∧ DecimalNumber bank n ∧
      DecimalNumber first sf ∧ DecimalNumber (last.getD first) sl := by
  have no_colon {s : List UInt8} {m : Nat} (number : DecimalNumber s m) : 58 ∉ s :=
    fun member => absurd (number.digits 58 member) (by decide)
  have no_dash {s : List UInt8} {m : Nat} (number : DecimalNumber s m) : 45 ∉ s :=
    fun member => absurd (number.digits 45 member) (by decide)
  cases spec with
  | one bank first split bank_eq first_eq =>
    exact ⟨bank, first, none, .one _ _ split (no_colon bank_eq) (no_dash first_eq), bank_eq,
      first_eq, first_eq⟩
  | range bank first last sl split bank_eq first_eq last_eq =>
    exact ⟨bank, first, some last, .range _ _ _ split (no_colon bank_eq) (no_dash first_eq),
      bank_eq, first_eq, last_eq⟩

lemma Parts.unique {bank' first' : List UInt8} {last' : Option (List UInt8)}
    (parts : Parts str bank first last) (parts' : Parts str bank' first' last') :
    bank = bank' ∧ first = first' ∧ last = last' := by
  obtain ⟨p, before, behind⟩ := parts_iff.mp parts
  obtain ⟨p', before', behind'⟩ := parts_iff.mp parts'
  obtain ⟨rfl, rfl⟩ := Prod.mk.inj (Option.some.inj (before.symm.trans before'))
  obtain ⟨rfl, rfl⟩ := Prod.mk.inj (behind.symm.trans behind')
  exact ⟨rfl, rfl, rfl⟩

lemma Parts.spec (parts : Parts str bank first last) {sf sl : Nat} (bank_eq : DecimalNumber bank n)
    (first_eq : DecimalNumber first sf) (last_eq : DecimalNumber (last.getD first) sl) :
    Spec str n sf sl := by
  cases parts with
  | one split =>
    obtain rfl : sf = sl := first_eq.value.symm.trans last_eq.value
    exact .one _ _ split bank_eq first_eq
  | range last split => exact .range _ _ _ _ split bank_eq first_eq last_eq

lemma exact_of_same {s : List UInt8} (number : DecimalNumber s n) (same : read s = n) : Exact s :=
  ⟨number.digits, same.trans (congrArg Nat.cast number.strtoulValue_eq.symm)⟩

lemma sound_of_noDisguise (noDisguise : NoDisguise banks str) : Sound banks str := by
  have inside {info : Nat} {x y : Int} (accepted : abbrevSpec banks str = .range info x y) :
      ∃ n sf sl : Nat, Spec str n sf sl ∧ 1 ≤ n ∧ n ≤ banks.length ∧ sf ≤ sl ∧
        (∃ fp, banks[n - 1]? = some fp ∧ sl < fp.sectorCount.toNat) ∧
        info = n - 1 ∧ x = sf ∧ y = sl := by
    obtain ⟨bank, first, last, parts, passes, rfl, rfl, rfl⟩ := abbrevSpec_range.mp accepted
    obtain ⟨⟨bank_digits, bank_same⟩, ⟨first_digits, first_same⟩, last_digits, last_same⟩ :=
      noDisguise bank first last parts passes
    obtain ⟨⟨bank_whole, first_whole, last_whole⟩, low, order, fp, found, known, top⟩ := passes
    have spec := parts.spec (decimalNumber_of_digits bank_whole bank_digits)
      (decimalNumber_of_digits first_whole first_digits)
      (decimalNumber_of_digits last_whole last_digits)
    have place : (read bank - 1).toNat = strtoulValue bank 10 - 1 := by omega
    rw [place] at found ⊢
    have high := (List.getElem?_eq_some_iff.mp found).1
    exact ⟨_, _, _, spec, by omega, by omega, by omega, ⟨fp, found, by omega⟩, rfl, first_same,
      last_same⟩
  refine ⟨fun info x y accepted => inside accepted, doFlerase_inside banks str, ?_⟩
  intro x member
  cases result : abbrevSpec banks str with
  | range info first last =>
    obtain ⟨n, sf, sl, -, -, -, -, -, -, first_eq, -⟩ := inside result
    exact (doProtect_inside_iff result).mpr (by omega) x member
  | absent =>
    rw [doProtect, result] at member
    cases member
  | bad =>
    rw [doProtect, result] at member
    cases member

/-- A decimal number that an `int` holds. -/
def Plain (s : List UInt8) : Prop := ∃ n < 2 ^ 31, DecimalNumber s n

lemma Plain.exact {s : List UInt8} (plain : Plain s) : Exact s := by
  obtain ⟨n, low, number⟩ := plain
  refine exact_of_same number ?_
  rw [read, number.strtoulValue_eq]
  exact Int32.toInt_ofNat_of_lt low

theorem plain_numbers_sound (plain : ∀ bank first last, Parts str bank first last →
    Plain bank ∧ Plain first ∧ Plain (last.getD first)) : Sound banks str :=
  sound_of_noDisguise fun bank first last parts _ =>
    (plain bank first last parts).imp Plain.exact (.imp Plain.exact Plain.exact)

theorem sound_iff (banks : List Bank) (str : List UInt8) :
    Sound banks str ↔ NoDisguise banks str := by
  constructor
  · rintro ⟨exact_values, -, -⟩ bank first last parts passes
    obtain ⟨n, sf, sl, spec, low, -, -, -, info_eq, first_same, last_same⟩ :=
      exact_values _ _ _ (abbrevSpec_range.mpr ⟨bank, first, last, parts, passes, rfl, rfl, rfl⟩)
    obtain ⟨bank', first', last', parts', bank_eq, first_eq, last_eq⟩ := spec.parts
    obtain ⟨rfl, rfl, rfl⟩ := parts.unique parts'
    have := passes.bank_low
    exact ⟨exact_of_same bank_eq (by omega), exact_of_same first_eq first_same,
      exact_of_same last_eq last_same⟩
  · exact sound_of_noDisguise

/-- `1:4294967295` is sector -1. -/
theorem protects_before_table :
    ¬ Sound [SectRange.oneSector] [49, 58, 52, 50, 57, 52, 57, 54, 55, 50, 57, 53] := by
  intro sound
  obtain ⟨-, -, low, -⟩ := sound.protect (0, -1) (by decide)
  exact absurd low (by decide)

end AbbrevSpec
