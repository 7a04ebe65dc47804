import Mathlib.Order.Monotone.Basic
import UBoot.Flash.BankTable

/-!
# The sectors of a range (common/cmd_flash.c)

`flash_fill_sect_ranges` walks through the table of banks and finds the first and the last sector
of the range in each. Sectors end where the next ones start.
-/

namespace SectRange

open FlashBanks

def bEnd (info : Bank) : UInt32 := info.start 0 + info.size - 1

def sectorEnd (info : Bank) (sect : Nat) : UInt32 :=
  if (sect : Int) = info.sEnd then bEnd info else info.start (sect + 1) - 1

/-- The body of the loop over the sectors of a bank: `s_first` and `s_last` so far. -/
def scanSector (info : Bank) (addrFirst addrLast : UInt32) (s : Int × Int) (sect : Nat) :
    Int × Int :=
  if addrFirst > sectorEnd info sect then s
  else if addrLast < info.start sect then s
  else
    (if addrFirst = info.start sect then sect else s.1,
      if addrLast = sectorEnd info sect then sect else s.2)

def scan (info : Bank) (addrFirst addrLast : UInt32) : Int × Int :=
  (List.range info.sectorCount.toNat).foldl (scanSector info addrFirst addrLast) (-1, -1)

/-- A bank: its first and last sector and the next `addr_first`, or an error. -/
def bankRange (info : Bank) (addrFirst addrLast : UInt32) : Option ((Int × Int) × UInt32) :=
  let (sFirst, sLast) := scan info addrFirst addrLast
  if sFirst ≥ 0 then
    let last :=
      if sLast < 0 then if addrLast > bEnd info then some info.sEnd else none else some sLast
    last.bind fun sLast =>
      if sLast < sFirst then none
      else
        some ((sFirst, sLast),
          if sLast = info.sEnd then bEnd info + 1 else info.start (sLast.toNat + 1))
  else if addrFirst ≥ info.start 0 ∧ addrFirst < bEnd info then none
  else if sLast ≥ 0 then none
  else some ((sFirst, sLast), addrFirst)

/-- `flash_fill_sect_ranges`: the sectors for each bank and their number. After an error they are
not looked at. -/
def flashFillSectRanges : (banks : List Bank) → (addrFirst addrLast : UInt32) →
    Option (List (Int × Int) × Int)
  | [], _, _ => some ([], 0)
  | info :: infos, addrFirst, addrLast =>
    if addrFirst ≤ addrLast then
      if info.flashId = flashUnknown then
        (flashFillSectRanges infos addrFirst addrLast).map fun r => ((-1, -1) :: r.1, r.2)
      else
        (bankRange info addrFirst addrLast).bind fun range =>
          (flashFillSectRanges infos range.2 addrLast).map fun r =>
            (range.1 :: r.1, r.2 + if range.1.1 ≥ 0 then range.1.2 - range.1.1 + 1 else 0)
    else some (List.replicate (infos.length + 1) (-1, -1), 0)

/-! ## Banks one behind the other -/

/-- Each bank has its sectors, as many as `short s_end` can count, and the banks follow each other
in the table as in the addresses. -/
structure Table (banks : List Bank) : Prop where
  tiled : ∀ b ∈ banks, b.Known → b.Tiled
  counts : ∀ b ∈ banks, b.Known → b.sectorCount.toNat ≤ 32768
  order : banks.Pairwise fun b b' => b.Known → b'.Known → b.stop ≤ (b'.start 0).toNat

def FlashAt (banks : List Bank) (a : Nat) : Prop :=
  ∃ b ∈ banks, b.Known ∧ (b.start 0).toNat ≤ a ∧ a < b.stop

def Covered (banks : List Bank) (first stop : Nat) : Prop :=
  ∀ a, first ≤ a → a < stop → FlashAt banks a

def Begins (banks : List Bank) (a : Nat) : Prop :=
  ∃ b ∈ banks, b.Known ∧ ∃ i < b.sectorCount.toNat, (b.start i).toNat = a

def Ends (banks : List Bank) (a : Nat) : Prop :=
  ∃ b ∈ banks, b.Known ∧ ∃ i < b.sectorCount.toNat, b.sectorStop i = a

/-- A sector in `[first, stop)` with no gap before it. -/
structure Reached (banks : List Bank) (first stop : Nat) (b : Bank) (i : Nat) : Prop where
  from_first : first ≤ (b.start i).toNat
  to_stop : b.sectorStop i ≤ stop
  gapless : Covered banks first (b.sectorStop i)

/-! ## Sectors -/

variable {b : Bank} {i : Nat}

lemma sEnd_eq (count : b.sectorCount.toNat ≤ 32768) :
    b.sEnd = (b.sectorCount.toNat - 1 : Int) := by
  rw [Bank.sEnd]
  exact Int.bmod_eq_of_le (by omega) (by omega)

lemma bEnd_toNat (tiled : b.Tiled) : (bEnd b).toNat + 1 = b.stop := by
  have nonempty := tiled.start_lt_stop
  have fits := tiled.fits
  unfold Bank.stop at nonempty fits ⊢
  rw [bEnd, UInt32.toNat_sub, UInt32.toNat_add, UInt32.toNat_one]
  omega

lemma bEnd_succ (tiled : b.Tiled) : (bEnd b + 1).toNat = b.stop % 4294967296 := by
  have stop := bEnd_toNat tiled
  rw [UInt32.toNat_add, UInt32.toNat_one, stop]

lemma sectorEnd_toNat (tiled : b.Tiled) (count : b.sectorCount.toNat ≤ 32768)
    (sector : i < b.sectorCount.toNat) : (sectorEnd b i).toNat + 1 = b.sectorStop i := by
  have start := tiled.sectors i sector
  unfold sectorEnd Bank.sectorStop at *
  rw [sEnd_eq count]
  by_cases last : i + 1 = b.sectorCount.toNat
  · rw [if_pos (by omega), if_pos last, bEnd_toNat tiled]
  have small := (b.start (i + 1)).toNat_lt
  rw [if_neg last] at start
  rw [if_neg (by omega), if_neg last, UInt32.toNat_sub, UInt32.toNat_one]
  omega

lemma sectorStop_le (tiled : b.Tiled) (sector : i < b.sectorCount.toNat) :
    b.sectorStop i ≤ b.stop := by
  induction left : b.sectorCount.toNat - 1 - i generalizing i with
  | zero => exact le_of_eq (by rw [Bank.sectorStop, if_pos (by omega)])
  | succ left ih =>
    have next := tiled.sectors (i + 1) (by omega)
    have := ih (i := i + 1) (by omega) (by omega)
    rw [Bank.sectorStop, if_neg (by omega)]
    omega

lemma sectorStop_le_start (tiled : b.Tiled) {j : Nat} (less : i < j)
    (sector : j < b.sectorCount.toNat) : b.sectorStop i ≤ (b.start j).toNat := by
  induction j with
  | zero => exact absurd less i.not_lt_zero
  | succ j ih =>
    rcases Nat.lt_succ_iff_lt_or_eq.mp less with before | rfl
    · have := ih before (by omega)
      have next := tiled.sectors j (by omega)
      rw [Bank.sectorStop, if_neg (by omega)] at next
      omega
    · exact le_of_eq (by rw [Bank.sectorStop, if_neg (by omega)])

/-! ## A bank -/

/-- An index below `n` with a property, or -1 if there is none. -/
def Found (p : Nat → Prop) (n : Nat) (x : Int) : Prop :=
  (∃ i < n, p i ∧ x = i) ∨ (∀ i < n, ¬ p i) ∧ x = -1

lemma Found.none (p : Nat → Prop) : Found p 0 (-1) :=
  .inr ⟨fun i none => absurd none i.not_lt_zero, rfl⟩

lemma Found.here {p : Nat → Prop} {n : Nat} (holds : p n) : Found p (n + 1) n :=
  .inl ⟨n, Nat.lt_succ_self n, holds, rfl⟩

lemma Found.keep {p : Nat → Prop} {n : Nat} {x : Int} (found : Found p n x) (not_here : ¬ p n) :
    Found p (n + 1) x := by
  rcases found with ⟨i, less, holds, eq⟩ | ⟨never, eq⟩
  · exact .inl ⟨i, Nat.lt_succ_of_lt less, holds, eq⟩
  refine .inr ⟨fun i less => ?_, eq⟩
  rcases Nat.lt_succ_iff_lt_or_eq.mp less with before | rfl
  · exact never i before
  · exact not_here

inductive BankCase (b : Bank) (first last : Nat) : Option ((Int × Int) × UInt32) → Prop where
  | inside (i j : Nat) (next : UInt32) : i ≤ j → j < b.sectorCount.toNat →
      (b.start i).toNat = first → b.sectorStop j = last + 1 → next.toNat = (last + 1) % 4294967296 →
      BankCase b first last (some ((i, j), next))
  | across (i : Nat) (next : UInt32) : i < b.sectorCount.toNat → (b.start i).toNat = first →
      b.stop ≤ last → next.toNat = b.stop →
      BankCase b first last (some ((i, b.sectorCount.toNat - 1), next))
  | unended (i : Nat) : i < b.sectorCount.toNat → (b.start i).toNat = first → last < b.stop →
      (∀ j < b.sectorCount.toNat, b.sectorStop j ≠ last + 1) → BankCase b first last none
  | within : (b.start 0).toNat ≤ first → first < b.stop →
      (∀ i < b.sectorCount.toNat, (b.start i).toNat ≠ first) → BankCase b first last none
  | reversed (j : Nat) : j < b.sectorCount.toNat → b.sectorStop j = last + 1 →
      first < (b.start 0).toNat → BankCase b first last none
  | none (next : UInt32) : (∀ i < b.sectorCount.toNat, (b.start i).toNat ≠ first) →
      (∀ j < b.sectorCount.toNat, b.sectorStop j ≠ last + 1) → next.toNat = first →
      BankCase b first last (some ((-1, -1), next))

section
variable {b : Bank} (tiled : b.Tiled) (count : b.sectorCount.toNat ≤ 32768)
variable {addrFirst addrLast : UInt32} (order : addrFirst ≤ addrLast)
include tiled count

lemma next_toNat (j : Nat) :
    (if (j : Int) = b.sEnd then bEnd b + 1 else b.start ((j : Int).toNat + 1)).toNat =
      b.sectorStop j % 4294967296 := by
  rw [sEnd_eq count, Bank.sectorStop, Int.toNat_natCast]
  by_cases last : j + 1 = b.sectorCount.toNat
  · rw [if_pos (by omega), if_pos last]
    exact bEnd_succ tiled
  · rw [if_neg (by omega), if_neg last]
    exact (Nat.mod_eq_of_lt (b.start (j + 1)).toNat_lt).symm

include order

lemma scan_found (n : Nat) (inside : n ≤ b.sectorCount.toNat) :
    let s := (List.range n).foldl (scanSector b addrFirst addrLast) (-1, -1)
    Found (fun i => (b.start i).toNat = addrFirst.toNat) n s.1 ∧
      Found (fun i => b.sectorStop i = addrLast.toNat + 1) n s.2 := by
  induction n with
  | zero => exact ⟨Found.none _, Found.none _⟩
  | succ n ih =>
    obtain ⟨first, last⟩ := ih (Nat.le_of_succ_le inside)
    rw [List.range_succ, List.foldl_append, List.foldl_cons, List.foldl_nil]
    generalize (List.range n).foldl (scanSector b addrFirst addrLast) (-1, -1) = s at first last ⊢
    have start := tiled.sectors n inside
    have stop := sectorEnd_toNat tiled count inside
    have le := UInt32.le_iff_toNat_le.mp order
    unfold scanSector
    split
    case isTrue behind =>
      have less := UInt32.lt_iff_toNat_lt.mp behind
      exact ⟨first.keep (by omega), last.keep (by omega)⟩
    case isFalse =>
      split
      case isTrue before =>
        have less := UInt32.lt_iff_toNat_lt.mp before
        exact ⟨first.keep (by omega), last.keep (by omega)⟩
      case isFalse =>
        constructor
        · dsimp only
          split
          case isTrue here => exact Found.here (congrArg UInt32.toNat here.symm)
          case isFalse elsewhere =>
            exact first.keep fun here => elsewhere (UInt32.toNat_inj.mp here.symm)
        · dsimp only
          split
          case isTrue here =>
            rw [← here] at stop
            exact Found.here stop.symm
          case isFalse elsewhere =>
            refine last.keep fun here => elsewhere (UInt32.toNat_inj.mp ?_)
            omega

lemma bankRange_case :
    BankCase b addrFirst.toNat addrLast.toNat (bankRange b addrFirst addrLast) := by
  have le := UInt32.le_iff_toNat_le.mp order
  have small := addrLast.toNat_lt
  have stop := bEnd_toNat tiled
  obtain ⟨first, last⟩ := scan_found tiled count order b.sectorCount.toNat le_rfl
  unfold bankRange scan
  generalize (List.range b.sectorCount.toNat).foldl (scanSector b addrFirst addrLast) (-1, -1) = s
    at first last ⊢
  obtain ⟨sFirst, sLast⟩ := s
  dsimp only at first last ⊢
  rcases first with ⟨i, sector, begins, rfl⟩ | ⟨never, rfl⟩
  · rw [if_pos (Int.natCast_nonneg i)]
    rcases last with ⟨j, sector', ends, rfl⟩ | ⟨never, rfl⟩
    · have ordered : i ≤ j := by
        by_contra less
        have := sectorStop_le_start tiled (Nat.lt_of_not_le less) sector
        omega
      rw [if_neg (by omega), Option.bind_some, if_neg (by omega)]
      exact .inside i j _ ordered sector' begins ends (ends ▸ next_toNat tiled count j)
    rw [if_pos (by decide)]
    split
    case isTrue more =>
      have beyond := UInt32.lt_iff_toNat_lt.mp more
      have top := sEnd_eq count
      rw [Option.bind_some, top, if_neg (by omega), if_pos rfl]
      refine .across i _ sector begins (by omega) ?_
      rw [bEnd_succ tiled]
      exact Nat.mod_eq_of_lt (by omega)
    case isFalse inside =>
      have below := UInt32.le_iff_toNat_le.mp (UInt32.not_lt.mp inside)
      exact .unended i sector begins (by omega) never
  · rw [if_neg (by decide)]
    split
    case isTrue inside =>
      have below := UInt32.lt_iff_toNat_lt.mp inside.2
      exact .within (UInt32.le_iff_toNat_le.mp inside.1) (by omega) never
    case isFalse outside =>
      rcases last with ⟨j, sector, ends, rfl⟩ | ⟨never', rfl⟩
      · rw [if_pos (Int.natCast_nonneg j)]
        have under := sectorStop_le tiled sector
        by_cases low : (b.start 0).toNat ≤ addrFirst.toNat
        · exact .within low (by omega) never
        · exact .reversed j sector ends (Nat.lt_of_not_le low)
      · rw [if_neg (by decide)]
        exact .none _ never never' rfl

end

/-! ## Behind a gap -/

variable {banks : List Bank} {addrFirst addrLast : UInt32}

lemma Table.tail (table : Table (b :: banks)) : Table banks where
  tiled := fun b' member => table.tiled b' (List.mem_cons_of_mem b member)
  counts := fun b' member => table.counts b' (List.mem_cons_of_mem b member)
  order := (List.pairwise_cons.mp table.order).2

lemma Table.behind (table : Table (b :: banks)) (known : b.Known) {b' : Bank} (member : b' ∈ banks)
    (known' : b'.Known) : b.stop ≤ (b'.start 0).toNat :=
  (List.pairwise_cons.mp table.order).1 b' member known known'

def noPlans (banks : List Bank) : List (Int × Int) := List.replicate banks.length (-1, -1)

lemma fill_unknown (unknown : ¬ b.Known) (banks : List Bank) (order : addrFirst ≤ addrLast) :
    flashFillSectRanges (b :: banks) addrFirst addrLast =
      (flashFillSectRanges banks addrFirst addrLast).map fun r => ((-1, -1) :: r.1, r.2) := by
  rw [flashFillSectRanges, if_pos order, if_pos (not_not.mp unknown)]

lemma fill_known (known : b.Known) (banks : List Bank) (order : addrFirst ≤ addrLast) :
    flashFillSectRanges (b :: banks) addrFirst addrLast =
      (bankRange b addrFirst addrLast).bind fun range =>
        (flashFillSectRanges banks range.2 addrLast).map fun r =>
          (range.1 :: r.1, r.2 + if range.1.1 ≥ 0 then range.1.2 - range.1.1 + 1 else 0) := by
  rw [flashFillSectRanges, if_pos order, if_neg known]

/-- Whatever the order of the banks: if a range is accepted, the bank in which it begins comes no
later in the table than a bank with a sector that ends where the range does. -/
lemma begins_before_end (tiled : ∀ b ∈ banks, b.Known → b.Tiled)
    (counts : ∀ b ∈ banks, b.Known → b.sectorCount.toNat ≤ 32768) (order : addrFirst ≤ addrLast)
    {r : List (Int × Int) × Int} (accepted : flashFillSectRanges banks addrFirst addrLast = some r)
    {k j : Nat} (there : banks[k]? = some b) (known : b.Known) (sector : j < b.sectorCount.toNat)
    (ends : b.sectorStop j = addrLast.toNat + 1) :
    ∃ m ≤ k, ∃ b', banks[m]? = some b' ∧ b'.Known ∧
      ∃ i < b'.sectorCount.toNat, b'.start i = addrFirst := by
  induction banks generalizing k r with
  | nil => cases there
  | cons b₀ banks ih =>
    have later {r' : List (Int × Int) × Int} {k : Nat} (there : banks[k]? = some b)
        (accepted : flashFillSectRanges banks addrFirst addrLast = some r') :
        ∃ m ≤ k + 1, ∃ b', (b₀ :: banks)[m]? = some b' ∧ b'.Known ∧
          ∃ i < b'.sectorCount.toNat, b'.start i = addrFirst := by
      obtain ⟨m, le, found⟩ := ih (fun b' member => tiled b' (List.mem_cons_of_mem b₀ member))
        (fun b' member => counts b' (List.mem_cons_of_mem b₀ member)) accepted there
      exact ⟨m + 1, Nat.succ_le_succ le, found⟩
    by_cases known₀ : b₀.Known
    · have case := bankRange_case (tiled b₀ List.mem_cons_self known₀)
        (counts b₀ List.mem_cons_self known₀) order
      rw [fill_known known₀ banks order] at accepted
      generalize bankRange b₀ addrFirst addrLast = range at case accepted
      cases case with
      | inside i j' next ordered sector' begins =>
        exact ⟨0, Nat.zero_le k, b₀, rfl, known₀, i, by omega, UInt32.toNat_inj.mp begins⟩
      | across i next sector' begins =>
        exact ⟨0, Nat.zero_le k, b₀, rfl, known₀, i, sector', UInt32.toNat_inj.mp begins⟩
      | unended => cases accepted
      | within => cases accepted
      | reversed => cases accepted
      | none next never never' same =>
        obtain rfl := UInt32.toNat_inj.mp same
        cases k with
        | zero =>
          cases there
          exact absurd ends (never' j sector)
        | succ k =>
          obtain ⟨r', rest, -⟩ := Option.map_eq_some_iff.mp accepted
          exact later there rest
    · rw [fill_unknown known₀ banks order] at accepted
      obtain ⟨r', rest, -⟩ := Option.map_eq_some_iff.mp accepted
      cases k with
      | zero =>
        cases there
        exact absurd known known₀
      | succ k => exact later there rest

lemma fill_over (ended : addrFirst ≤ addrLast → ∀ b ∈ banks, ¬ b.Known) :
    flashFillSectRanges banks addrFirst addrLast = some (noPlans banks, 0) := by
  induction banks with
  | nil => rfl
  | cons b banks ih =>
    by_cases order : addrFirst ≤ addrLast
    · have unknown := ended order
      rw [fill_unknown (unknown b List.mem_cons_self) banks order,
        ih fun _ b' member => unknown b' (List.mem_cons_of_mem b member)]
      rfl
    · rw [flashFillSectRanges, if_neg order]
      rfl

lemma fill_gap (table : Table banks) (order : addrFirst ≤ addrLast)
    (gap : ∀ b ∈ banks, b.Known → addrFirst.toNat < (b.start 0).toNat) :
    (Ends banks (addrLast.toNat + 1) → flashFillSectRanges banks addrFirst addrLast = none) ∧
    (¬ Ends banks (addrLast.toNat + 1) →
      flashFillSectRanges banks addrFirst addrLast = some (noPlans banks, 0)) := by
  induction banks with
  | nil => exact ⟨fun ⟨_, member, _⟩ => absurd member List.not_mem_nil, fun _ => rfl⟩
  | cons b banks ih =>
    have rest := ih table.tail fun b' member => gap b' (List.mem_cons_of_mem b member)
    by_cases known : b.Known
    · have tiled := table.tiled b List.mem_cons_self known
      have count := table.counts b List.mem_cons_self known
      have before := gap b List.mem_cons_self known
      have case := bankRange_case tiled count order
      rw [fill_known known banks order]
      generalize bankRange b addrFirst addrLast = range at case ⊢
      have above {i : Nat} (sector : i < b.sectorCount.toNat) := tiled.start_zero_le sector
      cases case with
      | inside i j next ordered sector begins => have := above (i := i) (by omega); omega
      | across i next sector begins => have := above sector; omega
      | unended i sector begins => have := above sector; omega
      | within low => omega
      | reversed j sector ends =>
        exact ⟨fun _ => rfl, fun never =>
          absurd ⟨b, List.mem_cons_self, known, j, sector, ends⟩ never⟩
      | none next never never' same =>
        obtain rfl := UInt32.toNat_inj.mp same
        rw [Option.bind_some]
        constructor
        · rintro ⟨b', member, known', j, sector, ends⟩
          rcases List.mem_cons.mp member with rfl | later
          · exact absurd ends (never' j sector)
          · rw [rest.1 ⟨b', later, known', j, sector, ends⟩]
            rfl
        · intro never
          rw [rest.2 fun ⟨b', later, ends⟩ => never ⟨b', List.mem_cons_of_mem b later, ends⟩]
          rfl
    · rw [fill_unknown known banks order]
      constructor
      · rintro ⟨b', member, known', ends⟩
        rcases List.mem_cons.mp member with rfl | later
        · exact absurd known' known
        · rw [rest.1 ⟨b', later, known', ends⟩]
          rfl
      · intro never
        rw [rest.2 fun ⟨b', later, ends⟩ => never ⟨b', List.mem_cons_of_mem b later, ends⟩]
        rfl

lemma fill_unbegun (table : Table banks) (order : addrFirst ≤ addrLast)
    (unbegun : ¬ Begins banks addrFirst.toNat) :
    flashFillSectRanges banks addrFirst addrLast = none ∨
      flashFillSectRanges banks addrFirst addrLast = some (noPlans banks, 0) := by
  induction banks with
  | nil => exact .inr rfl
  | cons b banks ih =>
    have rest := ih table.tail fun ⟨b', later, begins⟩ =>
      unbegun ⟨b', List.mem_cons_of_mem b later, begins⟩
    by_cases known : b.Known
    · have case := bankRange_case (table.tiled b List.mem_cons_self known)
        (table.counts b List.mem_cons_self known) order
      rw [fill_known known banks order]
      generalize bankRange b addrFirst addrLast = range at case ⊢
      cases case with
      | inside i j next ordered sector begins =>
        exact absurd ⟨b, List.mem_cons_self, known, i, lt_of_le_of_lt ordered sector, begins⟩
          unbegun
      | across i next sector begins =>
        exact absurd ⟨b, List.mem_cons_self, known, i, sector, begins⟩ unbegun
      | unended => exact .inl rfl
      | within => exact .inl rfl
      | reversed => exact .inl rfl
      | none next never never' same =>
        obtain rfl := UInt32.toNat_inj.mp same
        rw [Option.bind_some]
        rcases rest with error | no_sectors
        · exact .inl (congrArg (Option.map _) error)
        · exact .inr (congrArg (Option.map _) no_sectors)
    · rw [fill_unknown known banks order]
      rcases rest with error | no_sectors
      · exact .inl (congrArg (Option.map _) error)
      · exact .inr (congrArg (Option.map _) no_sectors)

/-! ## The sectors that are reached -/

variable {first stop : Nat}

/-- The sectors from `plan.1` to `plan.2` are those that are asked for. -/
structure PlanFor (R : Nat → Prop) (b : Bank) (plan : Int × Int) : Prop where
  bounds : 0 ≤ plan.1 → b.Known ∧ plan.1 ≤ plan.2 ∧ plan.2 < b.sectorCount.toNat
  sectors : ∀ i < b.sectorCount.toNat, (b.Known ∧ R i) ↔ (0 ≤ plan.1 ∧ plan.1 ≤ i ∧ i ≤ plan.2)

def PlansFor (R : Bank → Nat → Prop) : List Bank → List (Int × Int) → Prop
  | [], [] => True
  | b :: banks, plan :: plans => PlanFor (R b) b plan ∧ PlansFor R banks plans
  | _, _ => False

lemma PlanFor.none {R : Nat → Prop} (unreached : b.Known → ∀ i < b.sectorCount.toNat, ¬ R i) :
    PlanFor R b (-1, -1) where
  bounds nonneg := absurd nonneg (by decide)
  sectors i sector := iff_of_false (fun ⟨known, reached⟩ => unreached known i sector reached)
    fun ⟨nonneg, _⟩ => absurd nonneg (by decide)

lemma noPlans_for {R : Bank → Nat → Prop}
    (unreached : ∀ b ∈ banks, b.Known → ∀ i < b.sectorCount.toNat, ¬ R b i) :
    PlansFor R banks (noPlans banks) := by
  induction banks with
  | nil => trivial
  | cons b banks ih => exact ⟨.none (unreached b List.mem_cons_self),
      ih fun b' member => unreached b' (List.mem_cons_of_mem b member)⟩

lemma PlansFor.congr {R R' : Bank → Nat → Prop} {plans : List (Int × Int)}
    (same : ∀ b ∈ banks, b.Known → ∀ i < b.sectorCount.toNat, R b i ↔ R' b i)
    (plansFor : PlansFor R banks plans) : PlansFor R' banks plans := by
  induction banks generalizing plans with
  | nil => cases plans with
    | nil => trivial
    | cons => exact plansFor
  | cons b banks ih => cases plans with
    | nil => exact plansFor
    | cons plan plans =>
      refine ⟨⟨plansFor.1.bounds, fun i sector => ?_⟩,
        ih (fun b' member => same b' (List.mem_cons_of_mem b member)) plansFor.2⟩
      rw [← plansFor.1.sectors i sector]
      exact and_congr_right fun known => (same b List.mem_cons_self known i sector).symm

lemma start_strictMonoOn (tiled : b.Tiled) :
    StrictMonoOn (fun i => (b.start i).toNat) {i | i < b.sectorCount.toNat} := by
  intro i first j second less
  have := tiled.sectors i first
  have := sectorStop_le_start tiled less second
  dsimp only
  omega

lemma sectorStop_strictMonoOn (tiled : b.Tiled) :
    StrictMonoOn b.sectorStop {i | i < b.sectorCount.toNat} := by
  intro i _ j second less
  have := tiled.sectors j second
  have := sectorStop_le_start tiled less second
  omega

lemma flashAt_cons {a : Nat} : FlashAt (b :: banks) a ↔
    (b.Known ∧ (b.start 0).toNat ≤ a ∧ a < b.stop) ∨ FlashAt banks a :=
  List.exists_mem_cons_iff _ b banks

lemma ends_cons {a : Nat} : Ends (b :: banks) a ↔
    (b.Known ∧ ∃ i < b.sectorCount.toNat, b.sectorStop i = a) ∨ Ends banks a :=
  List.exists_mem_cons_iff _ b banks

lemma begins_cons {a : Nat} : Begins (b :: banks) a ↔
    (b.Known ∧ ∃ i < b.sectorCount.toNat, (b.start i).toNat = a) ∨ Begins banks a :=
  List.exists_mem_cons_iff _ b banks

lemma covered_leave {next : Nat} (known : b.Known) (below : b.stop ≤ next)
    (whole : ∀ a, first ≤ a → a < next → (b.start 0).toNat ≤ a ∧ a < b.stop) (before : first ≤ next)
    :
    Covered (b :: banks) first stop ↔ Covered banks next stop := by
  constructor
  · intro covered a above less
    rcases flashAt_cons.mp (covered a (le_trans before above) less) with ⟨-, -, here⟩ | later
    · omega
    · exact later
  · intro covered a above less
    by_cases here : a < next
    · obtain ⟨low, high⟩ := whole a above here
      exact flashAt_cons.mpr (.inl ⟨known, low, high⟩)
    · exact flashAt_cons.mpr (.inr (covered a (Nat.le_of_not_lt here) less))

lemma reached_cons {next : Nat} {b' : Bank}
    (covered : ∀ s, Covered (b :: banks) first s ↔ Covered banks next s)
    (starts : first ≤ (b'.start i).toNat ↔ next ≤ (b'.start i).toNat) :
    Reached (b :: banks) first stop b' i ↔ Reached banks next stop b' i :=
  ⟨fun r => ⟨starts.mp r.from_first, r.to_stop, (covered _).mp r.gapless⟩,
    fun r => ⟨starts.mpr r.from_first, r.to_stop, (covered _).mpr r.gapless⟩⟩

structure Filled (banks : List Bank) (first stop : Nat) (r : Option (List (Int × Int) × Int)) :
    Prop where
  accepted : (Covered banks first stop ↔ Ends banks stop) →
    ∃ plans planned, r = some (plans, planned) ∧ 0 < planned ∧
      PlansFor (Reached banks first stop) banks plans
  refused : ¬ (Covered banks first stop ↔ Ends banks stop) → r = none

lemma Filled.cons {b : Bank} {banks : List Bank} {first next stop : Nat} {plan : Int × Int}
    {more : Int} {r : Option (List (Int × Int) × Int)} (filled : Filled banks next stop r)
    (covered : ∀ s, Covered (b :: banks) first s ↔ Covered banks next s)
    (ends : Ends (b :: banks) stop ↔ Ends banks stop)
    (starts : ∀ b' ∈ banks, b'.Known → ∀ i < b'.sectorCount.toNat,
      first ≤ (b'.start i).toNat ↔ next ≤ (b'.start i).toNat)
    (planFor : PlanFor (Reached (b :: banks) first stop b) b plan) (nonneg : 0 ≤ more) :
    Filled (b :: banks) first stop (r.map fun r => (plan :: r.1, r.2 + more)) where
  accepted both := by
    rw [covered, ends] at both
    obtain ⟨plans, planned, rfl, positive, plansFor⟩ := filled.accepted both
    refine ⟨plan :: plans, planned + more, rfl, by omega, planFor, plansFor.congr ?_⟩
    exact fun b' member known i sector =>
      (reached_cons covered (starts b' member known i sector)).symm
  refused either := by
    rw [covered, ends] at either
    rw [filled.refused either]
    rfl

lemma covered_below (below : b.Known → b.stop ≤ first) (s : Nat) :
    Covered (b :: banks) first s ↔ Covered banks first s := by
  refine forall_congr' fun a => forall_congr' fun above => forall_congr' fun _ => ?_
  rw [flashAt_cons]
  exact or_iff_right fun ⟨known, _, less⟩ => by have := below known; omega

lemma ends_below (tiled : b.Known → b.Tiled) (below : b.Known → b.stop < stop) :
    Ends (b :: banks) stop ↔ Ends banks stop := by
  rw [ends_cons]
  refine or_iff_right fun ⟨known, i, sector, ends⟩ => ?_
  have := below known
  have := sectorStop_le (tiled known) sector
  omega

lemma Filled.skip {r : Option (List (Int × Int) × Int)} (filled : Filled banks first stop r)
    (tiled : b.Known → b.Tiled) (order : first < stop) (below : b.Known → b.stop ≤ first) :
    Filled (b :: banks) first stop (r.map fun r => ((-1, -1) :: r.1, r.2)) := by
  have ends : Ends (b :: banks) stop ↔ Ends banks stop :=
    ends_below tiled fun known => lt_of_le_of_lt (below known) order
  have planFor : PlanFor (Reached (b :: banks) first stop b) b (-1, -1) := by
    refine .none fun known i sector reached => ?_
    have := below known
    have := reached.from_first
    have := (tiled known).sectors i sector
    have := sectorStop_le (tiled known) sector
    omega
  have skipped := filled.cons (covered_below below) ends (fun _ _ _ _ _ => Iff.rfl) planFor
    (Int.le_refl 0)
  simp only [Int.add_zero] at skipped
  exact skipped

lemma covered_inside (known : b.Known) (tiled : b.Tiled) (sector : i < b.sectorCount.toNat)
    {s : Nat} (inside : s ≤ b.stop) :
    Covered (b :: banks) (b.start i).toNat s := by
  intro a above less
  have := tiled.start_zero_le sector
  exact flashAt_cons.mpr (.inl ⟨known, by omega, by omega⟩)

lemma planFor_inside (banks : List Bank) (known : b.Known) (tiled : b.Tiled) {j : Nat}
    (ordered : i ≤ j) (sector : j < b.sectorCount.toNat)
    (upTo : ∀ k < b.sectorCount.toNat, b.sectorStop k ≤ stop ↔ k ≤ j) :
    PlanFor (Reached (b :: banks) (b.start i).toNat stop b) b (i, j) where
  bounds _ := ⟨known, Int.ofNat_le.mpr ordered, Int.ofNat_lt.mpr sector⟩
  sectors k sector' := by
    have first : i < b.sectorCount.toNat := lt_of_le_of_lt ordered sector
    have from_first := (start_strictMonoOn tiled).le_iff_le first sector'
    rw [and_iff_right known, and_iff_right (Int.natCast_nonneg i), Int.ofNat_le, Int.ofNat_le]
    constructor
    · exact fun reached => ⟨from_first.mp reached.from_first, (upTo k sector').mp reached.to_stop⟩
    · exact fun ⟨low, high⟩ => ⟨from_first.mpr low, (upTo k sector').mpr high,
        covered_inside known tiled first (sectorStop_le tiled sector')⟩

lemma planFor_across (banks : List Bank) (known : b.Known) (tiled : b.Tiled)
    (sector : i < b.sectorCount.toNat) (beyond : b.stop ≤ stop) :
    PlanFor (Reached (b :: banks) (b.start i).toNat stop b) b (i, b.sectorCount.toNat - 1) := by
  have last : ((b.sectorCount.toNat - 1 : Nat) : Int) = (b.sectorCount.toNat : Int) - 1 := by omega
  rw [← last]
  exact planFor_inside banks known tiled (by omega) (by omega) fun k sector' =>
    iff_of_true (le_trans (sectorStop_le tiled sector') beyond) (by omega)

lemma counted_pos {i j : Int} (nonneg : 0 ≤ i) (ordered : i ≤ j) :
    0 < if i ≥ 0 then j - i + 1 else 0 := by
  rw [if_pos nonneg]
  omega

lemma filled_inside (table : Table (b :: banks)) (known : b.Known) {j : Nat} (ordered : i ≤ j)
    (sector : j < b.sectorCount.toNat) {planned : Int} (positive : 0 < planned) :
    Filled (b :: banks) (b.start i).toNat (b.sectorStop j)
      (some (((i : Int), (j : Int)) :: noPlans banks, planned)) := by
  have tiled := table.tiled b List.mem_cons_self known
  have planFor := planFor_inside banks known tiled ordered sector
    fun k sector' => (sectorStop_strictMonoOn tiled).le_iff_le sector' sector
  have rest : PlansFor (Reached (b :: banks) (b.start i).toNat (b.sectorStop j)) banks
      (noPlans banks) := by
    refine noPlans_for fun b' member known' k sector' reached => ?_
    have tiled' := table.tiled b' (List.mem_cons_of_mem b member) known'
    have := table.behind known member known'
    have := tiled'.start_zero_le sector'
    have := tiled'.sectors k sector'
    have := sectorStop_le tiled sector
    have := reached.to_stop
    omega
  have covered : Covered (b :: banks) (b.start i).toNat (b.sectorStop j) :=
    covered_inside known tiled (lt_of_le_of_lt ordered sector) (sectorStop_le tiled sector)
  have ends : Ends (b :: banks) (b.sectorStop j) := ends_cons.mpr (.inl ⟨known, j, sector, rfl⟩)
  exact ⟨fun _ => ⟨_, _, rfl, positive, planFor, rest⟩,
    fun either => absurd (iff_of_true covered ends) either⟩

lemma filled_unended (table : Table (b :: banks)) (known : b.Known)
    (sector : i < b.sectorCount.toNat) (inside : stop ≤ b.stop)
    (never : ∀ j < b.sectorCount.toNat, b.sectorStop j ≠ stop) :
    Filled (b :: banks) (b.start i).toNat stop none := by
  have tiled := table.tiled b List.mem_cons_self known
  have covered : Covered (b :: banks) (b.start i).toNat stop :=
    covered_inside known tiled sector inside
  have unended : ¬ Ends (b :: banks) stop := by
    intro ends
    rcases ends_cons.mp ends with ⟨-, j, sector', here⟩ | ⟨b', member, known', j, sector', there⟩
    · exact never j sector' here
    have tiled' := table.tiled b' (List.mem_cons_of_mem b member) known'
    have := table.behind known member known'
    have := tiled'.start_zero_le sector'
    have := tiled'.sectors j sector'
    omega
  exact ⟨fun both => absurd (both.mp covered) unended, fun _ => rfl⟩

lemma filled_across (table : Table (b :: banks)) (known : b.Known)
    (sector : i < b.sectorCount.toNat) {next : UInt32} (next_eq : next.toNat = b.stop)
    (beyond : b.stop ≤ addrLast.toNat)
    (gap : ∀ b' ∈ banks, b'.Known → next.toNat < (b'.start 0).toNat) {more : Int}
    (positive : 0 < more) :
    Filled (b :: banks) (b.start i).toNat (addrLast.toNat + 1)
      ((flashFillSectRanges banks next addrLast).map fun r =>
        (((i : Int), (b.sectorCount.toNat - 1 : Int)) :: r.1, r.2 + more)) := by
  have tiled := table.tiled b List.mem_cons_self known
  have order : next ≤ addrLast := UInt32.le_iff_toNat_le.mpr (by omega)
  obtain ⟨error, no_sectors⟩ := fill_gap table.tail order gap
  have ends : Ends (b :: banks) (addrLast.toNat + 1) ↔ Ends banks (addrLast.toNat + 1) :=
    ends_below (fun _ => tiled) fun _ => Nat.lt_succ_of_le beyond
  have hole : ¬ FlashAt (b :: banks) b.stop := by
    intro flash
    rcases flashAt_cons.mp flash with ⟨-, -, less⟩ | ⟨b', member, known', low, -⟩
    · exact absurd less (lt_irrefl _)
    · have := gap b' member known'
      omega
  have under : (b.start i).toNat ≤ b.stop := by
    have := tiled.sectors i sector
    have := sectorStop_le tiled sector
    omega
  have uncovered : ¬ Covered (b :: banks) (b.start i).toNat (addrLast.toNat + 1) :=
    fun covered => hole (covered b.stop under (Nat.lt_succ_of_le beyond))
  constructor
  · intro both
    have unended : ¬ Ends banks (addrLast.toNat + 1) :=
      fun there => uncovered (both.mpr (ends.mpr there))
    refine ⟨_, _, congrArg (Option.map _) (no_sectors unended), by omega,
      planFor_across banks known tiled sector (Nat.le_succ_of_le beyond),
      noPlans_for fun b' member known' k sector' reached => ?_⟩
    have tiled' := table.tiled b' (List.mem_cons_of_mem b member) known'
    have := gap b' member known'
    have := tiled'.start_zero_le sector'
    have := tiled'.sectors k sector'
    exact hole (reached.gapless b.stop under (by omega))
  · intro either
    have there : Ends banks (addrLast.toNat + 1) := by
      by_contra unended
      exact either (iff_of_false uncovered fun here => unended (ends.mp here))
    rw [error there]
    rfl

lemma fill_begun (table : Table banks) (order : addrFirst ≤ addrLast)
    (begun : Begins banks addrFirst.toNat) :
    Filled banks addrFirst.toNat (addrLast.toNat + 1)
      (flashFillSectRanges banks addrFirst addrLast) := by
  induction banks generalizing addrFirst with
  | nil =>
    obtain ⟨_, member, -⟩ := begun
    exact absurd member List.not_mem_nil
  | cons b banks ih =>
    have le := UInt32.le_iff_toNat_le.mp order
    by_cases known : b.Known
    · have tiled := table.tiled b List.mem_cons_self known
      have case := bankRange_case tiled (table.counts b List.mem_cons_self known) order
      rw [fill_known known banks order]
      have in_bank (inside : addrFirst.toNat < b.stop) :
          ∃ i < b.sectorCount.toNat, (b.start i).toNat = addrFirst.toNat := by
        rcases begins_cons.mp begun with ⟨-, here⟩ | ⟨b', member, known', i, sector, there⟩
        · exact here
        have tiled' := table.tiled b' (List.mem_cons_of_mem b member) known'
        have := table.behind known member known'
        have := tiled'.start_zero_le sector
        omega
      generalize bankRange b addrFirst addrLast = range at case ⊢
      cases case with
      | inside i j next ordered sector begins ends next_eq =>
        have ended : next ≤ addrLast → ∀ b' ∈ banks, ¬ b'.Known := by
          intro goes_on b' member known'
          have := UInt32.le_iff_toNat_le.mp goes_on
          have := table.behind known member known'
          have := sectorStop_le tiled sector
          have := (b'.start 0).toNat_lt
          omega
        rw [Option.bind_some, fill_over ended, ← begins, ← ends, Option.map_some]
        rw [Int.zero_add]
        exact filled_inside table known ordered sector
          (counted_pos (Int.natCast_nonneg i) (Int.ofNat_le.mpr ordered))
      | across i next sector begins beyond next_eq =>
        have counted := counted_pos (i := i) (j := (b.sectorCount.toNat : Int) - 1)
          (Int.natCast_nonneg i) (by omega)
        have under := sectorStop_le tiled sector
        have starts := tiled.sectors i sector
        rw [Option.bind_some, ← begins]
        by_cases goes_on : Begins banks next.toNat
        · have whole (a : Nat) (above : (b.start i).toNat ≤ a) (less : a < next.toNat) :
              (b.start 0).toNat ≤ a ∧ a < b.stop := by
            have := tiled.start_zero_le sector
            omega
          refine (ih table.tail (UInt32.le_iff_toNat_le.mpr (by omega)) goes_on).cons
            (fun _ => covered_leave known (by omega) whole (by omega))
            (ends_below (fun _ => tiled) fun _ => Nat.lt_succ_of_le beyond) ?_
            (planFor_across banks known tiled sector (Nat.le_succ_of_le beyond))
            (Int.le_of_lt counted)
          · intro b' member known' k sector'
            have := (table.tiled b' (List.mem_cons_of_mem b member) known').start_zero_le sector'
            have := table.behind known member known'
            omega
        · refine filled_across table known sector next_eq beyond ?_ counted
          intro b' member known'
          have tiled' := table.tiled b' (List.mem_cons_of_mem b member) known'
          have := table.behind known member known'
          have other : (b'.start 0).toNat ≠ next.toNat :=
            fun same => goes_on ⟨b', member, known', 0, tiled'.nonempty, same⟩
          omega
      | unended i sector begins inside never =>
        rw [Option.bind_none, ← begins]
        exact filled_unended table known sector inside never
      | within low inside never =>
        obtain ⟨i, sector, begins⟩ := in_bank inside
        exact absurd begins (never i sector)
      | reversed j sector ends before =>
        obtain ⟨i, sector', begins⟩ := in_bank (lt_trans before tiled.start_lt_stop)
        have := tiled.start_zero_le sector'
        omega
      | none next never never' same =>
        obtain rfl := UInt32.toNat_inj.mp same
        have below : b.stop ≤ next.toNat := by
          by_contra inside
          obtain ⟨i, sector, begins⟩ := in_bank (Nat.lt_of_not_le inside)
          exact never i sector begins
        have later : Begins banks next.toNat :=
          (begins_cons.mp begun).resolve_left fun ⟨_, i, sector, begins⟩ => never i sector begins
        have skipped := (ih table.tail order later).skip (fun _ => tiled) (Nat.lt_succ_of_le le)
          fun _ => below
        rw [Option.bind_some]
        simp only [ge_iff_le, Int.reduceNeg, Int.reduceLE, if_false, Int.add_zero]
        exact skipped
    · have later : Begins banks addrFirst.toNat :=
        (begins_cons.mp begun).resolve_left fun ⟨here, _⟩ => known here
      rw [fill_unknown known banks order]
      exact (ih table.tail order later).skip (fun here => absurd here known)
        (Nat.lt_succ_of_le le) fun here => absurd here known

end SectRange
