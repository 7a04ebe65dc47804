import UBoot.Flash.SectRange
import UBoot.Flash.WriteBuff

/-!
# Erasing a range of flash (common/cmd_flash.c, board/samsung/hyq2440/flash.c)

`flash_sect_erase` has the sectors of a range erased bank by bank. The user may interrupt before
each sector, and the chip ends each erasure in its own way.
-/

namespace SectRange

open FlashBanks
open HalfwordFlash (errProgError)

def errTimout : Nat := 1
def errUnknownFlashVendor : Nat := 32
def errUnknownFlashType : Nat := 64

/-- `chip`, when the wait for a sector is over. -/
inductive Chip where
  | ready
  | err
  | timeout
  deriving DecidableEq

/-- What happens at a sector, given by its address: an interrupt before it, and its erasure. -/
structure Events where
  ctrlc : UInt32 → Bool
  chip : UInt32 → Chip

/-- `(info->flash_id & FLASH_VENDMASK) == (AMD_MANUFACT & FLASH_VENDMASK)` -/
def Amd (info : Bank) : Prop := info.flashId &&& 0xFFFF0000 = 0x00010001 &&& 0xFFFF0000

instance Amd.decidable (info : Bank) : Decidable (Amd info) :=
  inferInstanceAs (Decidable (info.flashId &&& 0xFFFF0000 = 0x00010001 &&& 0xFFFF0000))

def eraseLoop (events : Events) (info : Bank) :
    (sect left : Nat) → Nat × List (UInt32 × Chip)
  | _, 0 => (errOk, [])
  | sect, left + 1 =>
    if events.ctrlc (info.start sect) then (errOk, [])
    else if info.protect sect = 0 then
      match events.chip (info.start sect) with
      | .ready =>
        let r := eraseLoop events info (sect + 1) left
        (r.1, (info.start sect, .ready) :: r.2)
      | .err => (errProgError, [(info.start sect, .err)])
      | .timeout => (errTimout, [(info.start sect, .timeout)])
    else eraseLoop events info (sect + 1) left

def flashErase (events : Events) (info : Bank) (sFirst sLast : Int) :
    Nat × List (UInt32 × Chip) :=
  if info.flashId = flashUnknown then (errUnknownFlashType, [])
  else if sFirst < 0 ∨ sFirst > sLast then (errInval, [])
  else if ¬ Amd info then (errUnknownFlashVendor, [])
  else
    let count := (sLast - sFirst + 1).toNat
    if (List.range' sFirst.toNat count).any fun sect => info.protect sect ≠ 0 then
      (errProtected, [])
    else eraseLoop events info sFirst.toNat count

def eraseBanks (events : Events) : List Bank → List (Int × Int) → Nat × List (UInt32 × Chip)
  | info :: infos, plan :: plans =>
    if plan.1 ≥ 0 then
      let r := flashErase events info plan.1 plan.2
      if r.1 ≠ 0 then r
      else
        let rest := eraseBanks events infos plans
        (rest.1, r.2 ++ rest.2)
    else eraseBanks events infos plans
  | _, _ => (errOk, [])

def Rejected (banks : List Bank) (addrFirst addrLast : UInt32) : Prop :=
  ∀ plans planned,
    flashFillSectRanges banks addrFirst addrLast = some (plans, planned) → planned = 0

def flashSectErase (events : Events) (banks : List Bank) (addrFirst addrLast : UInt32) :
    Nat × List (UInt32 × Chip) :=
  match flashFillSectRanges banks addrFirst addrLast with
  | some (plans, planned) => if planned ≠ 0 then eraseBanks events banks plans else (1, [])
  | none => (1, [])

structure SectorOf (banks : List Bank) (b : Bank) (i : Nat) : Prop where
  bank : b ∈ banks
  known : b.Known
  sector : i < b.sectorCount.toNat

structure Sound (banks : List Bank) (first stop : Nat) (rejected : Prop)
    (r : Nat × List (UInt32 × Chip)) : Prop where
  flash : r.1 = errOk → Covered banks first stop
  begins : r.1 = errOk → Begins banks first
  ends : r.1 = errOk → Ends banks stop
  erased : r.1 = errOk → ∀ b i, SectorOf banks b i → first ≤ (b.start i).toNat →
    b.sectorStop i ≤ stop → (b.start i, Chip.ready) ∈ r.2
  inside : ∀ x ∈ r.2, ∃ b i, SectorOf banks b i ∧ b.start i = x.1 ∧
    first ≤ (b.start i).toNat ∧ b.sectorStop i ≤ stop
  nothing : rejected → r.2 = []

/-- The sectors of the range that are reached can be erased: no error comes before the first
interrupt. -/
def Erasable (events : Events) (banks : List Bank) (first stop : Nat) : Prop :=
  ∀ b i, SectorOf banks b i → Reached banks first stop b i → Amd b ∧ b.protect i = 0 ∧
    ((∀ j ≤ i, Reached banks first stop b j → events.ctrlc (b.start j) = false) →
      events.chip (b.start i) = .ready)

/-- If the range begins with a sector, and ends with one just when it is all flash, and its sectors
can be erased, then it is all flash and there is no interrupt. -/
def NoEarlyEnd (events : Events) (banks : List Bank) (first stop : Nat) : Prop :=
  first < stop → Begins banks first → (Covered banks first stop ↔ Ends banks stop) →
    Erasable events banks first stop →
    Covered banks first stop ∧
      ∀ b i, SectorOf banks b i → Reached banks first stop b i → events.ctrlc (b.start i) = false

variable {events : Events} {b : Bank} {s l : Nat}

lemma eraseLoop_ok (events : Events) {info : Bank} {sect left : Nat}
    (unprotected : ∀ i, sect ≤ i → i < sect + left → info.protect i = 0) :
    (eraseLoop events info sect left).1 = errOk ↔
      ∀ i, sect ≤ i → i < sect + left →
        (∀ j, sect ≤ j → j ≤ i → events.ctrlc (info.start j) = false) →
        events.chip (info.start i) = .ready := by
  induction left generalizing sect with
  | zero => exact iff_of_true rfl fun i _ _ => by omega
  | succ left ih =>
    have rest := @ih (sect + 1) fun i low high => unprotected i (by omega) (by omega)
    rw [eraseLoop]
    cases stop : events.ctrlc (info.start sect) with
    | true =>
      refine iff_of_true rfl fun i low _ quiet => ?_
      rw [quiet sect le_rfl low] at stop
      cases stop
    | false =>
      rw [if_neg Bool.false_ne_true, if_pos (unprotected sect le_rfl (by omega))]
      have only (j : Nat) (low : sect ≤ j) (high : j ≤ sect) :
          events.ctrlc (info.start j) = false := by
        obtain rfl := le_antisymm high low
        exact stop
      cases result : events.chip (info.start sect) with
      | ready =>
        rw [rest]
        constructor
        · intro later i low high quiet
          by_cases here : i = sect
          · exact here ▸ result
          · exact later i (by omega) (by omega) fun j low' high' => quiet j (by omega) high'
        · intro all i low high quiet
          refine all i (by omega) (by omega) fun j low' high' => ?_
          by_cases here : j = sect
          · exact here ▸ stop
          · exact quiet j (by omega) high'
      | err =>
        refine iff_of_false (show ¬ errProgError = errOk by decide) fun all => ?_
        rw [all sect le_rfl (by omega) only] at result
        cases result
      | timeout =>
        refine iff_of_false (show ¬ errTimout = errOk by decide) fun all => ?_
        rw [all sect le_rfl (by omega) only] at result
        cases result

lemma eraseLoop_log (events : Events) (info : Bank) (sect left : Nat) :
    ∀ x ∈ (eraseLoop events info sect left).2, events.ctrlc x.1 = false ∧
      ∃ i, sect ≤ i ∧ i < sect + left ∧ info.start i = x.1 := by
  induction left generalizing sect with
  | zero => exact fun x member => absurd member List.not_mem_nil
  | succ left ih =>
    intro x member
    have later (there : x ∈ (eraseLoop events info (sect + 1) left).2) :
        events.ctrlc x.1 = false ∧
          ∃ i, sect ≤ i ∧ i < sect + (left + 1) ∧ info.start i = x.1 := by
      obtain ⟨quiet, i, low, high, same⟩ := ih (sect + 1) x there
      exact ⟨quiet, i, by omega, by omega, same⟩
    rw [eraseLoop] at member
    split at member
    case isTrue => exact absurd member List.not_mem_nil
    case isFalse quiet =>
      have here (result : Chip) (same : x = (info.start sect, result)) :
          events.ctrlc x.1 = false ∧
            ∃ i, sect ≤ i ∧ i < sect + (left + 1) ∧ info.start i = x.1 := by
        subst same
        exact ⟨Bool.eq_false_iff.mpr quiet, sect, le_rfl, by omega, rfl⟩
      split at member
      case isTrue =>
        split at member
        · rcases List.mem_cons.mp member with same | there
          · exact here _ same
          · exact later there
        · exact here _ (List.mem_singleton.mp member)
        · exact here _ (List.mem_singleton.mp member)
      case isFalse => exact later member

lemma eraseLoop_all {info : Bank} {sect left : Nat}
    (unprotected : ∀ i, sect ≤ i → i < sect + left → info.protect i = 0)
    (ok : (eraseLoop events info sect left).1 = errOk)
    (quiet : ∀ i, sect ≤ i → i < sect + left → events.ctrlc (info.start i) = false) (i : Nat)
    (low : sect ≤ i) (high : i < sect + left) :
    (info.start i, Chip.ready) ∈ (eraseLoop events info sect left).2 := by
  have ends := (eraseLoop_ok events unprotected).mp ok
  induction left generalizing sect with
  | zero => omega
  | succ left ih =>
    have ready := ends sect le_rfl (by omega) fun j low' high' =>
      quiet j low' (by omega)
    rw [eraseLoop, quiet sect le_rfl (by omega), if_neg Bool.false_ne_true,
      if_pos (unprotected sect le_rfl (by omega)), ready] at ok ⊢
    by_cases here : i = sect
    · subst here
      exact List.mem_cons_self
    refine List.mem_cons_of_mem _ (ih (fun j low' high' => unprotected j (by omega) (by omega)) ok
      (fun j low' high' => quiet j (by omega) (by omega)) (by omega) (by omega) ?_)
    intro j low' high' before
    exact ends j (by omega) (by omega) fun k low'' high'' => quiet k low'' (by omega)

lemma PlanFor.cases {R : Nat → Prop} {plan : Int × Int} (planFor : PlanFor R b plan) :
    (¬ plan.1 ≥ 0 ∧ (b.Known → ∀ i < b.sectorCount.toNat, ¬ R i)) ∨
    ∃ s l : Nat, plan = (↑s, ↑l) ∧ s ≤ l ∧ l < b.sectorCount.toNat ∧ b.Known ∧
      ∀ i < b.sectorCount.toNat, R i ↔ s ≤ i ∧ i ≤ l := by
  obtain ⟨sFirst, sLast⟩ := plan
  obtain ⟨bounds, sectors⟩ := planFor
  by_cases nonneg : 0 ≤ sFirst
  · obtain ⟨known, ordered, inside⟩ := bounds nonneg
    have nonneg' := Int.le_trans nonneg ordered
    lift sFirst to Nat using nonneg
    lift sLast to Nat using nonneg'
    refine .inr ⟨sFirst, sLast, rfl, Int.ofNat_le.mp ordered, Int.ofNat_lt.mp inside, known,
      fun i sector => ?_⟩
    have same := sectors i sector
    rw [and_iff_right known, and_iff_right (Int.natCast_nonneg sFirst), Int.ofNat_le,
      Int.ofNat_le] at same
    exact same
  · exact .inl ⟨nonneg, fun known i sector reached =>
      nonneg ((sectors i sector).mp ⟨known, reached⟩).1⟩

/-- Whether a sector from `s` to `l` is protected. -/
def anyLocked (b : Bank) (s l : Nat) : Bool :=
  (List.range' s (l - s + 1)).any fun sect => b.protect sect ≠ 0

lemma anyLocked_eq_false (ordered : s ≤ l) :
    anyLocked b s l = false ↔ ∀ i, s ≤ i → i ≤ l → b.protect i = 0 := by
  unfold anyLocked
  rw [List.any_eq_false]
  refine forall_congr' fun i => ?_
  rw [List.mem_range'_1, decide_eq_true_iff, not_not]
  exact ⟨fun all low high => all ⟨low, by omega⟩, fun all ⟨low, high⟩ => all low (by omega)⟩

lemma flashErase_eq (events : Events) (known : b.Known) (ordered : s ≤ l) :
    flashErase events b s l =
      if ¬ Amd b then (errUnknownFlashVendor, [])
      else if anyLocked b s l then (errProtected, [])
      else eraseLoop events b s (l - s + 1) := by
  have count : ((l : Int) - s + 1).toNat = l - s + 1 := by omega
  rw [flashErase, if_neg known, if_neg (by omega), count, Int.toNat_natCast]
  rfl

lemma flashErase_ok (events : Events) (known : b.Known) (ordered : s ≤ l) :
    (flashErase events b s l).1 = errOk ↔
      ∀ i, s ≤ i → i ≤ l → Amd b ∧ b.protect i = 0 ∧
        ((∀ j, s ≤ j → j ≤ i → events.ctrlc (b.start j) = false) →
          events.chip (b.start i) = .ready) := by
  rw [flashErase_eq events known ordered]
  by_cases amd : Amd b
  · rw [if_neg (not_not.mpr amd)]
    cases locked : anyLocked b s l with
    | true =>
      refine iff_of_false (show ¬ errProtected = errOk by decide) fun all => ?_
      have free := (anyLocked_eq_false ordered).mpr fun i low high => (all i low high).2.1
      rw [locked] at free
      cases free
    | false =>
      have free := (anyLocked_eq_false ordered).mp locked
      rw [if_neg Bool.false_ne_true,
        eraseLoop_ok events fun i low high => free i low (by omega)]
      constructor
      · exact fun ends i low high => ⟨amd, free i low high, ends i low (by omega)⟩
      · exact fun all i low high => (all i low (by omega)).2.2
  · rw [if_pos amd]
    exact iff_of_false (by decide) fun all => amd (all s (Nat.le_refl s) ordered).1

lemma flashErase_log (events : Events) (known : b.Known) (ordered : s ≤ l) :
    ∀ x ∈ (flashErase events b s l).2, events.ctrlc x.1 = false ∧
      ∃ i, s ≤ i ∧ i ≤ l ∧ b.start i = x.1 := by
  intro x member
  rw [flashErase_eq events known ordered] at member
  split at member
  case isTrue => exact absurd member List.not_mem_nil
  case isFalse =>
    split at member
    case isTrue => exact absurd member List.not_mem_nil
    case isFalse =>
      obtain ⟨quiet, i, low, high, same⟩ := eraseLoop_log events b s _ x member
      exact ⟨quiet, i, low, by omega, same⟩

lemma flashErase_all (known : b.Known) (ordered : s ≤ l) (ok : (flashErase events b s l).1 = errOk)
    (quiet : ∀ i, s ≤ i → i ≤ l → events.ctrlc (b.start i) = false) (i : Nat) (low : s ≤ i)
    (high : i ≤ l) : (b.start i, Chip.ready) ∈ (flashErase events b s l).2 := by
  have unlocked := (flashErase_ok events known ordered).mp ok
  have free := (anyLocked_eq_false ordered).mpr fun j low' high' => (unlocked j low' high').2.1
  rw [flashErase_eq events known ordered, if_neg (not_not.mpr (unlocked i low high).1), free,
    if_neg Bool.false_ne_true] at ok ⊢
  exact eraseLoop_all (fun j low' high' => (unlocked j low' (by omega)).2.1) ok
    (fun j low' high' => quiet j low' (by omega)) i low (by omega)

variable {R : Bank → Nat → Prop} {banks : List Bank} {plans : List (Int × Int)}

def BankErasable (events : Events) (R : Bank → Nat → Prop) (b : Bank) : Prop :=
  b.Known → ∀ i < b.sectorCount.toNat, R b i → Amd b ∧ b.protect i = 0 ∧
    ((∀ j ≤ i, R b j → events.ctrlc (b.start j) = false) → events.chip (b.start i) = .ready)

lemma bankErasable_iff (events : Events) (known : b.Known) (ordered : s ≤ l)
    (inside : l < b.sectorCount.toNat) (sectors : ∀ i < b.sectorCount.toNat, R b i ↔ s ≤ i ∧ i ≤ l)
    :
    (flashErase events b s l).1 = errOk ↔ BankErasable events R b := by
  rw [flashErase_ok events known ordered]
  constructor
  · intro ok _ i sector reached
    obtain ⟨low, high⟩ := (sectors i sector).mp reached
    obtain ⟨amd, free, ready⟩ := ok i low high
    exact ⟨amd, free, fun quiet => ready fun j low' high' =>
      quiet j high' ((sectors j (by omega)).mpr ⟨low', by omega⟩)⟩
  · intro erasable i low high
    obtain ⟨amd, free, ready⟩ :=
      erasable known i (by omega) ((sectors i (by omega)).mpr ⟨low, high⟩)
    exact ⟨amd, free, fun quiet => ready fun j high' reached =>
      quiet j ((sectors j (by omega)).mp reached).1 high'⟩

lemma eraseBanks_ok (events : Events) (plansFor : PlansFor R banks plans) :
    (eraseBanks events banks plans).1 = errOk ↔ ∀ b ∈ banks, BankErasable events R b := by
  induction banks generalizing plans with
  | nil => exact iff_of_true rfl fun b member => absurd member List.not_mem_nil
  | cons b banks ih => cases plans with
    | nil => exact absurd plansFor id
    | cons plan plans =>
      rw [eraseBanks, List.forall_mem_cons, ← ih plansFor.2]
      rcases plansFor.1.cases with
        ⟨not_here, unreached⟩ | ⟨s, l, rfl, ordered, inside, known, sectors⟩
      · rw [if_neg not_here]
        exact (and_iff_right fun known i sector reached =>
          absurd reached (unreached known i sector)).symm
      rw [if_pos (Int.natCast_nonneg s)]
      dsimp only
      rw [← bankErasable_iff events known ordered inside sectors]
      split
      case isTrue failed => exact iff_of_false failed fun ok => failed ok.1
      case isFalse ok => exact (and_iff_right (not_not.mp ok)).symm

lemma eraseBanks_log (events : Events) (plansFor : PlansFor R banks plans) :
    ∀ x ∈ (eraseBanks events banks plans).2, events.ctrlc x.1 = false ∧
      ∃ b i, SectorOf banks b i ∧ R b i ∧ b.start i = x.1 := by
  induction banks generalizing plans with
  | nil => exact fun x member => absurd member List.not_mem_nil
  | cons b banks ih => cases plans with
    | nil => exact absurd plansFor id
    | cons plan plans =>
      intro x member
      have later (there : x ∈ (eraseBanks events banks plans).2) : events.ctrlc x.1 = false ∧
          ∃ b' i, SectorOf (b :: banks) b' i ∧ R b' i ∧ b'.start i = x.1 := by
        obtain ⟨quiet, b', i, ⟨bank, known, sector⟩, reached, same⟩ := ih plansFor.2 x there
        exact ⟨quiet, b', i, ⟨List.mem_cons_of_mem b bank, known, sector⟩, reached, same⟩
      rw [eraseBanks] at member
      rcases plansFor.1.cases with ⟨not_here, -⟩ | ⟨s, l, rfl, ordered, inside, known, sectors⟩
      · rw [if_neg not_here] at member
        exact later member
      rw [if_pos (Int.natCast_nonneg s)] at member
      dsimp only at member
      have here (there : x ∈ (flashErase events b s l).2) : events.ctrlc x.1 = false ∧
          ∃ b' i, SectorOf (b :: banks) b' i ∧ R b' i ∧ b'.start i = x.1 := by
        obtain ⟨quiet, i, low, high, same⟩ := flashErase_log events known ordered x there
        exact ⟨quiet, b, i, ⟨List.mem_cons_self, known, by omega⟩,
          (sectors i (by omega)).mpr ⟨low, high⟩, same⟩
      split at member
      case isTrue => exact here member
      case isFalse => exact (List.mem_append.mp member).elim here later

lemma eraseBanks_all (plansFor : PlansFor R banks plans)
    (ok : (eraseBanks events banks plans).1 = errOk)
    (quiet : ∀ b i, SectorOf banks b i → R b i → events.ctrlc (b.start i) = false) :
    ∀ b i, SectorOf banks b i → R b i →
      (b.start i, Chip.ready) ∈ (eraseBanks events banks plans).2 := by
  induction banks generalizing plans with
  | nil => exact fun b i member => absurd member.bank List.not_mem_nil
  | cons b banks ih => cases plans with
    | nil => exact absurd plansFor id
    | cons plan plans =>
      intro b' i sector reached
      have rest (ok' : (eraseBanks events banks plans).1 = errOk) (bank : b' ∈ banks) :
          (b'.start i, Chip.ready) ∈ (eraseBanks events banks plans).2 :=
        ih plansFor.2 ok' (fun b'' i' there => quiet b'' i'
          ⟨List.mem_cons_of_mem b there.bank, there.known, there.sector⟩) b' i
          ⟨bank, sector.known, sector.sector⟩ reached
      rw [eraseBanks] at ok ⊢
      rcases plansFor.1.cases with
        ⟨not_here, unreached⟩ | ⟨s, l, rfl, ordered, inside, known, sectors⟩
      · rw [if_neg not_here] at ok ⊢
        rcases List.mem_cons.mp sector.bank with rfl | later
        · exact absurd reached (unreached sector.known i sector.sector)
        · exact rest ok later
      rw [if_pos (Int.natCast_nonneg s)] at ok ⊢
      dsimp only at ok ⊢
      split at ok
      case isTrue failed => exact absurd ok failed
      case isFalse fine =>
        rw [if_neg fine]
        rcases List.mem_cons.mp sector.bank with rfl | later
        · obtain ⟨low, high⟩ := (sectors i sector.sector).mp reached
          exact List.mem_append_left _ (flashErase_all known ordered (not_not.mp fine)
            (fun j low' high' => quiet b' j ⟨List.mem_cons_self, known, by omega⟩
              ((sectors j (by omega)).mpr ⟨low', high'⟩)) i low high)
        · exact List.mem_append_right _ (rest ok later)

lemma erasable_iff {first stop : Nat} :
    Erasable events banks first stop ↔
      ∀ b ∈ banks, BankErasable events (Reached banks first stop) b :=
  ⟨fun all b bank known i sector => all b i ⟨bank, known, sector⟩,
    fun all b i sector => all b sector.bank sector.known i sector.sector⟩

section
variable {banks : List Bank} (table : Table banks) {addrFirst addrLast : UInt32}
include table

lemma fill_cases :
    (Rejected banks addrFirst addrLast ∧
      (addrFirst.toNat < addrLast.toNat + 1 → Begins banks addrFirst.toNat →
        ¬ (Covered banks addrFirst.toNat (addrLast.toNat + 1) ↔
          Ends banks (addrLast.toNat + 1)))) ∨
    ∃ plans planned, flashFillSectRanges banks addrFirst addrLast = some (plans, planned) ∧
      planned ≠ 0 ∧ addrFirst.toNat < addrLast.toNat + 1 ∧ Begins banks addrFirst.toNat ∧
      (Covered banks addrFirst.toNat (addrLast.toNat + 1) ↔ Ends banks (addrLast.toNat + 1)) ∧
      PlansFor (Reached banks addrFirst.toNat (addrLast.toNat + 1)) banks plans := by
  by_cases order : addrFirst ≤ addrLast
  · have le := UInt32.le_iff_toNat_le.mp order
    by_cases begun : Begins banks addrFirst.toNat
    · have filled := fill_begun table order begun
      by_cases both : Covered banks addrFirst.toNat (addrLast.toNat + 1) ↔
          Ends banks (addrLast.toNat + 1)
      · obtain ⟨plans, planned, taken, positive, plansFor⟩ := filled.accepted both
        exact .inr ⟨plans, planned, taken, by omega, by omega, begun, both, plansFor⟩
      · refine .inl ⟨fun plans planned taken => ?_, fun _ _ => both⟩
        rw [filled.refused both] at taken
        cases taken
    · refine .inl ⟨fun plans planned taken => ?_, fun _ begun' => absurd begun' begun⟩
      rcases fill_unbegun table order begun with error | no_sectors
      · rw [error] at taken
        cases taken
      · rw [no_sectors] at taken
        cases taken
        rfl
  · refine .inl ⟨fun plans planned taken => ?_, fun less => ?_⟩
    · rw [fill_over fun order' => absurd order' order] at taken
      cases taken
      rfl
    · exact absurd (UInt32.le_iff_toNat_le.mpr (Nat.lt_succ_iff.mp less)) order

omit table in
lemma flashSectErase_rejected (events : Events) (rejected : Rejected banks addrFirst addrLast) :
    flashSectErase events banks addrFirst addrLast = (1, []) := by
  unfold flashSectErase
  split
  case h_1 plans planned taken => rw [if_neg (not_not.mpr (rejected plans planned taken))]
  case h_2 => rfl

omit table in
lemma flashSectErase_taken (events : Events) {planned : Int}
    (taken : flashFillSectRanges banks addrFirst addrLast = some (plans, planned))
    (some_planned : planned ≠ 0) :
    flashSectErase events banks addrFirst addrLast = eraseBanks events banks plans := by
  rw [flashSectErase, taken]
  exact if_pos some_planned

theorem flashSectErase_iff (events : Events) :
    Sound banks addrFirst.toNat (addrLast.toNat + 1) (Rejected banks addrFirst addrLast)
        (flashSectErase events banks addrFirst addrLast) ↔
      NoEarlyEnd events banks addrFirst.toNat (addrLast.toNat + 1) := by
  rcases @fill_cases banks table addrFirst addrLast with
    ⟨rejected, apart⟩ | ⟨plans, planned, taken, some_planned, less, begun, both, plansFor⟩
  · rw [flashSectErase_rejected events rejected]
    have failed : (1 : Nat) ≠ errOk := by decide
    exact iff_of_true
      ⟨fun ok => absurd ok failed, fun ok => absurd ok failed, fun ok => absurd ok failed,
        fun ok => absurd ok failed, fun x member => absurd member List.not_mem_nil, fun _ => rfl⟩
      fun less begun both => absurd both (apart less begun)
  · rw [flashSectErase_taken events taken some_planned]
    have log := eraseBanks_log events plansFor
    have ok_iff := (eraseBanks_ok events plansFor).trans erasable_iff.symm
    constructor
    · intro sound _ _ _ erasable
      have ok := ok_iff.mpr erasable
      refine ⟨sound.flash ok, fun b i sector reached => ?_⟩
      exact (log _ (sound.erased ok b i sector reached.from_first reached.to_stop)).1
    · intro no_end
      have end_of (ok : (eraseBanks events banks plans).1 = errOk) :=
        no_end less begun both (ok_iff.mp ok)
      refine ⟨fun ok => (end_of ok).1, fun _ => begun, fun ok => both.mp (end_of ok).1, ?_, ?_, ?_⟩
      · intro ok b i sector from_first to_stop
        obtain ⟨covered, quiet⟩ := end_of ok
        refine eraseBanks_all plansFor ok quiet b i sector ⟨from_first, to_stop, ?_⟩
        exact fun a above less => covered a above (Nat.lt_of_lt_of_le less to_stop)
      · intro x member
        obtain ⟨-, b, i, sector, reached, same⟩ := log x member
        exact ⟨b, i, sector, same, reached.from_first, reached.to_stop⟩
      · exact fun rejected => absurd (rejected plans planned taken) some_planned

end

def oneSector : Bank where
  size := 0x10000
  sectorCount := 1
  flashId := 0x000122BA
  start _ := 0
  protect _ := 0

def undisturbed : Events where
  ctrlc _ := false
  chip _ := .ready

lemma oneSector_stop : oneSector.stop = 65536 := by decide

lemma oneSector_table : Table [oneSector] where
  tiled b member _ := by
    obtain rfl := List.mem_singleton.mp member
    refine ⟨Nat.one_pos, fun i first => ?_, by decide⟩
    obtain rfl : i = 0 := Nat.lt_one_iff.mp first
    decide
  counts b member _ := by
    obtain rfl := List.mem_singleton.mp member
    decide
  order := List.pairwise_singleton _ _

theorem oneSector_erased :
    Sound [oneSector] (0 : UInt32).toNat ((0xFFFF : UInt32).toNat + 1)
        (Rejected [oneSector] 0 0xFFFF) (flashSectErase undisturbed [oneSector] 0 0xFFFF) ↔
      NoEarlyEnd undisturbed [oneSector] (0 : UInt32).toNat ((0xFFFF : UInt32).toNat + 1) :=
  flashSectErase_iff oneSector_table undisturbed

/-- The second half of the range has no flash behind it. -/
theorem half_of_range_no_flash : Table [oneSector] ∧
    ¬ Sound [oneSector] (0 : UInt32).toNat ((0x1FFFF : UInt32).toNat + 1)
      (Rejected [oneSector] 0 0x1FFFF) (flashSectErase undisturbed [oneSector] 0 0x1FFFF) := by
  refine ⟨oneSector_table, fun sound => ?_⟩
  have ok : (flashSectErase undisturbed [oneSector] 0 0x1FFFF).1 = errOk := by decide
  obtain ⟨b, member, -, -, less⟩ := sound.flash ok 0x10000 (by decide) (by decide)
  obtain rfl := List.mem_singleton.mp member
  rw [oneSector_stop] at less
  omega

/-! ## The end of a sector

`flash_sect_roundb` moves the end of a range to the end of the sector it lies in. -/

def sectorEndAddr (info : Bank) (i : Nat) : UInt32 :=
  if (i : Int) = info.sectorCount.toNat - 1 then info.start 0 + info.size - 1
  else info.start (i + 1) - 1

def roundInBank (addr : UInt32) (info : Bank) : Option UInt32 :=
  let holds (i : Nat) : Bool := addr ≤ sectorEndAddr info i ∧ addr ≥ info.start i
  ((List.range info.sectorCount.toNat).find? holds).map fun i =>
    if addr < sectorEndAddr info i then sectorEndAddr info i else addr

def flashSectRoundb (banks : List Bank) (addr : UInt32) : Option UInt32 :=
  banks.findSome? (roundInBank addr)

variable {addr : UInt32}

section
variable {b : Bank} (tiled : b.Tiled)
include tiled

lemma sectorEndAddr_toNat {i : Nat} (sector : i < b.sectorCount.toNat) :
    (sectorEndAddr b i).toNat + 1 = b.sectorStop i := by
  have start := tiled.sectors i sector
  unfold sectorEndAddr Bank.sectorStop at *
  by_cases last : i + 1 = b.sectorCount.toNat
  · rw [if_pos (by omega), if_pos last]
    exact bEnd_toNat tiled
  have small := (b.start (i + 1)).toNat_lt
  rw [if_neg last] at start
  rw [if_neg (by omega), if_neg last, UInt32.toNat_sub, UInt32.toNat_one]
  omega

lemma roundInBank_some {last : UInt32} (rounded : roundInBank addr b = some last) :
    addr ≤ last ∧ ∃ i < b.sectorCount.toNat, (b.start i).toNat ≤ addr.toNat ∧
      b.sectorStop i = last.toNat + 1 := by
  unfold roundInBank at rounded
  obtain ⟨i, found, same⟩ := Option.map_eq_some_iff.mp rounded
  have sector := List.mem_range.mp (List.mem_of_find?_eq_some found)
  have holds := List.find?_some found
  obtain ⟨below, above⟩ := of_decide_eq_true holds
  have stop := sectorEndAddr_toNat tiled sector
  have at_end : sectorEndAddr b i = last := by
    rw [← same]
    split
    case isTrue => rfl
    case isFalse high => exact UInt32.le_antisymm (UInt32.not_lt.mp high) below
  rw [at_end] at below stop
  exact ⟨below, i, sector, UInt32.le_iff_toNat_le.mp above, stop.symm⟩

end

end SectRange
