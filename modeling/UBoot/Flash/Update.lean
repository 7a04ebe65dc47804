import Mathlib.Data.List.Nodup
import UBoot.Flash.SectErase

/-!
# Updating the flash (common/update.c)

`update_flash` takes the protection of the sectors it writes away, erases them, writes them and
protects them again. Whether a sector can be protected, how each erasure ends and how a bank is
written is up to the machine.
-/

namespace UpdateFlash

open FlashBanks Memory32
open SectRange (flashSectRoundb flashSectErase)

/-- A row of `saved_prot_info`, for the sectors of a bank. -/
abbrev Row := Nat → UInt8

/-- Whether `flash_real_protect (info, i, prot)` succeeds, for the bank with a number. Without
`CONFIG_SYS_FLASH_PROTECTION` it always does. -/
abbrev RealProtect := (bank i : Nat) → (prot : UInt8) → Bool

/-- `info->protect[i] = prot`, behind a `flash_real_protect` that succeeds. -/
def setProtect (info : Bank) (i : Nat) (prot : UInt8) : Bank :=
  { info with protect := Function.update info.protect i prot }

/-- What `update_flash_protect` knows of a sector: `sp_info_ptr[i]`, which is saved first if the
sector starts in the range. -/
def savedInfo (prot : UInt8) (first last : UInt32) (info : Bank) (sp : Row) (i : Nat) : UInt8 :=
  if prot = 0 ∧ first ≤ info.start i ∧ info.start i ≤ last then info.protect i else sp i

/-- The loop over the sectors of a bank: whether it comes to its end, and the bank with its row. -/
def sectorLoop (real : Nat → UInt8 → Bool) (prot : UInt8) (first last : UInt32) :
    (i left : Nat) → Bank → Row → Bool × Bank × Row
  | _, 0, info, sp => (true, info, sp)
  | i, left + 1, info, sp =>
    let sp := Function.update sp i (savedInfo prot first last info sp i)
    if sp i = 1 then
      if real i prot then
        sectorLoop real prot first last (i + 1) left (setProtect info i prot) sp
      else (false, info, sp)
    else sectorLoop real prot first last (i + 1) left info sp

/-- The end of the range, at most the last byte of the bank. -/
def clampLast (info : Bank) (last : UInt32) : UInt32 :=
  if last > info.start 0 + info.size - 1 then info.start 0 + info.size - 1 else last

/-- The begin of the range, at least the first byte of the bank. -/
def clampFirst (info : Bank) (first : UInt32) : UInt32 :=
  if first < info.start 0 then info.start 0 else first

/-- The loop over the banks. What a bank has cut off the range is not given back to the next. -/
def bankLoop (real : RealProtect) (prot : UInt8) : (bank : Nat) → (first last : UInt32) →
    List (Bank × Row) → Bool × List (Bank × Row)
  | _, _, _, [] => (true, [])
  | bank, first, last, (info, sp) :: rows =>
    if info.sectorCount = 0 then (true, (info, sp) :: rows)
    else
      let last := clampLast info last
      let first := clampFirst info first
      let r := sectorLoop (real bank) prot first last 0 info.sectorCount.toNat info sp
      if r.1 then
        let later := bankLoop real prot (bank + 1) first last rows
        (later.1, r.2 :: later.2)
      else (false, r.2 :: rows)

/-- `update_flash_protect`, where `room` says whether `calloc` has room. -/
def updateFlashProtect (room : Bool) (real : RealProtect) (prot : UInt8) (first last : UInt32)
    (rows : List (Bank × Row)) : Bool × List (Bank × Row) :=
  if prot = 0 then
    if room then bankLoop real prot 0 first last (rows.map fun row => (row.1, fun _ => 0))
    else (false, rows)
  else bankLoop real prot 0 first last rows

/-- What the code does not decide: whether `calloc` has room, whether the protection of a sector can
be changed, the interrupts and the ends of erasures, what an erasure makes of the flash, and the
`write_buff` of the board. -/
structure Machine where
  room : Bool
  real : RealProtect
  events : SectRange.Events
  wipe : (sector : UInt32) → SectRange.Chip → Mem → Mem
  writeBuff : WriteBuff

/-- The flash after the erasures that were logged, in their order. -/
def Machine.wiped (m : Machine) (log : List (UInt32 × SectRange.Chip)) (flash : Mem) : Mem :=
  log.foldl (fun flash erasure => m.wipe erasure.1 erasure.2 flash) flash

/-- What `update_flash` leaves: what it returns, the banks and the flash. -/
structure Updated where
  rcode : Nat
  banks : List Bank
  flash : Mem

/-- `update_flash` behind the first `update_flash_protect`. -/
def eraseAndCopy (m : Machine) (ram : Mem) (source addr size last : UInt32)
    (rows : List (Bank × Row)) (flash : Mem) : Updated :=
  let banks := rows.map Prod.fst
  let erased := flashSectErase m.events banks addr last
  let flash := m.wiped erased.2 flash
  if erased.1 > 0 then ⟨1, banks, flash⟩
  else
    let written := flashWrite m.writeBuff banks ram source addr size flash
    if written.1 > 0 then ⟨1, banks, written.2⟩
    else
      let again := updateFlashProtect m.room m.real 1 addr last rows
      ⟨if again.1 then 0 else 1, again.2.map Prod.fst, written.2⟩

/-- `update_flash`; `rows` are the banks and the rows of `saved_prot_info` before it. -/
def updateFlash (m : Machine) (ram : Mem) (source addr size : UInt32) (rows : List (Bank × Row))
    (flash : Mem) : Updated :=
  match flashSectRoundb (rows.map Prod.fst) (addr + size - 1) with
  | none => ⟨1, rows.map Prod.fst, flash⟩
  | some last =>
    if addr ≥ last then ⟨1, rows.map Prod.fst, flash⟩
    else
      let unprotected := updateFlashProtect m.room m.real 0 addr last rows
      if unprotected.1 then eraseAndCopy m ram source addr size last unprotected.2 flash
      else ⟨1, unprotected.2.map Prod.fst, flash⟩

/-! ## What is promised -/

/-- The flag of a sector, 0 behind the banks. -/
def flagOf : List Bank → (bank i : Nat) → UInt8
  | [], _, _ => 0
  | info :: _, 0, i => info.protect i
  | _ :: infos, bank + 1, i => flagOf infos bank i

/-- Every sector is protected as before, and the flash has the bytes if 0 is returned. -/
structure Right (banks : List Bank) (ram : Mem) (source addr size : UInt32) (r : Updated) :
    Prop where
  flags : ∀ bank i, flagOf r.banks bank i = flagOf banks bank i
  content : r.rcode = 0 → ∀ i < size.toNat,
    r.flash (addr + UInt32.ofNat i) = ram (source + UInt32.ofNat i)

/-- The sectors of the range with flag 1, bank by bank up to the first bank without sectors. -/
def protectedSectors : (bank : Nat) → (first last : UInt32) → List Bank → List (Nat × Nat)
  | _, _, _, [] => []
  | bank, first, last, info :: infos =>
    if info.sectorCount = 0 then []
    else
      let last := clampLast info last
      let first := clampFirst info first
      ((List.range info.sectorCount.toNat).filter fun i =>
        first ≤ info.start i ∧ info.start i ≤ last ∧ info.protect i = 1).map (bank, ·) ++
      protectedSectors (bank + 1) first last infos

/-- No sector is protected, or the protection of the first cannot be taken away, or everything
succeeds: the protection of each is taken away and comes again, and the flash is erased and
written. -/
def Restores (real : RealProtect) (erase write : Nat) : List (Nat × Nat) → Prop
  | [] => True
  | sector :: sectors =>
    real sector.1 sector.2 0 = false ∨
      erase = 0 ∧ write = 0 ∧
        ∀ s ∈ sector :: sectors, real s.1 s.2 0 = true ∧ real s.1 s.2 1 = true

/-- The banks with another protection of some sectors; the first bank has the number `bank`. -/
def withProtect (prot : UInt8) (sectors : List (Nat × Nat)) : (bank : Nat) → List Bank → List Bank
  | _, [] => []
  | bank, info :: infos =>
    { info with protect := fun i => if (bank, i) ∈ sectors then prot else info.protect i } ::
      withProtect prot sectors (bank + 1) infos

/-- If anything is changed at all, then what is unprotected is protected again: `flash_sect_erase` and
`flash_write` work on the banks with the sectors unprotected. -/
def Condition (m : Machine) (ram : Mem) (source addr size : UInt32) (banks : List Bank)
    (flash : Mem) : Prop :=
  ∀ last, flashSectRoundb banks (addr + size - 1) = some last → addr < last → m.room = true →
    let sectors := protectedSectors 0 addr last banks
    let unprotected := withProtect 0 sectors 0 banks
    let erased := flashSectErase m.events unprotected addr last
    let written := flashWrite m.writeBuff unprotected ram source addr size
      (m.wiped erased.2 flash)
    Restores m.real erased.1 written.1 sectors

/-! ## Going through a list until something fails -/

/-- `done` is what was done of a list: all of it, or what is in front of the first that fails. -/
def Walk {α : Type} (succeeds : α → Bool) (sites : List α) (ok : Bool) (done : List α) : Prop :=
  (ok = true ∧ done = sites ∧ ∀ s ∈ sites, succeeds s = true) ∨
    (ok = false ∧ ∃ s later, sites = done ++ s :: later ∧ (∀ d ∈ done, succeeds d = true) ∧
      succeeds s = false)

section
variable {α β : Type} {succeeds : α → Bool} {sites sites' done done' : List α} {ok : Bool}

lemma Walk.nil : Walk succeeds [] true [] := .inl ⟨rfl, rfl, List.forall_mem_nil _⟩

lemma Walk.stop {s : α} (fails : succeeds s = false) : Walk succeeds (s :: sites) false [] :=
  .inr ⟨rfl, s, sites, rfl, List.forall_mem_nil _, fails⟩

lemma Walk.cons {s : α} (succeeds_s : succeeds s = true) (later : Walk succeeds sites ok done) :
    Walk succeeds (s :: sites) ok (s :: done) := by
  rcases later with ⟨rfl, rfl, all⟩ | ⟨rfl, p, rest, rfl, before, fails⟩
  · exact .inl ⟨rfl, rfl, List.forall_mem_cons.mpr ⟨succeeds_s, all⟩⟩
  · exact .inr ⟨rfl, p, rest, rfl, List.forall_mem_cons.mpr ⟨succeeds_s, before⟩, fails⟩

lemma Walk.append (first : Walk succeeds sites true done) (second : Walk succeeds sites' ok done') :
    Walk succeeds (sites ++ sites') ok (done ++ done') := by
  rcases first with ⟨-, rfl, all⟩ | ⟨impossible, -⟩
  · rcases second with ⟨rfl, rfl, all'⟩ | ⟨rfl, p, rest, rfl, before, fails⟩
    · exact .inl ⟨rfl, rfl, List.forall_mem_append.mpr ⟨all, all'⟩⟩
    · exact .inr ⟨rfl, p, rest, (List.append_assoc ..).symm,
        List.forall_mem_append.mpr ⟨all, before⟩, fails⟩
  · cases impossible

lemma Walk.failed_append (first : Walk succeeds sites false done) (more : List α) :
    Walk succeeds (sites ++ more) false done := by
  rcases first with ⟨impossible, -⟩ | ⟨-, p, rest, rfl, before, fails⟩
  · cases impossible
  · exact .inr ⟨rfl, p, rest ++ more, by rw [List.append_assoc, List.cons_append], before, fails⟩

lemma Walk.map {succeeds' : β → Bool} {f : α → β} (same : ∀ s, succeeds' (f s) = succeeds s)
    (walk : Walk succeeds sites ok done) : Walk succeeds' (sites.map f) ok (done.map f) := by
  rcases walk with ⟨rfl, rfl, all⟩ | ⟨rfl, p, rest, rfl, before, fails⟩
  · refine .inl ⟨rfl, rfl, List.forall_mem_map.mpr fun s member => ?_⟩
    rw [same]
    exact all s member
  · refine .inr ⟨rfl, f p, rest.map f, by rw [List.map_append, List.map_cons],
      List.forall_mem_map.mpr fun s member => ?_, (same p).trans fails⟩
    rw [same]
    exact before s member

lemma Walk.subset (walk : Walk succeeds sites ok done) : ∀ s ∈ done, s ∈ sites := by
  rcases walk with ⟨-, rfl, -⟩ | ⟨-, p, rest, rfl, -⟩
  · exact fun s member => member
  · exact fun s member => List.mem_append_left _ member

end

/-! ## A bank -/

/-- The sectors of a bank for which `flash_real_protect` is called, unless it fails before. -/
def sectorSites (prot : UInt8) (first last : UInt32) (info : Bank) (sp : Row) (i left : Nat) :
    List Nat :=
  (List.range' i left).filter fun j => savedInfo prot first last info sp j = 1

/-- What the loop over the sectors comes to, from sector `i` on. -/
structure Passed (real : Nat → UInt8 → Bool) (prot : UInt8) (first last : UInt32) (i left : Nat)
    (info : Bank) (sp : Row) (r : Bool × Bank × Row) (done : List Nat) : Prop where
  walk : Walk (fun j => real j prot) (sectorSites prot first last info sp i left) r.1 done
  bank_eq : r.2.1 = { info with protect := fun j => if j ∈ done then prot else info.protect j }
  row_eq : r.1 = true → ∀ j, r.2.2 j =
    if i ≤ j ∧ j < i + left then savedInfo prot first last info sp j else sp j

lemma savedInfo_congr {prot : UInt8} {first last : UInt32} {info info' : Bank} {sp sp' : Row}
    {j : Nat}
    (start : info'.start = info.start) (protect : info'.protect j = info.protect j)
    (row : sp' j = sp j) :
    savedInfo prot first last info' sp' j = savedInfo prot first last info sp j := by
  rw [savedInfo, savedInfo, start, protect, row]

lemma sectorSites_congr {prot : UInt8} {first last : UInt32} {info info' : Bank} {sp sp' : Row}
    {i left : Nat} (start : info'.start = info.start)
    (protect : ∀ j, i ≤ j → info'.protect j = info.protect j) (row : ∀ j, i ≤ j → sp' j = sp j) :
    sectorSites prot first last info' sp' i left = sectorSites prot first last info sp i left := by
  refine List.filter_congr fun j member => ?_
  have low := (List.mem_range'_1.mp member).1
  rw [savedInfo_congr start (protect j low) (row j low)]

lemma sectorSites_succ (prot : UInt8) (first last : UInt32) (info : Bank) (sp : Row)
    (i left : Nat) : sectorSites prot first last info sp i (left + 1) =
      if savedInfo prot first last info sp i = 1 then
        i :: sectorSites prot first last info sp (i + 1) left
      else sectorSites prot first last info sp (i + 1) left := by
  rw [sectorSites, List.range'_succ, List.filter_cons]
  simp only [decide_eq_true_eq]
  rfl

def passedRow (prot : UInt8) (first last : UInt32) (info : Bank) (sp : Row) (i : Nat) : Row :=
  Function.update sp i (savedInfo prot first last info sp i)

lemma passedRow_above (prot : UInt8) (first last : UInt32) (info : Bank) (sp : Row) (i : Nat) :
    ∀ j, i + 1 ≤ j → passedRow prot first last info sp i j = sp j :=
  fun j above => Function.update_of_ne (by omega) _ _

lemma passedRow_succ {prot : UInt8} {first last : UInt32} {info info' : Bank} {sp : Row}
    {i left : Nat} (start : info'.start = info.start)
    (protect : ∀ j, i + 1 ≤ j → info'.protect j = info.protect j) (j : Nat) :
    (if i + 1 ≤ j ∧ j < i + 1 + left then
        savedInfo prot first last info' (passedRow prot first last info sp i) j
      else passedRow prot first last info sp i j) =
    if i ≤ j ∧ j < i + (left + 1) then savedInfo prot first last info sp j else sp j := by
  by_cases here : j = i
  · subst here
    rw [if_neg (by omega), passedRow, Function.update_self, if_pos (by omega)]
  by_cases inside : i + 1 ≤ j ∧ j < i + 1 + left
  · rw [if_pos inside, if_pos (by omega), savedInfo_congr start (protect j inside.1)
      (passedRow_above prot first last info sp i j inside.1)]
  · rw [if_neg inside, if_neg (by omega), passedRow, Function.update_of_ne here]

lemma sectorLoop_passed (real : Nat → UInt8 → Bool) (prot : UInt8) (first last : UInt32)
    (i left : Nat) (info : Bank) (sp : Row) :
    ∃ done, Passed real prot first last i left info sp
      (sectorLoop real prot first last i left info sp) done := by
  induction left generalizing i info sp with
  | zero =>
    exact ⟨[], .nil, rfl, fun _ j => (if_neg (by omega)).symm⟩
  | succ left ih =>
    have sites := sectorSites_succ prot first last info sp i left
    have row := passedRow_above prot first last info sp i
    have last_row {info' : Bank} := @passedRow_succ prot first last info info' sp i left
    rw [sectorLoop]
    simp only [Function.update_self]
    rw [← passedRow]
    by_cases due : savedInfo prot first last info sp i = 1
    · rw [if_pos due] at sites
      rw [if_pos due]
      cases succeeds : real i prot with
      | false =>
        refine ⟨[], ?_, rfl, fun impossible => nomatch impossible⟩
        rw [sites]
        exact .stop succeeds
      | true =>
        have kept : ∀ j, i + 1 ≤ j → (setProtect info i prot).protect j = info.protect j :=
          fun j above => Function.update_of_ne (by omega) _ _
        obtain ⟨done, walk, bank, saved⟩ := ih (i + 1)
          (setProtect info i prot) (passedRow prot first last info sp i)
        refine ⟨i :: done, ?_, ?_, fun ok j => ?_⟩
        · rw [sites]
          have same : sectorSites prot first last (setProtect info i prot)
              (passedRow prot first last info sp i) (i + 1) left =
              sectorSites prot first last info sp (i + 1) left := sectorSites_congr rfl kept row
          rw [same] at walk
          exact .cons succeeds walk
        · rw [if_pos rfl, bank]
          refine congrArg (fun protect => { info with protect := protect }) (funext fun j => ?_)
          by_cases here : j = i
          · subst here
            simp [setProtect]
          · simp [setProtect, here]
        · rw [if_pos rfl] at ok ⊢
          rw [saved ok, @last_row (setProtect info i prot) rfl kept]
    · rw [if_neg due] at sites
      rw [if_neg due]
      obtain ⟨done, walk, bank, saved⟩ := ih (i + 1) info (passedRow prot first last info sp i)
      refine ⟨done, ?_, bank, fun ok j => ?_⟩
      · rw [sites]
        rwa [sectorSites_congr rfl (fun _ _ => rfl) row] at walk
      · rw [saved ok, last_row rfl fun _ _ => rfl]

/-! ## The banks -/

def sites (prot : UInt8) : (bank : Nat) → (first last : UInt32) → List (Bank × Row) →
    List (Nat × Nat)
  | _, _, _, [] => []
  | bank, first, last, (info, sp) :: rows =>
    if info.sectorCount = 0 then []
    else
      let last := clampLast info last
      let first := clampFirst info first
      (sectorSites prot first last info sp 0 info.sectorCount.toNat).map (bank, ·) ++
        sites prot (bank + 1) first last rows

/-- The sites are in the banks of the rows. -/
lemma sites_bank (prot : UInt8) (bank : Nat) (first last : UInt32) (rows : List (Bank × Row)) :
    ∀ s ∈ sites prot bank first last rows, bank ≤ s.1 ∧ s.1 < bank + rows.length := by
  induction rows generalizing bank first last with
  | nil => exact List.forall_mem_nil _
  | cons row rows ih =>
    intro s member
    rw [List.length_cons]
    rw [sites] at member
    split at member
    · cases member
    rcases List.mem_append.mp member with here | later
    · obtain ⟨j, -, rfl⟩ := List.mem_map.mp here
      dsimp only
      omega
    · have := ih (bank + 1) _ _ s later
      omega

lemma sites_nodup (prot : UInt8) (bank : Nat) (first last : UInt32) (rows : List (Bank × Row)) :
    (sites prot bank first last rows).Nodup := by
  induction rows generalizing bank first last with
  | nil => exact List.nodup_nil
  | cons row rows ih =>
    rw [sites]
    split
    · exact List.nodup_nil
    refine List.nodup_append.mpr ⟨?_, ih _ _ _, ?_⟩
    · exact (List.Nodup.filter _ List.nodup_range').map fun i j same => congrArg Prod.snd same
    · rintro s here s' later rfl
      obtain ⟨j, -, rfl⟩ := List.mem_map.mp here
      exact absurd (sites_bank prot (bank + 1) _ _ rows _ later).1 (Nat.not_succ_le_self bank)

lemma mem_map_pair {bank bank' j : Nat} {done : List Nat} :
    (bank', j) ∈ done.map (bank, ·) ↔ bank' = bank ∧ j ∈ done := by
  simp only [List.mem_map, Prod.mk.injEq]
  constructor
  · rintro ⟨i, member, rfl, rfl⟩
    exact ⟨rfl, member⟩
  · rintro ⟨rfl, member⟩
    exact ⟨j, member, rfl, rfl⟩

lemma withProtect_congr {prot : UInt8} {sectors sectors' : List (Nat × Nat)} {bank : Nat}
    (infos : List Bank) (same : ∀ s, bank ≤ s.1 → (s ∈ sectors ↔ s ∈ sectors')) :
    withProtect prot sectors bank infos = withProtect prot sectors' bank infos := by
  induction infos generalizing bank with
  | nil => rfl
  | cons info infos ih =>
    have here (i : Nat) : (bank, i) ∈ sectors ↔ (bank, i) ∈ sectors' := same _ (Nat.le_refl bank)
    simp only [withProtect, here, ih fun s above => same s (Nat.le_of_succ_le above)]

lemma withProtect_none {prot : UInt8} {sectors : List (Nat × Nat)} {bank : Nat}
    (infos : List Bank) (none : ∀ s ∈ sectors, s.1 < bank) :
    withProtect prot sectors bank infos = infos := by
  induction infos generalizing bank with
  | nil => rfl
  | cons info infos ih =>
    have away (i : Nat) : (bank, i) ∉ sectors := fun member =>
      absurd (none _ member) (Nat.lt_irrefl bank)
    simp only [withProtect, away, if_false, ih fun s member => Nat.lt_succ_of_lt (none s member)]

lemma flagOf_withProtect {prot : UInt8} {sectors : List (Nat × Nat)} {bank : Nat}
    {infos : List Bank} (inside : ∀ s ∈ sectors, s.1 < bank + infos.length) (k j : Nat) :
    flagOf (withProtect prot sectors bank infos) k j =
      if (bank + k, j) ∈ sectors then prot else flagOf infos k j := by
  induction infos generalizing bank k with
  | nil =>
    refine (if_neg fun member => ?_).symm
    have := inside _ member
    rw [List.length_nil] at this
    omega
  | cons info infos ih =>
    cases k with
    | zero => rfl
    | succ k =>
      rw [withProtect, flagOf, ih (by simpa [Nat.add_assoc, Nat.add_comm 1] using inside), flagOf,
        show bank + 1 + k = bank + (k + 1) by omega]

lemma bankLoop_passed (real : RealProtect) (prot : UInt8) (bank : Nat) (first last : UInt32)
    (rows : List (Bank × Row)) :
    ∃ done, Walk (fun s => real s.1 s.2 prot) (sites prot bank first last rows)
        (bankLoop real prot bank first last rows).1 done ∧
      (bankLoop real prot bank first last rows).2.map Prod.fst =
        withProtect prot done bank (rows.map Prod.fst) := by
  induction rows generalizing bank first last with
  | nil => exact ⟨[], .nil, rfl⟩
  | cons row rows ih =>
    obtain ⟨info, sp⟩ := row
    rw [bankLoop, sites]
    by_cases none : info.sectorCount = 0
    · rw [if_pos none, if_pos none]
      exact ⟨[], .nil, (withProtect_none _ (List.forall_mem_nil _)).symm⟩
    rw [if_neg none, if_neg none]
    dsimp only
    obtain ⟨done, passed⟩ := sectorLoop_passed (real bank) prot (clampFirst info first)
      (clampLast info last) 0 info.sectorCount.toNat info sp
    generalize sectorLoop (real bank) prot (clampFirst info first) (clampLast info last) 0
      info.sectorCount.toNat info sp = r at passed
    have walk : Walk (fun s : Nat × Nat => real s.1 s.2 prot) _ r.1 (done.map (bank, ·)) :=
      passed.walk.map fun s => rfl
    have low : ∀ s ∈ done.map (bank, ·), s.1 < bank + 1 := by
      rintro s member
      obtain ⟨j, -, rfl⟩ := List.mem_map.mp member
      exact Nat.lt_succ_self bank
    obtain ⟨ok, info', sp'⟩ := r
    have changed : info' =
        { info with protect := fun j => if j ∈ done then prot else info.protect j } :=
      passed.bank_eq
    cases ok with
    | false =>
      refine ⟨done.map (bank, ·), walk.failed_append _, ?_⟩
      rw [if_neg Bool.false_ne_true, List.map_cons, List.map_cons, withProtect,
        withProtect_none _ low, changed]
      simp only [mem_map_pair, true_and]
    | true =>
      obtain ⟨done', walk', rest⟩ := ih (bank + 1) (clampFirst info first) (clampLast info last)
      refine ⟨done.map (bank, ·) ++ done', walk.append walk', ?_⟩
      have away (j : Nat) : (bank, j) ∉ done' := fun member =>
        absurd (sites_bank prot (bank + 1) _ _ rows _ (walk'.subset _ member)).1
          (Nat.not_succ_le_self bank)
      rw [if_pos rfl, List.map_cons, List.map_cons, withProtect, rest, changed]
      simp only [List.mem_append, mem_map_pair, true_and, away, or_false]
      refine congrArg _ (withProtect_congr _ fun s above => ?_)
      rw [List.mem_append]
      exact (or_iff_right fun member => absurd (low s member) (Nat.not_lt.mpr above)).symm

lemma bankLoop_flags {real : RealProtect} {prot : UInt8} {bank : Nat} {first last : UInt32}
    {rows : List (Bank × Row)} {ok : Bool} {done : List (Nat × Nat)} {banks : List Bank}
    (walk : Walk (fun s => real s.1 s.2 prot) (sites prot bank first last rows) ok done)
    (changed : banks = withProtect prot done bank (rows.map Prod.fst)) (k j : Nat) :
    flagOf banks k j =
      if (bank + k, j) ∈ done then prot else flagOf (rows.map Prod.fst) k j := by
  rw [changed, flagOf_withProtect fun s member => ?_]
  rw [List.length_map]
  exact (sites_bank prot bank first last rows s (walk.subset s member)).2

lemma sites_again (real : RealProtect) (bank : Nat) (first last : UInt32) (rows : List (Bank × Row))
    (ok : (bankLoop real 0 bank first last rows).1 = true) :
    sites 1 bank first last (bankLoop real 0 bank first last rows).2 =
      sites 0 bank first last rows := by
  induction rows generalizing bank first last with
  | nil => rfl
  | cons row rows ih =>
    obtain ⟨info, sp⟩ := row
    rw [bankLoop] at ok ⊢
    rw [sites]
    by_cases none : info.sectorCount = 0
    · rw [if_pos none, if_pos none, sites, if_pos none]
    rw [if_neg none] at ok ⊢
    rw [if_neg none]
    dsimp only at ok ⊢
    obtain ⟨done, passed⟩ := sectorLoop_passed (real bank) 0 (clampFirst info first)
      (clampLast info last) 0 info.sectorCount.toNat info sp
    generalize sectorLoop (real bank) 0 (clampFirst info first) (clampLast info last) 0
      info.sectorCount.toNat info sp = r at passed ok ⊢
    obtain ⟨whole, info', sp'⟩ := r
    cases whole with
    | false => cases ok
    | true =>
      rw [if_pos rfl] at ok ⊢
      have bank := passed.bank_eq
      dsimp only at bank
      have start : info'.start = info.start := by rw [bank]
      have size : info'.size = info.size := by rw [bank]
      have count : info'.sectorCount = info.sectorCount := by rw [bank]
      have row := passed.row_eq rfl
      dsimp only at row
      have same_last : clampLast info' last = clampLast info last := by
        rw [clampLast, clampLast, start, size]
      have same_first : clampFirst info' first = clampFirst info first := by
        rw [clampFirst, clampFirst, start]
      rw [sites, count, if_neg none]
      dsimp only
      rw [same_last, same_first, ih _ _ _ ok]
      congr 2
      refine List.filter_congr fun j member => ?_
      have inside := List.mem_range'_1.mp member
      have saved :
          savedInfo 1 (clampFirst info first) (clampLast info last) info' sp' j = sp' j :=
        if_neg fun taken => absurd taken.1 (by decide)
      rw [saved, row, if_pos ⟨inside.1, inside.2⟩]

lemma sites_protected (bank : Nat) (first last : UInt32) (rows : List (Bank × Row)) :
    sites 0 bank first last (rows.map fun row => (row.1, fun _ => 0)) =
      protectedSectors bank first last (rows.map Prod.fst) := by
  induction rows generalizing bank first last with
  | nil => rfl
  | cons row rows ih =>
    rw [List.map_cons, List.map_cons, sites, protectedSectors]
    by_cases none : row.1.sectorCount = 0
    · rw [if_pos none, if_pos none]
    rw [if_neg none, if_neg none]
    dsimp only
    rw [ih, sectorSites, List.range_eq_range']
    congr 2
    refine List.filter_congr fun j _ => ?_
    rw [savedInfo]
    by_cases inside :
      clampFirst row.1 first ≤ row.1.start j ∧ row.1.start j ≤ clampLast row.1 last
    · simp [inside]
    rw [if_neg fun taken => inside taken.2]
    have other : ¬ (clampFirst row.1 first ≤ row.1.start j ∧
        row.1.start j ≤ clampLast row.1 last ∧ row.1.protect j = 1) :=
      fun taken => inside ⟨taken.1, taken.2.1⟩
    rw [decide_eq_false other]
    rfl

/-! ## The flags are restored -/

variable {before : Nat → Nat → UInt8} {source addr size : UInt32}

lemma protectedSectors_flag (bank : Nat) (first last : UInt32) (infos : List Bank) {k j : Nat}
    (member : (bank + k, j) ∈ protectedSectors bank first last infos) : flagOf infos k j = 1 := by
  induction infos generalizing bank first last k with
  | nil => cases member
  | cons info infos ih =>
    rw [protectedSectors] at member
    split at member
    · cases member
    rcases List.mem_append.mp member with here | later
    · obtain ⟨same, due⟩ := mem_map_pair.mp here
      obtain rfl : k = 0 := by omega
      have holds := (List.mem_filter.mp due).2
      exact (of_decide_eq_true holds).2.2
    have behind : bank + 1 ≤ bank + k := by
      have zeros := sites_protected (bank + 1) (clampFirst info first) (clampLast info last)
        (infos.map fun info => (info, fun _ => 0))
      have names : (infos.map fun info => (info, (fun _ => 0 : Row))).map Prod.fst = infos := by
        rw [List.map_map]
        exact List.map_id infos
      rw [names] at zeros
      rw [← zeros] at later
      exact (sites_bank 0 _ _ _ _ _ later).1
    obtain ⟨k, rfl⟩ : ∃ m, k = m + 1 := ⟨k - 1, by omega⟩
    rw [show bank + (k + 1) = bank + 1 + k by omega] at later
    exact ih (bank + 1) _ _ later

/-- The flags after the first pass. -/
def Cleared (before after : Nat → Nat → UInt8) (done : List (Nat × Nat)) : Prop :=
  ∀ k j, after k j = if (k, j) ∈ done then 0 else before k j

lemma Cleared.same_iff {after : Nat → Nat → UInt8} {done : List (Nat × Nat)}
    (cleared : Cleared before after done) (were : ∀ s ∈ done, before s.1 s.2 = 1) :
    (∀ k j, after k j = before k j) ↔ done = [] := by
  constructor
  · intro same
    refine List.eq_nil_iff_forall_not_mem.mpr fun s member => ?_
    have left := same s.1 s.2
    rw [cleared, if_pos member, were s member] at left
    exact absurd left (by decide)
  · rintro rfl k j
    rw [cleared, if_neg List.not_mem_nil]

lemma restored_iff {succeeds : Nat × Nat → Bool} {after : Nat → Nat → UInt8}
    {sectors done : List (Nat × Nat)} {ok : Bool} (were : ∀ s ∈ sectors, before s.1 s.2 = 1)
    (nodup : sectors.Nodup) (walk : Walk succeeds sectors ok done) (flags : ∀ k j, after k j =
      if (k, j) ∈ done then 1 else if (k, j) ∈ sectors then 0 else before k j) :
    (∀ k j, after k j = before k j) ↔ ∀ s ∈ sectors, succeeds s = true := by
  rcases walk with ⟨-, rfl, all⟩ | ⟨-, s, later, rfl, -, fails⟩
  · refine iff_of_true (fun k j => ?_) all
    rw [flags]
    split
    · exact (were (k, j) ‹_›).symm
    · rfl
  · have member : s ∈ done ++ s :: later := List.mem_append_right _ List.mem_cons_self
    refine iff_of_false (fun same => ?_) fun all => ?_
    · have apart : s ∉ done := fun here =>
        (List.nodup_append.mp nodup).2.2 s here s List.mem_cons_self rfl
      have left := same s.1 s.2
      rw [flags, if_neg apart, if_pos member, were s member] at left
      exact absurd left (by decide)
    · rw [all s member] at fails
      cases fails

lemma eraseAndCopy_flags (m : Machine) (ram : Mem) (source size : UInt32) {last : UInt32}
    {rows : List (Bank × Row)} (flash : Mem) {sectors : List (Nat × Nat)} (were : ∀ s ∈ sectors, before s.1 s.2 = 1)
    (nodup : sectors.Nodup) (again : sites 1 0 addr last rows = sectors)
    (taken : ∀ s ∈ sectors, m.real s.1 s.2 0 = true)
    (cleared : Cleared before (flagOf (rows.map Prod.fst)) sectors) :
    let erased := flashSectErase m.events (rows.map Prod.fst) addr last
    let written := flashWrite m.writeBuff (rows.map Prod.fst) ram source addr size
      (m.wiped erased.2 flash)
    (∀ k j, flagOf (eraseAndCopy m ram source addr size last rows flash).banks k j =
      before k j) ↔ Restores m.real erased.1 written.1 sectors := by
  intro erased written
  have stays : Restores m.real erased.1 written.1 sectors ↔ sectors = [] ∨
      erased.1 = 0 ∧ written.1 = 0 ∧ ∀ s ∈ sectors, m.real s.1 s.2 1 = true := by
    cases sectors with
    | nil => exact iff_of_true trivial (.inl rfl)
    | cons s later =>
      have possible : ¬ m.real s.1 s.2 0 = false := fun fails => by
        cases (taken s List.mem_cons_self).symm.trans fails
      constructor
      · rintro (fails | ⟨erases, writes, all⟩)
        · exact absurd fails possible
        · exact .inr ⟨erases, writes, fun s member => (all s member).2⟩
      · rintro (impossible | ⟨erases, writes, all⟩)
        · cases impossible
        · exact .inr ⟨erases, writes, fun s member => ⟨taken s member, all s member⟩⟩
  rw [stays, eraseAndCopy]
  change (∀ k j, flagOf (if erased.1 > 0 then _ else if written.1 > 0 then _ else _ : Updated).banks
    k j = before k j) ↔ _
  by_cases failed : erased.1 > 0
  · rw [if_pos failed]
    refine (cleared.same_iff were).trans ⟨.inl, fun holds => ?_⟩
    rcases holds with none | ⟨zero, -⟩
    · exact none
    · omega
  rw [if_neg failed]
  by_cases failed' : written.1 > 0
  · rw [if_pos failed']
    refine (cleared.same_iff were).trans ⟨.inl, fun holds => ?_⟩
    rcases holds with none | ⟨-, zero, -⟩
    · exact none
    · omega
  rw [if_neg failed']
  have second : updateFlashProtect m.room m.real 1 addr last rows =
      bankLoop m.real 1 0 addr last rows := rfl
  obtain ⟨done, walk, changed⟩ := bankLoop_passed m.real 1 0 addr last rows
  have flags := bankLoop_flags walk changed
  rw [again] at walk
  rw [second, restored_iff were nodup walk fun k j => by rw [flags, zero_add, cleared]]
  constructor
  · exact fun all => .inr ⟨by omega, by omega, all⟩
  · rintro (rfl | ⟨-, -, all⟩)
    · exact List.forall_mem_nil _
    · exact all

lemma only_last {last : UInt32} {P : UInt32 → Prop} (less : addr < last) :
    (∀ last', some last = some last' → addr < last' → true = true → P last') ↔ P last :=
  ⟨fun all => all last rfl less rfl, fun here last' given _ _ => by cases given; exact here⟩

/-- The flags alone, on any layout. -/
theorem flags_iff (m : Machine) (ram : Mem) (source addr size : UInt32)
    (rows : List (Bank × Row)) (flash : Mem) :
    (∀ bank i, flagOf (updateFlash m ram source addr size rows flash).banks bank i =
      flagOf (rows.map Prod.fst) bank i) ↔
    Condition m ram source addr size (rows.map Prod.fst) flash := by
  unfold updateFlash Condition
  cases rounded : flashSectRoundb (rows.map Prod.fst) (addr + size - 1) with
  | none => exact iff_of_true (fun _ _ => rfl) fun last impossible => nomatch impossible
  | some last =>
    dsimp only
    by_cases order : addr ≥ last
    · rw [if_pos order]
      refine iff_of_true (fun _ _ => rfl) fun last' given less => ?_
      cases given
      exact absurd less (UInt32.not_lt.mpr order)
    rw [if_neg order]
    cases room : m.room with
    | false =>
      have nothing : updateFlashProtect false m.real 0 addr last rows = (false, rows) := rfl
      rw [nothing, if_neg Bool.false_ne_true]
      exact iff_of_true (fun _ _ => rfl) fun _ _ _ impossible => nomatch impossible
    | true =>
      have less : addr < last := UInt32.not_le.mp order
      let zeros : List (Bank × Row) := rows.map fun row => (row.1, fun _ => 0)
      have first : updateFlashProtect true m.real 0 addr last rows =
          bankLoop m.real 0 0 addr last zeros := rfl
      have names : zeros.map Prod.fst = rows.map Prod.fst := by
        rw [List.map_map]
        rfl
      have due : sites 0 0 addr last zeros = protectedSectors 0 addr last (rows.map Prod.fst) :=
        sites_protected 0 addr last rows
      have nodup := sites_nodup 0 0 addr last zeros
      have were : ∀ s ∈ protectedSectors 0 addr last (rows.map Prod.fst),
          flagOf (rows.map Prod.fst) s.1 s.2 = 1 := fun s member =>
        protectedSectors_flag 0 addr last _ (by rwa [zero_add])
      obtain ⟨done, walk, changed⟩ := bankLoop_passed m.real 0 0 addr last zeros
      have cleared : Cleared (flagOf (rows.map Prod.fst))
          (flagOf ((bankLoop m.real 0 0 addr last zeros).2.map Prod.fst)) done := fun k j => by
        rw [bankLoop_flags walk changed, zero_add, names]
      rw [names] at changed
      rw [first]
      rw [due] at walk nodup
      rw [only_last less]
      rcases walk with ⟨ok, rfl, taken⟩ | ⟨failed, s, later, sectors, before, fails⟩
      · rw [if_pos ok]
        have done_iff := eraseAndCopy_flags m ram source size flash were nodup
          ((sites_again m.real 0 addr last zeros ok).trans due) taken cleared
        dsimp only at done_iff
        rw [changed] at done_iff
        exact done_iff
      rw [failed, if_neg Bool.false_ne_true]
      rw [sectors] at were ⊢
      refine (cleared.same_iff fun s member => were s (List.mem_append_left _ member)).trans ?_
      cases done with
      | nil => exact iff_of_true rfl (.inl fails)
      | cons d done =>
        refine iff_of_false (List.cons_ne_nil _ _) ?_
        rintro (stuck | ⟨-, -, all⟩)
        · have goes : m.real d.1 d.2 0 = true := before d List.mem_cons_self
          cases goes.symm.trans stuck
        · have goes := (all s (List.mem_append_right (d :: done) List.mem_cons_self)).1
          cases goes.symm.trans fails

end UpdateFlash
