import UBoot.Flash.Update

/-!
# What an update leaves in the flash (common/update.c)

`flash_write` counts on banks that follow each other in the table. `flash_sect_erase` has refused
all other ranges before, so that an update that returns 0 has written every byte, in whatever order
the banks stand in the table.
-/

namespace UpdateFlash

open FlashBanks Memory32
open SectRange (flashSectRoundb flashSectErase flashFillSectRanges roundInBank)

/-- Banks that are there have their sectors one behind the other, no more than a `short` counts, and
no two of them share an address. Their order in the table is free. -/
structure Layout (banks : List Bank) : Prop where
  tiled : ∀ b ∈ banks, b.Known → b.Tiled
  counts : ∀ b ∈ banks, b.Known → b.sectorCount.toNat ≤ 32768
  known : ∀ b ∈ banks, 0 < b.sectorCount.toNat → b.Known
  apart : banks.Pairwise fun b b' => b.Known → b'.Known →
    b.stop ≤ (b'.start 0).toNat ∨ b'.stop ≤ (b.start 0).toNat

variable {banks : List Bank}

/-! ## Without the protection -/

/-- A bank but for its protection, which neither the erase nor the write looks at for its range. -/
def bare (b : Bank) : Bank := { b with protect := fun _ => 0 }

lemma layout_bare : Layout (banks.map bare) ↔ Layout banks := by
  constructor
  · rintro ⟨tiled, counts, known, apart⟩
    rw [List.forall_mem_map] at tiled counts known
    have tiled' : ∀ b ∈ banks, b.Known → b.Tiled := fun b member mine =>
      ⟨(tiled b member mine).nonempty, (tiled b member mine).sectors, (tiled b member mine).fits⟩
    exact ⟨tiled', counts, known, List.pairwise_map.mp apart⟩
  · rintro ⟨tiled, counts, known, apart⟩
    refine ⟨List.forall_mem_map.mpr fun b member mine => ?_, List.forall_mem_map.mpr counts,
      List.forall_mem_map.mpr known, List.pairwise_map.mpr apart⟩
    exact ⟨(tiled b member mine).nonempty, (tiled b member mine).sectors, (tiled b member mine).fits⟩

lemma flashSectRoundb_bare (banks : List Bank) (addr : UInt32) :
    flashSectRoundb (banks.map bare) addr = flashSectRoundb banks addr := by
  induction banks with
  | nil => rfl
  | cons b banks ih =>
    have same : roundInBank addr (bare b) = roundInBank addr b := rfl
    rw [List.map_cons, flashSectRoundb, flashSectRoundb, List.findSome?_cons, List.findSome?_cons,
      same]
    rw [flashSectRoundb, flashSectRoundb] at ih
    rw [ih]

lemma withProtect_bare (prot : UInt8) (sectors : List (Nat × Nat)) (bank : Nat)
    (banks : List Bank) : (withProtect prot sectors bank banks).map bare = banks.map bare := by
  induction banks generalizing bank with
  | nil => rfl
  | cons b banks ih =>
    rw [withProtect, List.map_cons, ih]
    rfl

/-! ## One place for an address -/

variable {k m : Nat} {b b' : Bank}

lemma Layout.mem_tiled (layout : Layout banks) (here : banks[k]? = some b) (known : b.Known) :
    b.Tiled := layout.tiled b (List.mem_of_getElem? here) known

lemma Layout.place_unique (layout : Layout banks) (here : banks[k]? = some b)
    (there : banks[m]? = some b') (known : b.Known) (known' : b'.Known) {a : Nat}
    (above : (b.start 0).toNat ≤ a) (below : a < b.stop) (above' : (b'.start 0).toNat ≤ a)
    (below' : a < b'.stop) : k = m := by
  obtain ⟨inside, rfl⟩ := List.getElem?_eq_some_iff.mp here
  obtain ⟨inside', rfl⟩ := List.getElem?_eq_some_iff.mp there
  have apart := List.pairwise_iff_getElem.mp layout.apart
  rcases Nat.lt_trichotomy k m with less | same | less
  · have := apart k m inside inside' less known known'
    omega
  · exact same
  · have := apart m k inside' inside less known' known
    omega

/-- Within a bank a sector starts in no other. -/
lemma sector_start_unique (tiled : b.Tiled) {i j : Nat} (sector : i < b.sectorCount.toNat)
    (sector' : j < b.sectorCount.toNat) (above : (b.start j).toNat ≤ (b.start i).toNat)
    (below : (b.start i).toNat < b.sectorStop j) : i = j := by
  rcases Nat.lt_trichotomy i j with less | same | less
  · have := SectRange.sectorStop_le_start tiled less sector'
    have := tiled.sectors i sector
    omega
  · exact same
  · have := SectRange.sectorStop_le_start tiled less sector
    omega

/-! ## What the erase has checked -/

variable {addr size last : UInt32} {events : SectRange.Events}

lemma accepted_of_erased (erased : (flashSectErase events banks addr last).1 = 0) :
    ∃ r, flashFillSectRanges banks addr last = some r := by
  cases filled : flashFillSectRanges banks addr last with
  | none =>
    rw [flashSectErase, filled] at erased
    cases erased
  | some r => exact ⟨r, rfl⟩

/-- The bank in which the range begins, with the place of the last byte: no later in the table, and
the range does not wrap. -/
structure Ordered (banks : List Bank) (addr size : UInt32) : Prop where
  ends : addr.toNat + size.toNat ≤ 4294967296
  order : ∀ first stop, addr2info banks addr = some first →
    addr2info banks (addr + size - 1) = some stop → first ≤ stop

lemma ordered_of_erased (layout : Layout banks) (more : size ≠ 0)
    (rounded : flashSectRoundb banks (addr + size - 1) = some last) (less : addr < last)
    (erased : (flashSectErase events banks addr last).1 = 0) : Ordered banks addr size := by
  obtain ⟨b, member, here⟩ := List.exists_of_findSome?_eq_some rounded
  obtain ⟨k, there⟩ := List.mem_iff_getElem?.mp member
  have nonempty : 0 < b.sectorCount.toNat := by
    apply Nat.pos_of_ne_zero
    intro empty
    rw [roundInBank, empty] at here
    cases here
  have known := layout.known b member nonempty
  have tiled := layout.tiled b member known
  obtain ⟨le, j, sector, above, stop⟩ := SectRange.roundInBank_some tiled here
  have le := UInt32.le_iff_toNat_le.mp le
  have less := UInt32.lt_iff_toNat_lt.mp less
  have low := tiled.start_zero_le sector
  have high := SectRange.sectorStop_le tiled sector
  obtain ⟨r, accepted⟩ := accepted_of_erased erased
  obtain ⟨m, before, b', here', known', i, sector', begins⟩ := SectRange.begins_before_end
    layout.tiled layout.counts (UInt32.le_iff_toNat_le.mpr (Nat.le_of_lt less)) accepted there
    known sector stop
  have tiled' := layout.mem_tiled here' known'
  have low' := tiled'.start_zero_le sector'
  have starts := tiled'.sectors i sector'
  have high' := SectRange.sectorStop_le tiled' sector'
  rw [begins] at low' starts
  have some_bytes : 0 < size.toNat := Nat.pos_of_ne_zero fun none => more (UInt32.toNat_inj.mp none)
  have value : (addr + size - 1).toNat = (addr.toNat + size.toNat + 4294967295) % 4294967296 := by
    rw [UInt32.toNat_sub, UInt32.toNat_add, UInt32.toNat_one]
    omega
  have small := size.toNat_lt
  have small' := addr.toNat_lt
  have forward : addr.toNat ≤ (addr + size - 1).toNat := by
    by_contra backwards
    have wrapped : (addr + size - 1).toNat < addr.toNat := Nat.not_le.mp backwards
    -- the range would begin inside the sector in which it ends
    obtain rfl := layout.place_unique there here' known known' (a := addr.toNat) (by omega)
      (by omega) (by omega) (by omega)
    obtain rfl := Option.some.inj (there.symm.trans here')
    have same := sector_start_unique tiled sector' sector (by rw [begins]; omega)
      (by rw [begins]; omega)
    rw [← same, begins] at above
    omega
  refine ⟨by omega, fun first last' found found' => ?_⟩
  obtain ⟨b₁, place, -, above₁, below₁⟩ := addr2info_spec layout.tiled found
  obtain ⟨b₂, place', -, above₂, below₂⟩ := addr2info_spec layout.tiled found'
  obtain rfl := layout.place_unique place here' (addr2info_known found place) known'
    above₁ below₁ low' (by omega)
  obtain rfl := layout.place_unique place' there (addr2info_known found' place') known above₂
    below₂ (by omega) (by omega)
  exact before

variable {ram flash : Mem} {source : UInt32} {write : WriteBuff}

/-- A write to such a range that returns 0 has written all of it. -/
lemma Ordered.written (layout : Layout banks) (lawful : Lawful write)
    (ordered : Ordered banks addr size) (more : size ≠ 0)
    (ok : (flashWrite write banks ram source addr size flash).1 = 0) :
    ∀ i < size.toNat, (flashWrite write banks ram source addr size flash).2
      (addr + UInt32.ofNat i) = ram (source + UInt32.ofNat i) := by
  have some_bytes : 0 < size.toNat := Nat.pos_of_ne_zero fun none => more (UInt32.toNat_inj.mp none)
  rcases ends_cases banks addr size with missed | ⟨first, stop, start, stop_found⟩
  · rw [flashWrite_invalid more missed] at ok
    cases ok
  rw [flashWrite_found more start stop_found] at ok ⊢
  split at ok
  · cases ok
  rename_i passed
  rw [if_neg passed]
  have written : Written addr size.toNat (fun i => ram (source + UInt32.ofNat i)) flash
      (writeLoop write ram (between banks first stop) source addr size flash) :=
    writeLoop_between lawful layout.tiled some_bytes ordered.ends
      (ordered.order first stop start stop_found) start stop_found
  intro i inside
  have small := size.toNat_lt
  rw [written.ok ok, filled, offset_toNat addr (by omega), if_pos inside]

/-! ## The whole update -/

lemma eraseAndCopy_done {m : Machine} {rows : List (Bank × Row)}
    (done : (eraseAndCopy m ram source addr size last rows flash).rcode = 0) :
    let erased := flashSectErase m.events (rows.map Prod.fst) addr last
    let written := flashWrite m.writeBuff (rows.map Prod.fst) ram source addr size
      (m.wiped erased.2 flash)
    erased.1 = 0 ∧ written.1 = 0 ∧
      (eraseAndCopy m ram source addr size last rows flash).flash = written.2 := by
  intro erased written
  have shape : eraseAndCopy m ram source addr size last rows flash =
      if erased.1 > 0 then ⟨1, rows.map Prod.fst, m.wiped erased.2 flash⟩
      else if written.1 > 0 then ⟨1, rows.map Prod.fst, written.2⟩
      else ⟨if (updateFlashProtect m.room m.real 1 addr last rows).1 then 0 else 1,
        (updateFlashProtect m.room m.real 1 addr last rows).2.map Prod.fst, written.2⟩ := rfl
  rw [shape] at done ⊢
  split at done
  · cases done
  split at done
  · cases done
  · rename_i erases writes
    rw [if_neg erases, if_neg writes]
    exact ⟨by omega, by omega, rfl⟩

lemma unprotected_bare (room : Bool) (real : RealProtect) (addr last : UInt32)
    (rows : List (Bank × Row)) :
    ((updateFlashProtect room real 0 addr last rows).2.map Prod.fst).map bare =
      (rows.map Prod.fst).map bare := by
  unfold updateFlashProtect
  rw [if_pos rfl]
  cases room with
  | false => rfl
  | true =>
    obtain ⟨done, -, changed⟩ := bankLoop_passed real 0 0 addr last
      (rows.map fun row => (row.1, fun _ => 0))
    rw [if_pos rfl, changed, withProtect_bare, List.map_map, List.map_map, List.map_map]
    rfl

lemma content_right (m : Machine) {rows : List (Bank × Row)}
    (layout : Layout (rows.map Prod.fst)) (lawful : Lawful m.writeBuff)
    (done : (updateFlash m ram source addr size rows flash).rcode = 0) :
    ∀ i < size.toNat, (updateFlash m ram source addr size rows flash).flash
      (addr + UInt32.ofNat i) = ram (source + UInt32.ofNat i) := by
  by_cases empty : size = 0
  · rw [empty]
    exact fun i inside => absurd inside (Nat.not_lt_zero i)
  unfold updateFlash at done ⊢
  cases rounded : flashSectRoundb (rows.map Prod.fst) (addr + size - 1) with
  | none =>
    rw [rounded] at done
    cases done
  | some last =>
    rw [rounded] at done
    dsimp only at done ⊢
    split at done
    · cases done
    rename_i order
    rw [if_neg order]
    split at done
    · rename_i unprotected
      rw [if_pos unprotected]
      have same := unprotected_bare m.room m.real addr last rows
      obtain ⟨erased, written, flash_eq⟩ := eraseAndCopy_done done
      have layout' := layout_bare.mp (same ▸ layout_bare.mpr layout)
      rw [← flashSectRoundb_bare, ← same, flashSectRoundb_bare] at rounded
      rw [flash_eq]
      exact (ordered_of_erased layout' empty rounded (UInt32.not_le.mp order) erased).written
        layout' lawful empty written
    · cases done

/-- On every layout, with every protection of the sectors, whatever the calls come to:
`update_flash` is right if and only if the sectors of the range are not protected, or nothing was
unprotected yet when it gives up, or everything succeeds. -/
theorem update_flash_right_iff (m : Machine) (lawful : Lawful m.writeBuff) (ram : Mem)
    (source addr size : UInt32) (rows : List (Bank × Row)) (layout : Layout (rows.map Prod.fst))
    (flash : Mem) :
    Right (rows.map Prod.fst) ram source addr size
        (updateFlash m ram source addr size rows flash) ↔
      Condition m ram source addr size (rows.map Prod.fst) flash :=
  ⟨fun right => (flags_iff m ram source addr size rows flash).mp right.flags, fun holds =>
    ⟨(flags_iff m ram source addr size rows flash).mpr holds, content_right m layout lawful⟩⟩

def lockedSector : Bank := { SectRange.oneSector with protect := fun _ => 1 }

lemma lockedSector_layout : Layout [lockedSector] := by
  have table := SectRange.oneSector_table
  refine layout_bare.mp ?_
  have bare_eq : [lockedSector].map bare = [SectRange.oneSector] := rfl
  rw [bare_eq]
  refine ⟨table.tiled, table.counts, fun b member _ => ?_, List.pairwise_singleton _ _⟩
  obtain rfl := List.mem_singleton.mp member
  decide

/-- Everything succeeds but the erasures, which end as the chip says and leave ones. -/
def working (chip : SectRange.Chip) : Machine where
  room := true
  real _ _ _ := true
  events := ⟨fun _ => false, fun _ => chip⟩
  wipe sector _ flash := filled flash sector (fun _ => 0xff) 0x10000
  writeBuff := copyWrite

/-- A protected sector is erased, written and protected again. -/
theorem update_flash_right_locked :
    let r := updateFlash (working .ready) (fun _ => 0x5a) 0x30000000 0 0x8000
      [(lockedSector, fun _ => 0)] fun _ => 0
    r.rcode = 0 ∧ Right [lockedSector] (fun _ => 0x5a) 0x30000000 0 0x8000 r := by
  refine ⟨by decide, (update_flash_right_iff (working .ready) copyWrite_lawful (fun _ => 0x5a)
    0x30000000 0 0x8000 [(lockedSector, fun _ => 0)] lockedSector_layout
    fun _ => 0).mpr fun last rounded _ _ => ?_⟩
  obtain rfl : (0xffff : UInt32) = last := Option.some.inj rounded
  exact .inr ⟨by decide, by decide, fun _ _ => ⟨rfl, rfl⟩⟩

/-- After a failing erase the sector is left unprotected. -/
theorem erase_failure_unprotects :
    let r := updateFlash (working .err) (fun _ => 0) 0x30000000 0 0x10000
      [(lockedSector, fun _ => 0)] fun _ => 0
    Layout [lockedSector] ∧ r.rcode = 1 ∧ flagOf r.banks 0 0 = 0 ∧
      ¬ Right [lockedSector] (fun _ => 0) 0x30000000 0 0x10000 r := by
  refine ⟨lockedSector_layout, by decide, by decide, fun right => ?_⟩
  exact absurd (right.flags 0 0) (by decide)

end UpdateFlash
