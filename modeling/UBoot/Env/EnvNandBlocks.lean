import UBoot.Env.EnvNand

/-!
# The blocks of the environment (common/env_nand.c)

`writeenv` and `readenv` move the same number of bytes for each good block, fixed before the loop:
the erase size, or CONFIG_ENV_SIZE if that is smaller. They end at CONFIG_ENV_SIZE only if it is a
multiple of that length.
-/

namespace EnvNandBlocks

open ByteMemory EnvNand

/-- One `nand_write` or `nand_read`: `len` bytes at `ofs` of the chip and at `place` of `buf`. -/
structure Access where
  ofs : Nat
  place : Nat
  len : Nat

variable {nand : Nand} {size stop : Nat}

/-- What the loops of `writeenv` and `readenv` access as long as no operation fails. -/
def accesses (nand : Nand) (size stop offset done : Nat) : List Access :=
  if done < size ∧ offset < stop then
    if nand.isBad offset then accesses nand size stop (offset + nand.eraseSize) done
    else
      let len := min nand.eraseSize size
      ⟨offset, done, len⟩ :: accesses nand size stop (offset + nand.eraseSize) (done + len)
  else []
termination_by stop - offset
decreasing_by
  · have := nand.eraseSize_pos; omega
  · have := nand.eraseSize_pos; omega

def amount (as : List Access) : Nat := (as.map Access.len).sum

@[simp] lemma amount_nil : amount [] = 0 := rfl

@[simp] lemma amount_cons (a : Access) (as : List Access) :
    amount (a :: as) = a.len + amount as :=
  List.sum_cons

def writeAll (buf : Mem) (as : List Access) (cells : Mem) : Mem :=
  as.foldl (fun cells a => blit cells a.ofs (slice buf a.place a.len)) cells

def Works (nand : Nand) (as : List Access) : Prop :=
  ∀ a ∈ as, ∀ cells bs, bs.length = a.len → (nand.write cells a.ofs bs).1 = 0

def goodBytes (nand : Nand) (stop offset : Nat) : Nat :=
  if offset < stop then
    (if nand.isBad offset then 0 else min nand.eraseSize (stop - offset)) +
      goodBytes nand stop (offset + nand.eraseSize)
  else 0
termination_by stop - offset
decreasing_by
  have := nand.eraseSize_pos; omega

lemma writeLoop_accesses (keeps : nand.Keeps) (buf : Mem) (offset saved : Nat) (cells : Mem)
    (works : Works nand (accesses nand size stop offset saved)) :
    writeLoop nand size stop buf offset saved cells =
      (0, writeAll buf (accesses nand size stop offset saved) cells,
        saved + amount (accesses nand size stop offset saved)) := by
  fun_induction accesses nand size stop offset saved generalizing cells with
  | case1 offset saved inside bad ih =>
    rw [writeLoop, if_pos inside, if_pos bad]
    exact ih cells works
  | case2 offset saved inside good len ih =>
    have returned := works _ List.mem_cons_self cells (slice buf saved len)
      (slice_length buf saved len)
    have written := keeps.write _ _ _ returned
    have rest := ih (blit cells offset (slice buf saved len))
      (fun a mem => works a (List.mem_cons_of_mem _ mem))
    rw [writeLoop, if_pos inside, if_neg good]
    rw [if_neg (not_not.mpr returned), written, rest, amount_cons, ← add_assoc]
    rfl
  | case3 offset saved outside =>
    rw [writeLoop, if_neg outside]
    rfl

/-- What is left is a multiple of the length and fits into the good blocks that are left. -/
structure Fits (nand : Nand) (size stop offset done : Nat) : Prop where
  within : done ≤ size
  whole : min nand.eraseSize size ∣ size - done
  room : size - done ≤ goodBytes nand stop offset

lemma Fits.skip {offset done : Nat} (fits : Fits nand size stop offset done)
    (inside : offset < stop) (bad : nand.isBad offset = true) :
    Fits nand size stop (offset + nand.eraseSize) done := by
  have room := fits.room
  rw [goodBytes, if_pos inside, if_pos bad, zero_add] at room
  exact ⟨fits.within, fits.whole, room⟩

lemma Fits.take {offset done : Nat} (fits : Fits nand size stop offset done)
    (inside : done < size ∧ offset < stop) (good : ¬ nand.isBad offset = true) :
    offset + min nand.eraseSize size ≤ stop ∧ done + min nand.eraseSize size ≤ size ∧
      Fits nand size stop (offset + nand.eraseSize) (done + min nand.eraseSize size) := by
  have room := fits.room
  have share := Nat.le_of_dvd (Nat.sub_pos_of_lt inside.1) fits.whole
  have rest : min nand.eraseSize size ∣ size - (done + min nand.eraseSize size) := by
    rw [← Nat.sub_sub]
    exact Nat.dvd_sub fits.whole (Nat.dvd_refl _)
  rw [goodBytes, if_pos inside.2, if_neg good] at room
  have last (short : stop < offset + nand.eraseSize) :
      goodBytes nand stop (offset + nand.eraseSize) = 0 := by
    rw [goodBytes, if_neg (by omega)]
  refine ⟨?_, by omega, ⟨by omega, rest, by omega⟩⟩
  by_cases short : stop < offset + nand.eraseSize
  · rw [last short] at room
    omega
  · omega

lemma accesses_fit (offset done : Nat) (fits : Fits nand size stop offset done) :
    done + amount (accesses nand size stop offset done) = size ∧
      ∀ a ∈ accesses nand size stop offset done,
        offset ≤ a.ofs ∧ a.ofs + a.len ≤ stop ∧ a.place + a.len ≤ size := by
  fun_induction accesses nand size stop offset done with
  | case1 offset done inside bad ih =>
    obtain ⟨all, contained⟩ := ih (fits.skip inside.2 bad)
    refine ⟨all, fun a mem => ?_⟩
    obtain ⟨low, high, place⟩ := contained a mem
    exact ⟨by omega, high, place⟩
  | case2 offset done inside good len ih =>
    obtain ⟨high, place, rest⟩ := fits.take inside good
    obtain ⟨all, contained⟩ := ih rest
    constructor
    · rw [amount_cons, ← add_assoc]
      exact all
    · intro a mem
      rcases List.mem_cons.mp mem with rfl | mem
      · exact ⟨le_rfl, high, place⟩
      · obtain ⟨low, high, place⟩ := contained a mem
        exact ⟨by omega, high, place⟩
  | case3 offset done outside =>
    refine ⟨?_, fun a mem => (List.not_mem_nil mem).elim⟩
    have room := fits.room
    have within := fits.within
    rw [amount_nil]
    by_cases inside : offset < stop
    · omega
    · rw [goodBytes, if_neg inside] at room
      omega

lemma amount_accesses (offset done : Nat) :
    min nand.eraseSize size ∣ amount (accesses nand size stop offset done) := by
  fun_induction accesses nand size stop offset done with
  | case1 offset done inside bad ih => exact ih
  | case2 offset done inside good len ih =>
    rw [amount_cons]
    exact Nat.dvd_add (Nat.dvd_refl _) ih
  | case3 offset done outside => exact Nat.dvd_zero _

/-- `writeenv` returns 0 and `readenv` finds what it wrote, and both stay inside the range of the
chip and the CONFIG_ENV_SIZE bytes of `buf`. -/
structure SavedAndLoaded (nand : Nand) (layout : Layout) (size : Nat) (buf cells : Mem) : Prop where
  loaded : ∃ cells', writeenv nand layout size buf cells = (0, cells') ∧
    ∀ dst, ∃ dst', readenv nand layout size cells' dst = (0, dst') ∧
      ∀ i, i < size → dst' i = buf i
  contained : ∀ a ∈ accesses nand size (layout.offset + layout.range) layout.offset 0,
    layout.offset ≤ a.ofs ∧ a.ofs + a.len ≤ layout.offset + layout.range ∧
      a.place + a.len ≤ size

lemma length_divides_iff : min nand.eraseSize size ∣ size ↔
    size ≤ nand.eraseSize ∨ nand.eraseSize ∣ size := by
  constructor
  · intro divides
    by_cases small : size ≤ nand.eraseSize
    · exact .inl small
    · rw [min_eq_left (by omega)] at divides
      exact .inr divides
  · rintro (small | divides)
    · rw [min_eq_right small]
    · rcases Nat.le_total nand.eraseSize size with large | small
      · rwa [min_eq_left large]
      · rw [min_eq_right small]

lemma writeenv_of_loop {layout : Layout} {buf cells cells' : Mem}
    (loop : writeLoop nand size (layout.offset + layout.range) buf layout.offset 0 cells =
      (0, cells', size)) : writeenv nand layout size buf cells = (0, cells') := by
  rw [writeenv, loop]
  exact (if_neg (not_not.mpr rfl)).trans (if_neg (not_not.mpr rfl))

lemma readenv_of_loop {layout : Layout} {cells dst dst' : Mem}
    (loop : readLoop nand size (layout.offset + layout.range) cells layout.offset 0 dst =
      (0, dst', size)) : readenv nand layout size cells dst = (0, dst') := by
  rw [readenv, loop]
  exact (if_neg (not_not.mpr rfl)).trans (if_neg (not_not.mpr rfl))

/-- With room in the good blocks the environment is saved and loaded exactly if its size is at most
the erase size or a multiple of it. -/
theorem savedAndLoaded_iff (keeps : nand.Keeps) {layout : Layout}
    (room : size ≤ goodBytes nand (layout.offset + layout.range) layout.offset)
    (works : Works nand (accesses nand size (layout.offset + layout.range) layout.offset 0))
    (buf cells : Mem) :
    SavedAndLoaded nand layout size buf cells ↔
      size ≤ nand.eraseSize ∨ nand.eraseSize ∣ size := by
  have loop := writeLoop_accesses keeps buf layout.offset 0 cells works
  rw [← length_divides_iff]
  constructor
  · intro saved
    obtain ⟨cells', written, -⟩ := saved.loaded
    have same := loop.symm.trans (writeenv_returns_zero written)
    have all := (Prod.mk.inj (Prod.mk.inj same).2).2
    have length : min nand.eraseSize size ∣
        amount (accesses nand size (layout.offset + layout.range) layout.offset 0) :=
      amount_accesses layout.offset 0
    rw [← Nat.zero_add (amount _), all] at length
    exact length
  · intro divides
    have fits : Fits nand size (layout.offset + layout.range) layout.offset 0 :=
      ⟨Nat.zero_le size, divides, room⟩
    obtain ⟨all, contained⟩ := accesses_fit layout.offset 0 fits
    rw [all] at loop
    refine ⟨⟨_, writeenv_of_loop loop, fun dst => ?_⟩, contained⟩
    obtain ⟨dst', read, -, same⟩ := readLoop_writeLoop keeps layout.offset 0 cells loop dst
    exact ⟨dst', readenv_of_loop read, fun i inside => same i (Nat.zero_le i) inside⟩

def firstBad : Nand := { plainNand with isBad := fun ofs => decide (ofs = 0x60000) }

def erased : Mem := fun _ => 0xff

theorem savedAndLoaded_behind_bad :
    SavedAndLoaded firstBad ⟨0x60000, 0x40000, []⟩ 0x20000 (ofBytes [97, 61, 98]) erased := by
  have keeps : firstBad.Keeps := ⟨fun _ _ _ _ => rfl, fun _ _ _ => rfl⟩
  have room : 0x20000 ≤ goodBytes firstBad (0x60000 + 0x40000) 0x60000 := by
    simp [goodBytes, firstBad, plainNand]
  exact (savedAndLoaded_iff keeps room (fun _ _ _ _ _ => rfl) _ _).mpr (Or.inl (Nat.le_refl _))

/-- One and a half blocks in a range of two good ones: the second write ends behind `buf`, and
`writeenv` returns 1. -/
theorem half_block_refused :
    0x30000 ≤ goodBytes plainNand (0x60000 + 0x40000) 0x60000 ∧
      (writeenv plainNand ⟨0x60000, 0x40000, []⟩ 0x30000 (ofBytes [97, 61, 98]) erased).1 = 1 ∧
      ¬ SavedAndLoaded plainNand ⟨0x60000, 0x40000, []⟩ 0x30000 (ofBytes [97, 61, 98]) erased := by
  have made : accesses plainNand 0x30000 (0x60000 + 0x40000) 0x60000 0 =
      [⟨0x60000, 0, 0x20000⟩, ⟨0x80000, 0x20000, 0x20000⟩] := by
    simp [accesses, plainNand]
  refine ⟨by simp [goodBytes, plainNand], ?_, fun saved => ?_⟩
  · have works : Works plainNand (accesses plainNand 0x30000 (0x60000 + 0x40000) 0x60000 0) :=
      fun _ _ _ _ _ => rfl
    have loop := writeLoop_accesses plainNand_keeps (ofBytes [97, 61, 98]) 0x60000 0 erased works
    rw [made] at loop
    rw [writeenv, loop]
    rfl
  · have contained := saved.contained ⟨0x80000, 0x20000, 0x20000⟩
      (made ▸ List.mem_cons_of_mem _ List.mem_cons_self)
    exact absurd contained.2.2 (by decide)

end EnvNandBlocks
