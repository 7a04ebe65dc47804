import UBoot.Nand.WriteSkipBad
import UBoot.Nand.ReadSkipBad

/-!
# Writing a buffer and reading it back

A request that the good blocks hold is stored and read back. One that they do not
hold is refused by the length test only if it begins behind the device: otherwise
the length found stops at the end of the device and passes.
-/

namespace SkipBadRoundTrip

open Nand ByteMemory NandBase NandUtil PageOps GoodSpace WriteSkipBad ReadSkipBad Rank

def WholePages (mtd : Mtd) (offset length : Nat) : Prop :=
  mtd.geo.writesize ∣ offset ∧ mtd.geo.writesize ∣ length

def Rejected (chip : Chip) (r : Result) : Prop :=
  r.rval = -EINVAL ∧ r.chip.programmed = chip.programmed ∧ r.chip.read = chip.read

/-- A read brings the good bytes from `offset` on into the buffer. -/
def Delivered (mtd : Mtd) (chip : Chip) (offset length buffer : Nat) (r : Result) : Prop :=
  r.rval = 0 ∧ ∀ a, offset ≤ a → a < mtd.geo.size → goodByte mtd a = true →
    rank (goodByte mtd) offset a < length →
      r.ram (buffer + rank (goodByte mtd) offset a) = chip.data a

/-- A read into any buffer brings back the bytes at `buffer`. -/
def ReadsBack (mtd : Mtd) (chip : Chip) (ram : Mem) (offset length buffer : Nat) : Prop :=
  ∀ ram' buffer', ∃ fuel r, nandReadSkipBad fuel mtd chip ram' offset length buffer' = some r ∧
    r.rval = 0 ∧ ∀ j, j < length → r.ram (buffer' + j) = ram (buffer + j)

/-- `nand_write_skip_bad` returns and does what it is for. -/
def WriteCorrect (mtd : Mtd) (chip : Chip) (ram : Mem) (offset length buffer : Nat) : Prop :=
  ∃ fuel r, nandWriteSkipBad fuel mtd false chip ram offset length buffer = some r ∧
    (¬ (WholePages mtd offset length ∧ Fits mtd offset length) → Rejected chip r) ∧
    (WholePages mtd offset length ∧ Fits mtd offset length →
      r.rval = 0 ∧ Stores mtd chip ram offset length buffer r.chip ∧
      ReadsBack mtd r.chip ram offset length buffer)

/-- `nand_read_skip_bad` returns and does what it is for. -/
def ReadCorrect (mtd : Mtd) (chip : Chip) (ram : Mem) (offset length buffer : Nat) : Prop :=
  ∃ fuel r, nandReadSkipBad fuel mtd chip ram offset length buffer = some r ∧
    (¬ Fits mtd offset length → Rejected chip r) ∧
    (Fits mtd offset length → Delivered mtd chip offset length buffer r)

def Short (mtd : Mtd) (offset length : Nat) : Prop :=
  offset < mtd.geo.size ∧ rank (goodByte mtd) offset mtd.geo.size < length

lemma Short.not_fits {mtd : Mtd} {offset length : Nat} (h : Short mtd offset length) :
    ¬ Fits mtd offset length :=
  fun fits => absurd fits.2 (not_le.mpr h.2)

lemma request_cases (mtd : Mtd) (offset length : Nat) :
    length = 0 ∨ (0 < length ∧ mtd.geo.size ≤ offset) ∨
      (0 < length ∧ offset < mtd.geo.size ∧ Fits mtd offset length) ∨ Short mtd offset length := by
  by_cases hzero : length = 0
  · exact .inl hzero
  by_cases hin : offset < mtd.geo.size
  · by_cases hroom : length ≤ rank (goodByte mtd) offset mtd.geo.size
    · exact .inr (.inr (.inl ⟨by omega, hin, le_of_lt hin, hroom⟩))
    · exact .inr (.inr (.inr ⟨hin, not_le.mp hroom⟩))
  · exact .inr (.inl ⟨by omega, not_lt.mp hin⟩)

lemma not_fits_outside {mtd : Mtd} {offset length : Nat} (pos : 0 < length)
    (outside : mtd.geo.size ≤ offset) : ¬ Fits mtd offset length := by
  rintro ⟨-, hroom⟩
  have := rank_le (goodByte mtd) offset mtd.geo.size
  omega

section

variable {mtd : Mtd} {chip : Chip} {offset length : Nat}

lemma nandReadSkipBad_eq {len : Nat} (hlen : getLenInclBad mtd offset length = some len)
    (fuel : Nat) (ram : Mem) (buffer : Nat) :
    nandReadSkipBad fuel mtd chip ram offset length buffer =
      if mtd.geo.size < offset + len then some ⟨-EINVAL, length, chip, ram⟩
      else if len = length then
        (nandRead mtd chip ram offset length buffer).map fun r =>
          ⟨if r.1 = 0 ∨ r.1 = -EUCLEAN then 0 else r.1, length, r.2.1, r.2.2⟩
      else readLoop mtd length fuel offset length buffer chip ram := by
  rw [nandReadSkipBad, hlen]
  rfl

lemma nandReadSkipBad_direct (coherent : Coherent mtd chip) (ram : Mem) (buffer fuel : Nat)
    (hlen : getLenInclBad mtd offset length = some length) (pos : 0 < length)
    (inside : offset + length ≤ mtd.geo.size) (width : length < 2 ^ 32) :
    ∃ out ram', nandReadSkipBad fuel mtd chip ram offset length buffer =
      some ⟨0, length, out, ram'⟩ ∧ RangeRead mtd chip ram offset length buffer out ram' := by
  obtain ⟨ret, out, ram', hrun, hret, hread⟩ := nandRead_range coherent ram buffer inside pos width
  refine ⟨out, ram', ?_, hread⟩
  rw [nandReadSkipBad_eq hlen, if_neg (not_lt.mpr inside), if_pos rfl, hrun, Option.map_some,
    if_pos hret]

lemma read_fits (coherent : Coherent mtd chip) (ram : Mem) (buffer : Nat)
    (width : length < 2 ^ 32) (pos : 0 < length) (hin : offset < mtd.geo.size)
    (fits : Fits mtd offset length) :
    ∃ fuel r, nandReadSkipBad fuel mtd chip ram offset length buffer = some r ∧
      Delivered mtd chip offset length buffer r := by
  obtain ⟨len, hlen, found⟩ := getLenInclBad_found length hin
  by_cases hdirect : len = length
  · subst hdirect
    have hstraight := (found.eq_iff fits pos).mp rfl
    obtain ⟨out, ram', hrun, hread⟩ :=
      nandReadSkipBad_direct coherent ram buffer 0 hlen pos found.inside width
    refine ⟨0, _, hrun, rfl, fun a ha _ _ hlt => ?_⟩
    have hbelow : a < offset + len := by
      by_contra hge
      have hall := rank_all (Nat.le_add_right offset len) hstraight.2
      have hmono := rank_le_of_le (p := goodByte mtd) (Nat.le_add_right offset len)
        (not_lt.mp hge)
      omega
    have hrank : rank (goodByte mtd) offset a = a - offset :=
      rank_all ha fun i hi hia => hstraight.2 i hi (by omega)
    have hcell := hread.ram (buffer + (a - offset))
    rw [if_pos (by omega), Nat.add_sub_cancel_left, Nat.add_sub_cancel' ha] at hcell
    rw [hrank]
    exact hcell
  · obtain ⟨out, ram', hrun, hdel⟩ := readLoop_fits length (mtd.geo.size + 1) offset length
      buffer ram coherent (le_of_lt hin) fits.2 (by omega)
    refine ⟨mtd.geo.size + 1, ⟨0, length, out, ram'⟩, ?_, rfl, hdel.delivered⟩
    rw [nandReadSkipBad_eq hlen, if_neg (not_lt.mpr found.inside), if_neg hdirect, hrun]

lemma read_short (coherent : Coherent mtd chip) (ram : Mem) (buffer : Nat)
    (width : length < 2 ^ 32) (short : Short mtd offset length) :
    ReadCorrect mtd chip ram offset length buffer ↔
      NoGood mtd offset ∧ SomeGood mtd ∧ offset + length ≠ mtd.geo.size := by
  obtain ⟨len, hlen, found⟩ := getLenInclBad_found length short.1
  have hend := found.end_of_short short.2
  have hpos : 0 < length := Nat.pos_of_ne_zero fun h => absurd (h ▸ short.2) (Nat.not_lt_zero _)
  have hinside : ¬ mtd.geo.size < offset + len := by omega
  constructor
  · rintro ⟨fuel, r, hrun, hreject, -⟩
    obtain ⟨hrval, -, hread⟩ := hreject short.not_fits
    by_cases hdirect : len = length
    · subst hdirect
      obtain ⟨out, ram', hzero, -⟩ :=
        nandReadSkipBad_direct coherent ram buffer fuel hlen hpos found.inside width
      rw [hzero] at hrun
      cases hrun
      exact nomatch hrval
    · rw [nandReadSkipBad_eq hlen, if_neg hinside, if_neg hdirect] at hrun
      obtain ⟨hnone, hsome⟩ := noGood_of_unread coherent (Nat.ne_of_gt hpos) hrun
        (congrArg List.length hread)
      exact ⟨hnone, hsome, by omega⟩
  · rintro ⟨hnone, hsome, hne⟩
    obtain ⟨fuel, hrun⟩ := readLoop_noGood length buffer chip ram (Nat.ne_of_gt hpos) hnone hsome
    refine ⟨fuel, ⟨-EINVAL, length - length, chip, ram⟩, ?_, fun _ => ⟨rfl, rfl, rfl⟩,
      fun fits => absurd fits short.not_fits⟩
    rw [nandReadSkipBad_eq hlen, if_neg hinside, if_neg (by omega), hrun]

lemma read_correct_of_fits (coherent : Coherent mtd chip) (ram : Mem) (buffer : Nat)
    (width : length < 2 ^ 32) (pos : 0 < length) (hin : offset < mtd.geo.size)
    (fits : Fits mtd offset length) : ReadCorrect mtd chip ram offset length buffer := by
  obtain ⟨fuel, r, hrun, hdel⟩ := read_fits coherent ram buffer width pos hin fits
  exact ⟨fuel, r, hrun, fun h => absurd fits h, fun _ => hdel⟩

lemma read_outside (pos : 0 < length) (outside : mtd.geo.size ≤ offset) (ram : Mem)
    (buffer : Nat) : ReadCorrect mtd chip ram offset length buffer := by
  obtain ⟨len, hlen, hlenpos⟩ := getLenInclBad_outside outside pos
  refine ⟨0, ⟨-EINVAL, length, chip, ram⟩, ?_, fun _ => ⟨rfl, rfl, rfl⟩,
    fun fits => absurd fits (not_fits_outside pos outside)⟩
  rw [nandReadSkipBad_eq hlen, if_pos (by omega)]

lemma read_nothing (fuel : Nat) (inside : offset ≤ mtd.geo.size) (ram : Mem) (buffer : Nat) :
    nandReadSkipBad fuel mtd chip ram offset 0 buffer = some ⟨0, 0, chip, ram⟩ := by
  have hnone : nandRead mtd chip ram offset 0 buffer = some (0, chip, ram) := by
    rw [nandRead, if_neg (by omega), if_pos rfl]
  rw [nandReadSkipBad_eq (getLenInclBad_zero mtd offset), if_neg (by omega), if_pos rfl, hnone]
  rfl

lemma read_empty (ram : Mem) (buffer : Nat) : ReadCorrect mtd chip ram offset 0 buffer := by
  by_cases hin : offset ≤ mtd.geo.size
  · exact ⟨0, _, read_nothing 0 hin ram buffer, fun h => absurd ⟨hin, Nat.zero_le _⟩ h,
      fun _ => ⟨rfl, fun a _ _ _ hlt => absurd hlt (Nat.not_lt_zero _)⟩⟩
  · refine ⟨0, ⟨-EINVAL, 0, chip, ram⟩, ?_, fun _ => ⟨rfl, rfl, rfl⟩, fun fits => absurd fits.1 hin⟩
    rw [nandReadSkipBad_eq (getLenInclBad_zero mtd offset), if_pos (by omega)]

end

section

variable {mtd : Mtd} {chip : Chip} {offset length : Nat}

lemma wholePages_iff (mtd : Mtd) (offset length : Nat) :
    WholePages mtd offset length ↔
      ¬ (offset % mtd.geo.writesize ≠ 0 ∨ length % mtd.geo.writesize ≠ 0) := by
  rw [WholePages, Nat.dvd_iff_mod_eq_zero, Nat.dvd_iff_mod_eq_zero, not_or, not_not, not_not]

lemma nandWriteSkipBad_eq (plain : mtd.rwOob ≠ some true) (whole : WholePages mtd offset length)
    {len : Nat} (hlen : getLenInclBad mtd offset length = some len) (fuel : Nat) (ram : Mem)
    (buffer : Nat) :
    nandWriteSkipBad fuel mtd false chip ram offset length buffer =
      if mtd.geo.size < offset + len then some ⟨-EINVAL, length, chip, ram⟩
      else if mtd.rwOob = none ∧ len = length then
        (nandWrite mtd chip ram offset length buffer).map fun r => ⟨r.1, length, r.2.1, r.2.2⟩
      else writeLoop mtd length fuel offset length buffer false chip ram := by
  unfold nandWriteSkipBad
  rw [if_neg fun h => plain h.1, if_neg plain, if_neg ((wholePages_iff _ _ _).mp whole), hlen]
  rfl

lemma write_unaligned (plain : mtd.rwOob ≠ some true) (ragged : ¬ WholePages mtd offset length)
    (ram : Mem) (buffer : Nat) : WriteCorrect mtd chip ram offset length buffer := by
  refine ⟨0, ⟨-EINVAL, length, chip, ram⟩, ?_, fun _ => ⟨rfl, rfl, rfl⟩, fun h => absurd h.1 ragged⟩
  rw [wholePages_iff, not_not] at ragged
  unfold nandWriteSkipBad
  rw [if_neg fun h => plain h.1, if_neg plain, if_pos ragged]

lemma nandWriteSkipBad_direct (noYaffs : mtd.rwOob = none) (whole : WholePages mtd offset length)
    (ram : Mem) (buffer fuel : Nat) (hlen : getLenInclBad mtd offset length = some length)
    (pos : 0 < length) (inside : offset + length ≤ mtd.geo.size) (width : length < 2 ^ 32) :
    ∃ out, nandWriteSkipBad fuel mtd false chip ram offset length buffer =
      some ⟨0, length, out, ram⟩ ∧ RangeWritten mtd chip ram offset length buffer out := by
  have hplain : mtd.rwOob ≠ some true := by simp [noYaffs]
  have hsame : shuffled mtd ram length buffer = ram := if_neg hplain
  obtain ⟨out, hrun, hwrite⟩ := nandWrite_range chip ram buffer inside whole.1 whole.2 pos width
  rw [hsame] at hrun hwrite
  refine ⟨out, ?_, hwrite⟩
  rw [nandWriteSkipBad_eq hplain whole hlen, if_neg (not_lt.mpr inside),
    if_pos ⟨noYaffs, rfl⟩, hrun]
  rfl

lemma stores_of_straight {ram : Mem} {buffer : Nat} {out : Chip} (coherent : Coherent mtd chip)
    (straight : Straight mtd offset length) (whole : WholePages mtd offset length)
    (inside : offset + length ≤ mtd.geo.size)
    (write : RangeWritten mtd chip ram offset length buffer out) :
    Stores mtd chip ram offset length buffer out := by
  have hall := rank_all (Nat.le_add_right offset length) straight.2
  refine ⟨fun a => ?_, fun q hq => ?_, write.read, write.coherent coherent whole.1 whole.2⟩
  · rw [write.data]
    by_cases hin : offset ≤ a ∧ a < offset + length
    · have hrank : rank (goodByte mtd) offset a = a - offset :=
        rank_all hin.1 fun i hi hia => straight.2 i hi (by omega)
      rw [if_pos hin, if_pos ⟨hin.1, by omega, straight.2 a hin.1 hin.2, by omega⟩, hrank]
    · rw [if_neg hin, if_neg]
      rintro ⟨hle, -, -, hlt⟩
      have hmono := rank_le_of_le (p := goodByte mtd) (Nat.le_add_right offset length)
        (show offset + length ≤ a by omega)
      omega
  · rcases (write.programmed q).mp hq with hq | ⟨hlow, hhigh⟩
    · exact .inl hq
    obtain ⟨hstart, hnext, hend⟩ := page_inside whole.1 hlow hhigh
    exact .inr ⟨hstart, by omega, straight.2 _ hstart hend⟩

lemma readsBack {ram : Mem} {buffer : Nat} {out : Chip} (width : length < 2 ^ 32)
    (pos : 0 < length) (hin : offset < mtd.geo.size) (fits : Fits mtd offset length)
    (stores : Stores mtd chip ram offset length buffer out) :
    ReadsBack mtd out ram offset length buffer := by
  intro ram' buffer'
  obtain ⟨fuel, r, hrun, hrval, hdel⟩ := read_fits stores.coherent ram' buffer' width pos hin fits
  refine ⟨fuel, r, hrun, hrval, fun j hj => ?_⟩
  obtain ⟨a, ha, hsize, hgood, rfl⟩ := exists_rank (lt_of_lt_of_le hj fits.2)
  rw [hdel a ha hsize hgood hj, stores.data, if_pos ⟨ha, hsize, hgood, hj⟩]

lemma write_fits (plain : mtd.rwOob ≠ some true) (coherent : Coherent mtd chip) (ram : Mem)
    (buffer : Nat) (width : length < 2 ^ 32) (whole : WholePages mtd offset length)
    (pos : 0 < length) (hin : offset < mtd.geo.size) (fits : Fits mtd offset length) :
    WriteCorrect mtd chip ram offset length buffer ↔
      100 ≤ length ∨ (mtd.rwOob = none ∧ Straight mtd offset length) := by
  obtain ⟨len, hlen, found⟩ := getLenInclBad_found length hin
  have hinside : ¬ mtd.geo.size < offset + len := not_lt.mpr found.inside
  by_cases hdirect : mtd.rwOob = none ∧ len = length
  · obtain ⟨hnone, rfl⟩ := hdirect
    have hstraight := (found.eq_iff fits pos).mp rfl
    obtain ⟨out, hrun, hwrite⟩ :=
      nandWriteSkipBad_direct hnone whole ram buffer 0 hlen pos found.inside width
    have hstores := stores_of_straight coherent hstraight whole found.inside hwrite
    refine iff_of_true ⟨0, _, hrun, fun h => absurd ⟨whole, fits⟩ h, fun _ => ?_⟩
      (.inr ⟨hnone, hstraight⟩)
    exact ⟨rfl, hstores, readsBack width pos hin fits hstores⟩
  have hloop : ∀ fuel, nandWriteSkipBad fuel mtd false chip ram offset length buffer =
      writeLoop mtd length fuel offset length buffer false chip ram := by
    intro fuel
    rw [nandWriteSkipBad_eq plain whole hlen, if_neg hinside, if_neg hdirect]
  constructor
  · rintro ⟨fuel, r, hrun, -⟩
    rw [hloop] at hrun
    exact .inl (many_of_returns (Nat.ne_of_gt pos) hrun)
  · rintro (many | ⟨hnone, hstraight⟩)
    · obtain ⟨out, hrun, hstores⟩ := writeLoop_fits plain many ram (mtd.geo.size + 1) offset length
        buffer coherent (le_of_lt hin) fits.2 whole.1 whole.2 (by omega)
      exact ⟨mtd.geo.size + 1, _, (hloop _).trans hrun, fun h => absurd ⟨whole, fits⟩ h,
        fun _ => ⟨rfl, hstores, readsBack width pos hin fits hstores⟩⟩
    · exact absurd ⟨hnone, (found.eq_iff fits pos).mpr hstraight⟩ hdirect

lemma write_short (plain : mtd.rwOob ≠ some true) (ram : Mem) (buffer : Nat)
    (width : length < 2 ^ 32) (whole : WholePages mtd offset length)
    (short : Short mtd offset length) :
    WriteCorrect mtd chip ram offset length buffer ↔
      NoGood mtd offset ∧ SomeGood mtd ∧ 100 ≤ length ∧
        ¬ (mtd.rwOob = none ∧ offset + length = mtd.geo.size) := by
  obtain ⟨len, hlen, found⟩ := getLenInclBad_found length short.1
  have hend := found.end_of_short short.2
  have hpos : 0 < length := Nat.pos_of_ne_zero fun h => absurd (h ▸ short.2) (Nat.not_lt_zero _)
  have hinside : ¬ mtd.geo.size < offset + len := by omega
  have hrefused : ¬ (WholePages mtd offset length ∧ Fits mtd offset length) :=
    fun h => short.not_fits h.2
  constructor
  · rintro ⟨fuel, r, hrun, hreject, -⟩
    obtain ⟨hrval, hprogrammed, -⟩ := hreject hrefused
    by_cases hdirect : mtd.rwOob = none ∧ len = length
    · obtain ⟨hnone, rfl⟩ := hdirect
      obtain ⟨out, hzero, -⟩ :=
        nandWriteSkipBad_direct hnone whole ram buffer fuel hlen hpos found.inside width
      rw [hzero] at hrun
      cases hrun
      exact nomatch hrval
    · rw [nandWriteSkipBad_eq plain whole hlen, if_neg hinside, if_neg hdirect] at hrun
      obtain ⟨hnone, hsome⟩ := noGood_of_untouched (Nat.ne_of_gt hpos) whole.1 whole.2 hrun
        (congrArg List.length hprogrammed)
      refine ⟨hnone, hsome, many_of_returns (Nat.ne_of_gt hpos) hrun, fun h => hdirect ⟨h.1, ?_⟩⟩
      omega
  · rintro ⟨hnone, hsome, many, hnot⟩
    obtain ⟨fuel, ram', hrun⟩ := writeLoop_noGood buffer chip ram (Nat.ne_of_gt hpos) many hnone hsome
    refine ⟨fuel, ⟨-EINVAL, length - length, chip, ram'⟩, ?_, fun _ => ⟨rfl, rfl, rfl⟩,
      fun h => absurd h hrefused⟩
    rw [nandWriteSkipBad_eq plain whole hlen, if_neg hinside, if_neg, hrun]
    rintro ⟨hyaffs, rfl⟩
    exact hnot ⟨hyaffs, hend⟩

lemma write_outside (plain : mtd.rwOob ≠ some true) (whole : WholePages mtd offset length)
    (pos : 0 < length) (outside : mtd.geo.size ≤ offset) (ram : Mem) (buffer : Nat) :
    WriteCorrect mtd chip ram offset length buffer := by
  obtain ⟨len, hlen, hlenpos⟩ := getLenInclBad_outside outside pos
  refine ⟨0, ⟨-EINVAL, length, chip, ram⟩, ?_, fun _ => ⟨rfl, rfl, rfl⟩,
    fun h => absurd h.2 (not_fits_outside pos outside)⟩
  rw [nandWriteSkipBad_eq plain whole hlen, if_pos (by omega)]

lemma write_nothing (plain : mtd.rwOob ≠ some true) (whole : WholePages mtd offset 0)
    (inside : offset ≤ mtd.geo.size) (ram : Mem) (buffer : Nat) :
    nandWriteSkipBad 1 mtd false chip ram offset 0 buffer = some ⟨0, 0, chip, ram⟩ := by
  rw [nandWriteSkipBad_eq plain whole (getLenInclBad_zero mtd offset), if_neg (by omega)]
  by_cases hnone : mtd.rwOob = none
  · have hsame : shuffled mtd ram 0 buffer = ram := if_neg plain
    have hwrite : nandWrite mtd chip ram offset 0 buffer = some (0, chip, ram) := by
      rw [nandWrite, hsame, if_neg (by omega), if_pos rfl]
    rw [if_pos ⟨hnone, rfl⟩, hwrite]
    rfl
  · rw [if_neg fun h => hnone h.1, writeLoop_done]

lemma write_empty (plain : mtd.rwOob ≠ some true) (coherent : Coherent mtd chip)
    (whole : WholePages mtd offset 0) (ram : Mem) (buffer : Nat) :
    WriteCorrect mtd chip ram offset 0 buffer := by
  by_cases hin : offset ≤ mtd.geo.size
  · refine ⟨1, _, write_nothing plain whole hin ram buffer,
      fun h => absurd ⟨whole, hin, Nat.zero_le _⟩ h,
      fun _ => ⟨rfl, stores_nothing coherent ram offset buffer, fun ram' buffer' => ?_⟩⟩
    exact ⟨0, _, read_nothing 0 hin ram' buffer', rfl, fun j hj => absurd hj (Nat.not_lt_zero _)⟩
  · refine ⟨0, ⟨-EINVAL, 0, chip, ram⟩, ?_, fun _ => ⟨rfl, rfl, rfl⟩, fun h => absurd h.2.1 hin⟩
    rw [nandWriteSkipBad_eq plain whole (getLenInclBad_zero mtd offset), if_pos (by omega)]

end

section

variable {mtd : Mtd} {chip : Chip} {offset length : Nat}

def Refusable (mtd : Mtd) (offset length : Nat) : Prop := length = 0 ∨ mtd.geo.size ≤ offset

/-- No good block from `offset` on, but some elsewhere, where the loops run off the device. -/
def RunsOff (mtd : Mtd) (offset : Nat) : Prop := NoGood mtd offset ∧ SomeGood mtd

def WriteHandled (mtd : Mtd) (offset length : Nat) : Prop :=
  ¬ WholePages mtd offset length ∨ Refusable mtd offset length ∨
    (Fits mtd offset length ∧ (100 ≤ length ∨ (mtd.rwOob = none ∧ Straight mtd offset length))) ∨
    (RunsOff mtd offset ∧ 100 ≤ length ∧ ¬ (mtd.rwOob = none ∧ offset + length = mtd.geo.size))

def ReadHandled (mtd : Mtd) (offset length : Nat) : Prop :=
  Refusable mtd offset length ∨ Fits mtd offset length ∨
    (RunsOff mtd offset ∧ offset + length ≠ mtd.geo.size)

lemma not_noGood_of_fits (pos : 0 < length) (fits : Fits mtd offset length) :
    ¬ NoGood mtd offset :=
  fun hnone => absurd (lt_of_lt_of_le pos fits.2) (by rw [hnone]; exact lt_irrefl 0)

lemma read_correct_iff (coherent : Coherent mtd chip) (ram : Mem) (buffer : Nat)
    (width : length < 2 ^ 32) :
    ReadCorrect mtd chip ram offset length buffer ↔ ReadHandled mtd offset length := by
  rcases request_cases mtd offset length with rfl | ⟨pos, hout⟩ | ⟨pos, hin, fits⟩ | short
  · exact iff_of_true (read_empty ram buffer) (.inl (.inl rfl))
  · exact iff_of_true (read_outside pos hout ram buffer) (.inl (.inr hout))
  · exact iff_of_true (read_correct_of_fits coherent ram buffer width pos hin fits)
      (.inr (.inl fits))
  · rw [read_short coherent ram buffer width short]
    have hpos : length ≠ 0 := fun h => absurd (h ▸ short.2) (Nat.not_lt_zero _)
    constructor
    · rintro ⟨hnone, hsome, hne⟩
      exact .inr (.inr ⟨⟨hnone, hsome⟩, hne⟩)
    · rintro ((hzero | hout) | fits | ⟨⟨hnone, hsome⟩, hne⟩)
      · exact absurd hzero hpos
      · exact absurd short.1 (not_lt.mpr hout)
      · exact absurd fits short.not_fits
      · exact ⟨hnone, hsome, hne⟩

lemma write_correct_iff (plain : mtd.rwOob ≠ some true) (coherent : Coherent mtd chip)
    (ram : Mem) (buffer : Nat) (width : length < 2 ^ 32) :
    WriteCorrect mtd chip ram offset length buffer ↔ WriteHandled mtd offset length := by
  by_cases whole : WholePages mtd offset length
  swap
  · exact iff_of_true (write_unaligned plain whole ram buffer) (.inl whole)
  rcases request_cases mtd offset length with rfl | ⟨pos, hout⟩ | ⟨pos, hin, fits⟩ | short
  · exact iff_of_true (write_empty plain coherent whole ram buffer) (.inr (.inl (.inl rfl)))
  · exact iff_of_true (write_outside plain whole pos hout ram buffer)
      (.inr (.inl (.inr hout)))
  · rw [write_fits plain coherent ram buffer width whole pos hin fits]
    constructor
    · intro h
      exact .inr (.inr (.inl ⟨fits, h⟩))
    · rintro (hragged | (hzero | hout) | ⟨-, h⟩ | ⟨⟨hnone, -⟩, -⟩)
      · exact absurd whole hragged
      · exact absurd hzero (Nat.ne_of_gt pos)
      · exact absurd hin (not_lt.mpr hout)
      · exact h
      · exact absurd hnone (not_noGood_of_fits pos fits)
  · rw [write_short plain ram buffer width whole short]
    have hpos : length ≠ 0 := fun h => absurd (h ▸ short.2) (Nat.not_lt_zero _)
    constructor
    · rintro ⟨hnone, hsome, many, hnot⟩
      exact .inr (.inr (.inr ⟨⟨hnone, hsome⟩, many, hnot⟩))
    · rintro (hragged | (hzero | hout) | ⟨fits, -⟩ | ⟨⟨hnone, hsome⟩, many, hnot⟩)
      · exact absurd whole hragged
      · exact absurd hzero hpos
      · exact absurd short.1 (not_lt.mpr hout)
      · exact absurd fits short.not_fits
      · exact ⟨hnone, hsome, many, hnot⟩

end

/-- Both calls do what they are for exactly on the requests handled. -/
theorem skipBad_correct_iff {mtd : Mtd} {chip : Chip} (plain : mtd.rwOob ≠ some true)
    (coherent : Coherent mtd chip) (ram : Mem) (offset buffer : Nat) {length : Nat}
    (width : length < 2 ^ 32) :
    WriteCorrect mtd chip ram offset length buffer ∧ ReadCorrect mtd chip ram offset length buffer ↔
      WriteHandled mtd offset length ∧ ReadHandled mtd offset length :=
  and_congr (write_correct_iff plain coherent ram buffer width)
    (read_correct_iff coherent ram buffer width)

def oneBad : Mtd where
  geo := .smallPage 2
  size_le := by decide
  bad b := b == 1
  flips _ := false
  subpageSft := 2
  subpageSft_le := by decide
  subpageRead := none
  subpageRead_pos := no_subpages
  writeEcc _ oob := oob
  rwOob := some false

lemma coherent_blank (mtd : Mtd) : Coherent mtd blankChip := fun _ h => nomatch h

/-- One page fits and is handled. -/
theorem skipBad_correct_iff_one_page :
    WriteCorrect oneBad blankChip (fun _ => 0) 0 512 0 ∧
        ReadCorrect oneBad blankChip (fun _ => 0) 0 512 0 ↔
      WriteHandled oneBad 0 512 ∧ ReadHandled oneBad 0 512 :=
  skipBad_correct_iff (by decide) (coherent_blank oneBad) _ _ _ (by decide)

lemma oneBad_rank : rank (goodByte oneBad) 0 oneBad.geo.size = 16384 := by
  have hgood : goodByte oneBad 0 = true := rfl
  have hbad : goodByte oneBad 16384 = false := rfl
  have hfirst := rank_good hgood (Nat.zero_le 16384) (by decide)
  have hsecond := rank_bad hbad (show 16384 ≤ 32768 by decide) (by decide)
  have hsize : oneBad.geo.size = 32768 := rfl
  rw [hsize, rank_add (Nat.zero_le 16384) (by decide), hfirst, hsecond]

/-- The bad block counts as room: the write runs behind the device. -/
theorem one_page_too_many : ¬ WriteCorrect oneBad blankChip (fun _ => 0) 0 16896 0 := by
  rw [write_correct_iff (by decide) (coherent_blank oneBad) _ _ (by decide)]
  rintro (hragged | (hzero | hout) | ⟨⟨-, hroom⟩, -⟩ | ⟨⟨hnone, -⟩, -⟩)
  · exact hragged ⟨Nat.dvd_zero _, by decide⟩
  · exact nomatch hzero
  · exact absurd hout (by decide)
  · rw [oneBad_rank] at hroom
    exact absurd hroom (by decide)
  · rw [NoGood, oneBad_rank] at hnone
    exact nomatch hnone

end SkipBadRoundTrip
