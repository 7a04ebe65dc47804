import UBoot.Nand.Yaffs2Write

/-!
# The pages a write programs

A write around bad blocks programs the good pages of a window of ranks from its offset on,
whether it ends well, at the end of the device, or not at all.
-/

namespace WrittenPages

open Nand ByteMemory NandBase NandUtil PageOps GoodSpace WriteSkipBad ImageWrite Yaffs2Write Rank

/-- Page `q` is good, and `skip` to `skip + left` good bytes lie between `o` and it. -/
structure Window (mtd : Mtd) (o skip left q : Nat) : Prop where
  behind : o ≤ q * mtd.geo.writesize
  inside : q * mtd.geo.writesize < mtd.geo.size
  good : goodByte mtd (q * mtd.geo.writesize) = true
  skipped : skip ≤ rank (goodByte mtd) o (q * mtd.geo.writesize)
  wanted : rank (goodByte mtd) o (q * mtd.geo.writesize) < skip + left

section

variable {mtd : Mtd} {o skip left q : Nat}

lemma not_window_outside (outside : mtd.geo.size ≤ o) : ¬ Window mtd o skip left q := by
  rintro ⟨behind, inside, -, -, -⟩
  omega

lemma not_window_nothing : ¬ Window mtd o skip 0 q := by
  rintro ⟨-, -, -, skipped, wanted⟩
  omega

lemma window_bad (bad : goodByte mtd o = false) :
    Window mtd o skip left q ↔ Window mtd (o + blockLeft mtd o) skip left q := by
  have none_here := rank_bad bad (Nat.le_add_right _ _) (Nat.le_refl (o + blockLeft mtd o))
  have split : ∀ a, o + blockLeft mtd o ≤ a →
      rank (goodByte mtd) o a = rank (goodByte mtd) (o + blockLeft mtd o) a := by
    intro a ha
    rw [rank_add (Nat.le_add_right o (blockLeft mtd o)) ha, none_here, zero_add]
  constructor
  · rintro ⟨behind, inside, good, skipped, wanted⟩
    have next : o + blockLeft mtd o ≤ q * mtd.geo.writesize := by
      by_contra here
      rw [goodByte_block behind (not_le.mp here), bad] at good
      exact Bool.false_ne_true good
    rw [split _ next] at skipped wanted
    exact ⟨next, inside, good, skipped, wanted⟩
  · rintro ⟨behind, inside, good, skipped, wanted⟩
    rw [← split _ behind] at skipped wanted
    exact ⟨by omega, inside, good, skipped, wanted⟩

lemma window_skip (good : goodByte mtd o = true) (aligned : mtd.geo.erasesize ∣ o) :
    Window mtd o mtd.geo.erasesize left q ↔ Window mtd (o + blockLeft mtd o) 0 left q := by
  have whole : blockLeft mtd o = mtd.geo.erasesize := blockLeft_of_dvd aligned
  have split : ∀ a, o + blockLeft mtd o ≤ a →
      rank (goodByte mtd) o a = mtd.geo.erasesize + rank (goodByte mtd) (o + blockLeft mtd o) a := by
    intro a ha
    rw [rank_add (Nat.le_add_right o (blockLeft mtd o)) ha,
      rank_good good (Nat.le_add_right _ _) le_rfl]
    omega
  constructor
  · rintro ⟨behind, inside, goodq, skipped, wanted⟩
    have next : o + blockLeft mtd o ≤ q * mtd.geo.writesize := by
      by_contra here
      rw [rank_good good behind (by omega)] at skipped
      omega
    rw [split _ next] at wanted
    exact ⟨next, inside, goodq, Nat.zero_le _, by omega⟩
  · rintro ⟨behind, inside, goodq, -, wanted⟩
    have rank_eq := split _ behind
    exact ⟨by omega, inside, goodq, by omega, by omega⟩

lemma window_write {w : Nat} (good : goodByte mtd o = true) (fits : w ≤ blockLeft mtd o)
    (enough : w ≤ left) (inside : o < mtd.geo.size) :
    Window mtd o 0 left q ↔
      (o ≤ q * mtd.geo.writesize ∧ q * mtd.geo.writesize < o + w) ∨
        Window mtd (o + w) 0 (left - w) q := by
  have ends := blockEnd_le inside
  have split : ∀ a, o + w ≤ a →
      rank (goodByte mtd) o a = w + rank (goodByte mtd) (o + w) a := by
    intro a ha
    rw [rank_add (Nat.le_add_right o w) ha, rank_good good (Nat.le_add_right _ _) (by omega)]
    omega
  constructor
  · rintro ⟨behind, insideq, goodq, -, wanted⟩
    by_cases here : q * mtd.geo.writesize < o + w
    · exact .inl ⟨behind, here⟩
    · have rank_eq := split _ (not_lt.mp here)
      exact .inr ⟨not_lt.mp here, insideq, goodq, Nat.zero_le _, by omega⟩
  · rintro (⟨behind, here⟩ | ⟨behind, insideq, goodq, -, wanted⟩)
    · have goodq : goodByte mtd (q * mtd.geo.writesize) = true :=
        (goodByte_block behind (by omega)).trans good
      have rank_eq := rank_good good behind (by omega)
      exact ⟨behind, by omega, goodq, Nat.zero_le _, by omega⟩
    · have rank_eq := split _ behind
      exact ⟨by omega, insideq, goodq, Nat.zero_le _, by omega⟩

lemma page_range (aligned : mtd.geo.writesize ∣ o) {w : Nat} (whole : mtd.geo.writesize ∣ w) :
    o / mtd.geo.writesize ≤ q ∧ q < (o + w) / mtd.geo.writesize ↔
      o ≤ q * mtd.geo.writesize ∧ q * mtd.geo.writesize < o + w := by
  have pos := mtd.geo.writesize_pos
  obtain ⟨a, rfl⟩ := aligned
  obtain ⟨b, rfl⟩ := whole
  rw [← Nat.mul_add, Nat.mul_div_cancel_left _ pos, Nat.mul_div_cancel_left _ pos,
    Nat.mul_comm q, Nat.mul_le_mul_left_iff pos, Nat.mul_lt_mul_left pos]

end

variable {mtd : Mtd} {length left : Nat} {r : Result}

/-- The good bytes that `skipfirstblk` leaves out. -/
def skippedBytes (mtd : Mtd) (skip : Bool) : Nat := if skip then mtd.geo.erasesize else 0

lemma writeLoop_pages {fuel o pbuf : Nat} {skip : Bool} {chip : Chip} {ram : Mem}
    (aligned : mtd.geo.writesize ∣ o) (whole : mtd.geo.writesize ∣ left)
    (block : skip = true → mtd.geo.erasesize ∣ o)
    (h : writeLoop mtd length fuel o left pbuf skip chip ram = some r) (q : Nat) :
    q ∈ r.chip.programmed ↔
      q ∈ chip.programmed ∨ Window mtd o (skippedBytes mtd skip) left q := by
  induction fuel generalizing o left pbuf skip chip ram with
  | zero => exact nomatch h
  | succ fuel ih =>
    have next := (Nat.dvd_add_right aligned).mpr (writesize_dvd_blockLeft aligned)
    by_cases zero : left = 0
    · subst zero
      rw [writeLoop_done] at h
      cases h
      simp only [not_window_nothing, or_false]
    cases state : isGood mtd o with
    | false =>
      rw [writeLoop_bad fuel zero state] at h
      rw [ih next whole (fun _ => dvd_blockEnd mtd o) h]
      rcases lt_or_ge o mtd.geo.size with inside | outside
      · rw [window_bad ((isGood_eq inside).symm.trans state)]
      · simp only [not_window_outside outside,
          not_window_outside (le_trans outside (Nat.le_add_right o (blockLeft mtd o)))]
    | true =>
      cases skip with
      | true =>
        rw [writeLoop_skip fuel zero state] at h
        rw [ih next whole (fun h => by cases h) h]
        rcases lt_or_ge o mtd.geo.size with inside | outside
        · have good := (isGood_eq inside).symm.trans state
          rw [skippedBytes, skippedBytes, if_pos rfl, if_neg (by decide),
            window_skip good (block rfl)]
        · simp only [not_window_outside outside,
            not_window_outside (le_trans outside (Nat.le_add_right o (blockLeft mtd o)))]
      | false =>
        by_cases many : 100 ≤ length
        · have size := writesize_dvd_min aligned whole
          have pos := blockLeft_pos mtd o
          have le := blockLeft_le mtd o
          have width := mtd.geo.erasesize_lt
          rcases lt_or_ge o mtd.geo.size with inside | outside
          · have good := (isGood_eq inside).symm.trans state
            have ends := blockEnd_le inside
            obtain ⟨mid, hmid, write⟩ := nandWrite_range chip ram pbuf
              (by omega : o + min left (blockLeft mtd o) ≤ mtd.geo.size) aligned size (by omega)
              (by omega)
            rw [writeLoop_write fuel zero state many hmid, if_neg (by decide)] at h
            have rest := ih ((Nat.dvd_add_right aligned).mpr size) (Nat.dvd_sub whole size)
              (fun h => by cases h) h
            rw [rest, write.programmed, page_range aligned size, or_assoc]
            exact or_congr_right (window_write good (min_le_right _ _) (min_le_left _ _)
              inside).symm
          · rw [writeLoop_write fuel zero state many (nandWrite_past (by omega) _ _ _),
              if_pos (by decide)] at h
            cases h
            simp only [not_window_outside outside, or_false]
        · rw [writeLoop_hang fuel zero state (not_le.mp many)] at h
          exact nomatch h

lemma many_of_run {fuel o pbuf : Nat} {skip : Bool} {chip : Chip} {ram : Mem}
    (some_left : left ≠ 0) (h : writeLoop mtd length fuel o left pbuf skip chip ram = some r) :
    100 ≤ length := by
  cases skip with
  | false => exact many_of_returns some_left h
  | true =>
    induction fuel generalizing o with
    | zero => exact nomatch h
    | succ fuel ih =>
      cases state : isGood mtd o with
      | false =>
        rw [writeLoop_bad fuel some_left state] at h
        exact ih h
      | true =>
        rw [writeLoop_skip fuel some_left state] at h
        exact many_of_returns some_left h

lemma writeLoop_returns (some_good : SomeGood mtd) (many : 100 ≤ length) (o left pbuf : Nat)
    (chip : Chip) (ram : Mem) (aligned : mtd.geo.writesize ∣ o) (whole : mtd.geo.writesize ∣ left) :
    ∃ fuel r, writeLoop mtd length fuel o left pbuf false chip ram = some r := by
  induction hd : mtd.geo.size - o using Nat.strong_induction_on generalizing o left pbuf chip ram
    with
  | _ d ih =>
    by_cases zero : left = 0
    · subst zero
      exact ⟨1, _, writeLoop_done 0⟩
    have next := (Nat.dvd_add_right aligned).mpr (writesize_dvd_blockLeft aligned)
    have pos := blockLeft_pos mtd o
    rcases lt_or_ge o mtd.geo.size with inside | outside
    · have ends := blockEnd_le inside
      cases state : isGood mtd o with
      | false =>
        obtain ⟨fuel, r, hr⟩ := ih (mtd.geo.size - (o + blockLeft mtd o)) (by omega)
          (o + blockLeft mtd o) left pbuf chip ram next whole rfl
        exact ⟨fuel + 1, r, (writeLoop_bad fuel zero state).trans hr⟩
      | true =>
        have size := writesize_dvd_min aligned whole
        have le := blockLeft_le mtd o
        have width := mtd.geo.erasesize_lt
        obtain ⟨mid, hmid, -⟩ := nandWrite_range chip ram pbuf
          (by omega : o + min left (blockLeft mtd o) ≤ mtd.geo.size) aligned size (by omega)
          (by omega)
        obtain ⟨fuel, r, hr⟩ := ih (mtd.geo.size - (o + min left (blockLeft mtd o))) (by omega)
          (o + min left (blockLeft mtd o)) (left - min left (blockLeft mtd o))
          (pbuf + bufferStep mtd (min left (blockLeft mtd o))) mid
          (shuffled mtd ram (min left (blockLeft mtd o)) pbuf)
          ((Nat.dvd_add_right aligned).mpr size) (Nat.dvd_sub whole size) rfl
        refine ⟨fuel + 1, r, ?_⟩
        rw [writeLoop_write fuel zero state many hmid, if_neg (by decide), hr]
    · have noGood : NoGood mtd o := by
        have le := rank_le (goodByte mtd) o mtd.geo.size
        rw [NoGood]
        omega
      obtain ⟨fuel, ram', hr⟩ := writeLoop_noGood pbuf chip ram zero many noGood some_good
      exact ⟨fuel, _, hr⟩

lemma writeLoop_skip_returns (some_good : SomeGood mtd) (many : 100 ≤ length) (o left pbuf : Nat)
    (skip : Bool) (chip : Chip) (ram : Mem) (aligned : mtd.geo.writesize ∣ o)
    (whole : mtd.geo.writesize ∣ left) :
    ∃ fuel r, writeLoop mtd length fuel o left pbuf skip chip ram = some r := by
  cases skip with
  | false => exact writeLoop_returns some_good many o left pbuf chip ram aligned whole
  | true =>
    by_cases zero : left = 0
    · subst zero
      exact ⟨1, _, writeLoop_done 0⟩
    obtain ⟨m, first, -, -, -, -, hrun⟩ := exists_first zero some_good length o pbuf chip ram
    have next : mtd.geo.writesize ∣ first + blockLeft mtd first :=
      Nat.dvd_trans mtd.geo.writesize_dvd_erasesize (dvd_blockEnd mtd first)
    obtain ⟨fuel, r, hr⟩ := writeLoop_returns some_good many (first + blockLeft mtd first) left
      pbuf chip ram next whole
    exact ⟨m + fuel, r, (hrun fuel).trans hr⟩

/-- The data bytes in a buffer of `length` bytes. -/
def dataLength (mtd : Mtd) (length : Nat) : Nat :=
  if mtd.rwOob = some true then
    length / (mtd.geo.oobsize + mtd.geo.writesize) * mtd.geo.writesize else length

def Refused (mtd : Mtd) (offset length : Nat) : Prop :=
  (mtd.rwOob = some true ∧ length % (mtd.geo.oobsize + mtd.geo.writesize) ≠ 0) ∨
    offset % mtd.geo.writesize ≠ 0 ∨ dataLength mtd length % mtd.geo.writesize ≠ 0

section

variable {mtd : Mtd} {offset length buffer fuel : Nat} {skip : Bool} {chip : Chip} {ram : Mem}

lemma nandWriteSkipBad_refused (refused : Refused mtd offset length) :
    ∃ len, nandWriteSkipBad fuel mtd skip chip ram offset length buffer =
      some ⟨-EINVAL, len, chip, ram⟩ := by
  simp only [nandWriteSkipBad]
  by_cases odd : mtd.rwOob = some true ∧ length % (mtd.geo.oobsize + mtd.geo.writesize) ≠ 0
  · rw [if_pos odd]
    exact ⟨_, rfl⟩
  have bad_size := refused.resolve_left odd
  rw [dataLength] at bad_size
  rw [if_neg odd, if_pos bad_size]
  exact ⟨_, rfl⟩

lemma nandWriteSkipBad_loop (yaffs : mtd.rwOob ≠ none) (taken : ¬ Refused mtd offset length) :
    nandWriteSkipBad fuel mtd skip chip ram offset length buffer =
      (getLenInclBad mtd offset (dataLength mtd length)).bind fun lenInclBad =>
        if mtd.geo.size < offset + lenInclBad then
          some ⟨-EINVAL, dataLength mtd length, chip, ram⟩
        else writeLoop mtd (dataLength mtd length) fuel offset (dataLength mtd length) buffer skip
          chip ram := by
  obtain ⟨even, whole⟩ := not_or.mp taken
  rw [dataLength] at whole
  simp only [nandWriteSkipBad, if_neg even, if_neg whole, dataLength, yaffs, false_and, if_false]

lemma nandWriteSkipBad_pages (yaffs : mtd.rwOob ≠ none) (taken : ¬ Refused mtd offset length)
    (block : skip = true → mtd.geo.erasesize ∣ offset)
    (h : nandWriteSkipBad fuel mtd skip chip ram offset length buffer = some r) (q : Nat) :
    q ∈ r.chip.programmed ↔ q ∈ chip.programmed ∨
      Window mtd offset (skippedBytes mtd skip) (dataLength mtd length) q := by
  rw [nandWriteSkipBad_loop yaffs taken] at h
  obtain ⟨len, hlen, h⟩ := Option.bind_eq_some_iff.mp h
  obtain ⟨offsetWhole, dataWhole⟩ := not_or.mp (not_or.mp taken).2
  have aligned : mtd.geo.writesize ∣ offset := Nat.dvd_of_mod_eq_zero (not_not.mp offsetWhole)
  have whole : mtd.geo.writesize ∣ dataLength mtd length :=
    Nat.dvd_of_mod_eq_zero (not_not.mp dataWhole)
  by_cases past : mtd.geo.size < offset + len
  · -- only an offset behind the device
    have outside : mtd.geo.size ≤ offset := by
      by_contra inside
      obtain ⟨len', hlen', found⟩ :=
        getLenInclBad_found (dataLength mtd length) (not_le.mp inside)
      rw [hlen] at hlen'
      cases hlen'
      have fits := found.inside
      omega
    rw [if_pos past] at h
    cases h
    simp only [not_window_outside outside, or_false]
  · rw [if_neg past] at h
    exact writeLoop_pages aligned whole block h q

lemma many_of_call (yaffs : mtd.rwOob ≠ none) (taken : ¬ Refused mtd offset length)
    (inside : offset < mtd.geo.size) (some_data : dataLength mtd length ≠ 0)
    (h : nandWriteSkipBad fuel mtd skip chip ram offset length buffer = some r) :
    100 ≤ dataLength mtd length := by
  rw [nandWriteSkipBad_loop yaffs taken] at h
  obtain ⟨len, hlen, found⟩ := getLenInclBad_found (dataLength mtd length) inside
  have fits := found.inside
  rw [hlen, Option.bind_some, if_neg (by omega)] at h
  exact many_of_run some_data h

lemma nandWriteSkipBad_returns (yaffs : mtd.rwOob ≠ none) (taken : ¬ Refused mtd offset length)
    (some_good : SomeGood mtd) (inside : offset < mtd.geo.size)
    (many : 100 ≤ dataLength mtd length) (skip : Bool) (chip : Chip) (ram : Mem) (buffer : Nat) :
    ∃ fuel r, nandWriteSkipBad fuel mtd skip chip ram offset length buffer = some r := by
  obtain ⟨offsetWhole, dataWhole⟩ := not_or.mp (not_or.mp taken).2
  obtain ⟨len, hlen, found⟩ := getLenInclBad_found (dataLength mtd length) inside
  have fits := found.inside
  obtain ⟨fuel, r, hr⟩ := writeLoop_skip_returns some_good many offset (dataLength mtd length)
    buffer skip chip ram (Nat.dvd_of_mod_eq_zero (not_not.mp offsetWhole))
    (Nat.dvd_of_mod_eq_zero (not_not.mp dataWhole))
  refine ⟨fuel, r, ?_⟩
  rw [nandWriteSkipBad_loop yaffs taken, hlen, Option.bind_some, if_neg (by omega)]
  exact hr

end

/-- Page `q` lies in the `len` bytes from `offset` on. -/
def InRange (mtd : Mtd) (offset len q : Nat) : Prop :=
  offset ≤ q * mtd.geo.writesize ∧ (q + 1) * mtd.geo.writesize ≤ offset + len

/-- Nothing is programmed, or the data and the block skipped before it fit into the good blocks of
the range, or no good block is left for them behind it. -/
def Contained (mtd : Mtd) (skip : Bool) (offset len length : Nat) : Prop :=
  Refused mtd offset length ∨ dataLength mtd length < 100 ∨
    skippedBytes mtd skip + dataLength mtd length ≤
      rank (goodByte mtd) offset (offset + len) ∨
    rank (goodByte mtd) offset mtd.geo.size ≤
      max (rank (goodByte mtd) offset (offset + len)) (skippedBytes mtd skip)

section

variable {mtd : Mtd} {offset len : Nat}

lemma rank_dvd (offsetBlock : mtd.geo.erasesize ∣ offset) (lenBlock : mtd.geo.erasesize ∣ len) :
    mtd.geo.erasesize ∣ rank (goodByte mtd) offset (offset + len) := by
  obtain ⟨a, rfl⟩ := offsetBlock
  obtain ⟨b, rfl⟩ := lenBlock
  rw [← Nat.mul_add, Nat.mul_comm _ a, Nat.mul_comm _ (a + b),
    rank_blocks mtd (Nat.le_add_right a b)]
  exact Nat.dvd_mul_left _ _

lemma skippedBytes_dvd (mtd : Mtd) (skip : Bool) : mtd.geo.erasesize ∣ skippedBytes mtd skip := by
  cases skip with
  | false => exact Nat.dvd_zero _
  | true => exact Nat.dvd_refl _

lemma inRange_of_rank {skip q : Nat} (offsetBlock : mtd.geo.erasesize ∣ offset)
    (lenBlock : mtd.geo.erasesize ∣ len) (window : Window mtd offset skip left q)
    (before : rank (goodByte mtd) offset (q * mtd.geo.writesize) <
      rank (goodByte mtd) offset (offset + len)) : InRange mtd offset len q := by
  have low : q * mtd.geo.writesize < offset + len := by
    by_contra behind
    have more := rank_le_of_le (p := goodByte mtd) (Nat.le_add_right offset len)
      (not_lt.mp behind)
    omega
  refine ⟨window.behind, ?_⟩
  have stop : mtd.geo.writesize ∣ offset + len :=
    Nat.dvd_trans mtd.geo.writesize_dvd_erasesize (Nat.dvd_add offsetBlock lenBlock)
  obtain ⟨m, hm⟩ := stop
  rw [hm, mul_comm] at low ⊢
  exact Nat.mul_le_mul_left _ (Nat.lt_of_mul_lt_mul_left low)

lemma rank_lt_of_inRange {skip q : Nat} (window : Window mtd offset skip left q)
    (range : InRange mtd offset len q) :
    rank (goodByte mtd) offset (q * mtd.geo.writesize) <
      rank (goodByte mtd) offset (offset + len) := by
  have pos := mtd.geo.writesize_pos
  have stop := range.2
  rw [Nat.succ_mul] at stop
  have next := rank_succ (p := goodByte mtd) window.behind
  rw [window.good, if_pos rfl] at next
  have more := rank_le_of_le (p := goodByte mtd) (a := offset)
    (le_trans window.behind (Nat.le_add_right _ 1))
    (by omega : q * mtd.geo.writesize + 1 ≤ offset + len)
  omega

lemma exists_window_behind {skip : Nat} (offsetBlock : mtd.geo.erasesize ∣ offset)
    (lenBlock : mtd.geo.erasesize ∣ len) (skipBlock : mtd.geo.erasesize ∣ skip)
    (some_left : 0 < left) (long : rank (goodByte mtd) offset (offset + len) < skip + left)
    (room : max (rank (goodByte mtd) offset (offset + len)) skip <
      rank (goodByte mtd) offset mtd.geo.size) :
    ∃ q, Window mtd offset skip left q ∧ ¬ InRange mtd offset len q := by
  have whole : mtd.geo.writesize ∣ max (rank (goodByte mtd) offset (offset + len)) skip := by
    apply Nat.dvd_trans mtd.geo.writesize_dvd_erasesize
    rcases Nat.le_total (rank (goodByte mtd) offset (offset + len)) skip with le | le
    · rwa [Nat.max_eq_right le]
    · rw [Nat.max_eq_left le]
      exact rank_dvd offsetBlock lenBlock
  obtain ⟨k, hk⟩ := whole
  rw [mul_comm] at hk
  obtain ⟨q, page⟩ := exists_nthPage (k := k) offsetBlock (by omega)
  have place := page.place
  have window : Window mtd offset skip left q :=
    ⟨page.behind, page.inside, page.good, by omega, by omega⟩
  refine ⟨q, window, fun range => ?_⟩
  have before := rank_lt_of_inRange window range
  omega

lemma call_inRange_iff (yaffs : mtd.rwOob ≠ none) (offsetBlock : mtd.geo.erasesize ∣ offset)
    (lenBlock : mtd.geo.erasesize ∣ len) (skip : Bool) (length buffer : Nat) :
    (∀ fuel chip ram r, nandWriteSkipBad fuel mtd skip chip ram offset length buffer = some r →
      ∀ q ∈ r.chip.programmed, q ∈ chip.programmed ∨ InRange mtd offset len q) ↔
    Contained mtd skip offset len length := by
  constructor
  · intro all
    by_contra outside
    obtain ⟨taken, outside⟩ := not_or.mp outside
    obtain ⟨many, outside⟩ := not_or.mp outside
    obtain ⟨long, room⟩ := not_or.mp outside
    obtain ⟨q, window, behind⟩ := exists_window_behind offsetBlock lenBlock
      (skippedBytes_dvd mtd skip) (by omega) (not_le.mp long) (not_le.mp room)
    have inside : offset < mtd.geo.size := lt_of_le_of_lt window.behind window.inside
    have some_good : SomeGood mtd :=
      someGood_of_rank (by omega : 0 < rank (goodByte mtd) offset mtd.geo.size)
    obtain ⟨fuel, r, hr⟩ := nandWriteSkipBad_returns yaffs taken some_good inside
      (not_lt.mp many) skip blankChip (fun _ => 0) buffer
    have programmed := (nandWriteSkipBad_pages yaffs taken (fun _ => offsetBlock) hr q).mpr
      (.inr window)
    rcases all fuel _ _ r hr q programmed with before | range
    · exact absurd before List.not_mem_nil
    · exact behind range
  · intro contained fuel chip ram r hr q hq
    by_cases taken : Refused mtd offset length
    · have refused : ∃ data, nandWriteSkipBad fuel mtd skip chip ram offset length buffer =
          some ⟨-EINVAL, data, chip, ram⟩ := nandWriteSkipBad_refused taken
      obtain ⟨data, hrefused⟩ := refused
      rw [hr] at hrefused
      cases hrefused
      exact .inl hq
    rcases (nandWriteSkipBad_pages yaffs taken (fun _ => offsetBlock) hr q).mp hq with old | window
    · exact .inl old
    apply Or.inr
    have inside : offset < mtd.geo.size := lt_of_le_of_lt window.behind window.inside
    have skipped := window.skipped
    have wanted := window.wanted
    have many := many_of_call yaffs taken inside (by omega) hr
    apply inRange_of_rank offsetBlock lenBlock window
    rcases contained.resolve_left taken with few | fits | none_left
    · omega
    · omega
    · have next := rank_succ (p := goodByte mtd) window.behind
      rw [window.good, if_pos rfl] at next
      have more := rank_le_of_le (p := goodByte mtd) (a := offset)
        (le_trans window.behind (Nat.le_add_right _ 1)) (Nat.succ_le_of_lt window.inside)
      omega

end

end WrittenPages
