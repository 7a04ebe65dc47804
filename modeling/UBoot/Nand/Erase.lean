import UBoot.Nand.Chip

/-!
# Erasing a range of blocks (drivers/mtd/nand/nand_util.c)

What the chip does at each block is a parameter: any pattern of outcomes. The
messages are left out.
-/

namespace NandErase

open Nand

/-- The device with the outcome of each operation at a block: a positive `checkbad` is a bad
block. -/
structure MtdInfo where
  geo : Geometry
  oobavail : Nat
  checkbad : Nat → Int
  eraseBlock : Nat → Int
  writeOob : Nat → Int

def ulongSpace : Nat := 2 ^ 32

/-- `nand_erase_options_t`; length and offset are `ulong`. -/
structure EraseOptions where
  length : Nat
  length_lt : length < ulongSpace
  offset : Nat
  offset_lt : offset < ulongSpace
  jffs2 : Bool
  scrub : Bool

def nandBlockIsbad (meminfo : MtdInfo) (offs : Nat) : Int :=
  if meminfo.geo.size < offs then -EINVAL else meminfo.checkbad (offs / meminfo.geo.erasesize)

def nandErase (meminfo : MtdInfo) (addr : Nat) : Int :=
  if addr % meminfo.geo.erasesize ≠ 0 then -EINVAL
  else if meminfo.geo.size < meminfo.geo.erasesize + addr then -EINVAL
  else meminfo.eraseBlock (addr / meminfo.geo.erasesize)

structure Progress where
  erased : List Nat
  marked : List Nat

def eraseRound (meminfo : MtdInfo) (opts : EraseOptions) (addr : Nat) (done : Progress) :
    Option Progress :=
  let ret := if opts.scrub then 0 else nandBlockIsbad meminfo addr
  if 0 < ret then some done
  else if ret < 0 then none
  else if nandErase meminfo addr ≠ 0 then some done
  else
    let block := addr / meminfo.geo.erasesize
    if opts.jffs2 ∧ 8 ≤ meminfo.oobavail then
      if meminfo.writeOob block ≠ 0 then some { done with erased := block :: done.erased }
      else some ⟨block :: done.erased, block :: done.marked⟩
    else some { done with erased := block :: done.erased }

def eraseLoop (meminfo : MtdInfo) (opts : EraseOptions) (stop : Nat) :
    Nat → Nat → Progress → Option (Int × Progress)
  | 0, _, _ => none
  | fuel + 1, addr, done =>
    if addr < stop then
      match eraseRound meminfo opts addr done with
      | none => some (-1, done)
      | some done => eraseLoop meminfo opts stop fuel (addr + meminfo.geo.erasesize) done
    else some (0, done)

def eraseLength (meminfo : MtdInfo) (opts : EraseOptions) : Nat :=
  if opts.length < meminfo.geo.erasesize then meminfo.geo.erasesize else opts.length

def nandEraseOpts (meminfo : MtdInfo) (opts : EraseOptions) : Option (Int × Progress) :=
  let stop := (opts.offset + eraseLength meminfo opts) % ulongSpace
  eraseLoop meminfo opts stop (stop + 1) opts.offset ⟨[], []⟩

variable {opts : EraseOptions} {addr stop : Nat} {meminfo : MtdInfo}

structure Erases (meminfo : MtdInfo) (addr : Nat) : Prop where
  good : nandBlockIsbad meminfo addr = 0
  erase : nandErase meminfo addr = 0

def Formats (meminfo : MtdInfo) (opts : EraseOptions) : Prop :=
  opts.jffs2 = true ∧ 8 ≤ meminfo.oobavail

structure RoundDone (meminfo : MtdInfo) (opts : EraseOptions) (addr : Nat) (done out : Progress) :
    Prop where
  isbad : 0 ≤ nandBlockIsbad meminfo addr
  erased : ∀ b, b ∈ out.erased ↔
    b ∈ done.erased ∨ Erases meminfo addr ∧ b = addr / meminfo.geo.erasesize
  marked : ∀ b, b ∈ out.marked ↔ b ∈ done.marked ∨
    (Erases meminfo addr ∧ Formats meminfo opts ∧ meminfo.writeOob b = 0) ∧
      b = addr / meminfo.geo.erasesize

lemma eraseRound_done (meminfo : MtdInfo) (addr : Nat) (done : Progress)
    (scrub : opts.scrub = false) :
    match eraseRound meminfo opts addr done with
    | none => nandBlockIsbad meminfo addr < 0
    | some out => RoundDone meminfo opts addr done out := by
  have hret : (if opts.scrub then 0 else nandBlockIsbad meminfo addr) =
      nandBlockIsbad meminfo addr := by
    rw [scrub]
    rfl
  unfold eraseRound
  rw [hret]
  by_cases hbad : 0 < nandBlockIsbad meminfo addr
  · have hnot : ¬ Erases meminfo addr := fun h => by
      have := h.good
      omega
    rw [if_pos hbad]
    exact ⟨Int.le_of_lt hbad, by simp [hnot], by simp [hnot]⟩
  by_cases herror : nandBlockIsbad meminfo addr < 0
  · rw [if_neg hbad, if_pos herror]
    exact herror
  have hgood : nandBlockIsbad meminfo addr = 0 := by omega
  rw [if_neg hbad, if_neg herror]
  by_cases hfail : nandErase meminfo addr ≠ 0
  · have hnot : ¬ Erases meminfo addr := fun h => hfail h.erase
    rw [if_pos hfail]
    exact ⟨by omega, by simp [hnot], by simp [hnot]⟩
  have herases : Erases meminfo addr := ⟨hgood, not_not.mp hfail⟩
  rw [if_neg hfail]
  by_cases hformat : opts.jffs2 = true ∧ 8 ≤ meminfo.oobavail
  · rw [if_pos hformat]
    by_cases hoob : meminfo.writeOob (addr / meminfo.geo.erasesize) ≠ 0
    · rw [if_pos hoob]
      refine ⟨by omega, by simp [herases, or_comm], fun b => ⟨Or.inl, ?_⟩⟩
      rintro (h | ⟨⟨-, -, h⟩, rfl⟩)
      · exact h
      · exact absurd h hoob
    · rw [if_neg hoob]
      refine ⟨by omega, by simp [herases, or_comm], fun b => ?_⟩
      rw [List.mem_cons, or_comm]
      refine or_congr_right ⟨?_, fun h => h.2⟩
      rintro rfl
      exact ⟨⟨herases, hformat, not_not.mp hoob⟩, rfl⟩
  · rw [if_neg hformat]
    refine ⟨by omega, by simp [herases, or_comm], fun b => ⟨Or.inl, ?_⟩⟩
    rintro (h | ⟨⟨-, h, -⟩, -⟩)
    · exact h
    · exact absurd h hformat

/-- The loop gets to `a` when it begins at `addr`. -/
def Visits (meminfo : MtdInfo) (addr stop a : Nat) : Prop :=
  a < stop ∧ ∃ k, a = addr + k * meminfo.geo.erasesize

lemma visits_iff (meminfo : MtdInfo) (h : addr < stop) (a : Nat) :
    Visits meminfo addr stop a ↔ a = addr ∨ Visits meminfo (addr + meminfo.geo.erasesize) stop a := by
  constructor
  · rintro ⟨ha, k, rfl⟩
    cases k with
    | zero => exact .inl (by rw [zero_mul, add_zero])
    | succ k => exact .inr ⟨ha, k, by rw [Nat.succ_mul]; omega⟩
  · rintro (rfl | ⟨ha, k, rfl⟩)
    · exact ⟨h, 0, by rw [zero_mul, add_zero]⟩
    · exact ⟨ha, k + 1, by rw [Nat.succ_mul]; omega⟩

lemma not_visits {a : Nat} (h : ¬ addr < stop) :
    ¬ Visits meminfo addr stop a := by
  rintro ⟨ha, k, rfl⟩
  omega

structure LoopDone (meminfo : MtdInfo) (opts : EraseOptions) (addr stop : Nat) (done : Progress)
    (ret : Int) (out : Progress) : Prop where
  error : ret ≠ 0 → ∃ a, Visits meminfo addr stop a ∧ nandBlockIsbad meminfo a < 0
  isbad : ret = 0 → ∀ a, Visits meminfo addr stop a → 0 ≤ nandBlockIsbad meminfo a
  only : ∀ b, b ∈ out.erased → b ∈ done.erased ∨
    ∃ a, Visits meminfo addr stop a ∧ Erases meminfo a ∧ b = a / meminfo.geo.erasesize
  erased : ret = 0 → ∀ b, (b ∈ done.erased ∨
    ∃ a, Visits meminfo addr stop a ∧ Erases meminfo a ∧ b = a / meminfo.geo.erasesize) →
      b ∈ out.erased
  marked : ret = 0 → ∀ b, b ∈ out.marked ↔ b ∈ done.marked ∨
    ∃ a, Visits meminfo addr stop a ∧
      (Erases meminfo a ∧ Formats meminfo opts ∧ meminfo.writeOob b = 0) ∧
        b = a / meminfo.geo.erasesize

lemma loopDone_end {done : Progress} (h : ¬ addr < stop) :
    LoopDone meminfo opts addr stop done 0 done := by
  refine ⟨fun h => absurd rfl h, fun _ a ha => absurd ha (not_visits h), fun _ => Or.inl, ?_, ?_⟩
  · rintro - b (hb | ⟨a, ha, -⟩)
    · exact hb
    · exact absurd ha (not_visits h)
  · refine fun _ b => ⟨Or.inl, ?_⟩
    rintro (hb | ⟨a, ha, -⟩)
    · exact hb
    · exact absurd ha (not_visits h)

lemma loopDone_step {done mid out : Progress} {ret : Int} (h : addr < stop)
    (round : RoundDone meminfo opts addr done mid)
    (rest : LoopDone meminfo opts (addr + meminfo.geo.erasesize) stop mid ret out) :
    LoopDone meminfo opts addr stop done ret out := by
  have hvisits := visits_iff meminfo h
  refine ⟨?_, ?_, ?_, ?_, ?_⟩
  · intro hret
    obtain ⟨a, ha, hbad⟩ := rest.error hret
    exact ⟨a, (hvisits a).mpr (.inr ha), hbad⟩
  · intro hret a ha
    rcases (hvisits a).mp ha with rfl | ha
    · exact round.isbad
    · exact rest.isbad hret a ha
  · intro b hb
    rcases rest.only b hb with hb | ⟨a, ha, her, hab⟩
    · rcases (round.erased b).mp hb with hb | ⟨her, hab⟩
      · exact .inl hb
      · exact .inr ⟨addr, (hvisits addr).mpr (.inl rfl), her, hab⟩
    · exact .inr ⟨a, (hvisits a).mpr (.inr ha), her, hab⟩
  · rintro hret b (hb | ⟨a, ha, her, hab⟩)
    · exact rest.erased hret b (.inl ((round.erased b).mpr (.inl hb)))
    · rcases (hvisits a).mp ha with rfl | ha
      · exact rest.erased hret b (.inl ((round.erased b).mpr (.inr ⟨her, hab⟩)))
      · exact rest.erased hret b (.inr ⟨a, ha, her, hab⟩)
  · intro hret b
    rw [rest.marked hret b, round.marked b]
    constructor
    · rintro ((hb | ⟨hm, hab⟩) | ⟨a, ha, hm, hab⟩)
      · exact .inl hb
      · exact .inr ⟨addr, (hvisits addr).mpr (.inl rfl), hm, hab⟩
      · exact .inr ⟨a, (hvisits a).mpr (.inr ha), hm, hab⟩
    · rintro (hb | ⟨a, ha, hm, hab⟩)
      · exact .inl (.inl hb)
      · rcases (hvisits a).mp ha with rfl | ha
        · exact .inl (.inr ⟨hm, hab⟩)
        · exact .inr ⟨a, ha, hm, hab⟩

lemma eraseLoop_done (scrub : opts.scrub = false) (fuel addr : Nat) (done : Progress)
    (enough : stop ≤ fuel + addr) :
    ∃ ret out, eraseLoop meminfo opts stop (fuel + 1) addr done = some (ret, out) ∧
      LoopDone meminfo opts addr stop done ret out := by
  induction fuel generalizing addr done with
  | zero =>
    have hend : ¬ addr < stop := by omega
    exact ⟨0, done, by rw [eraseLoop, if_neg hend], loopDone_end hend⟩
  | succ fuel ih =>
    rw [eraseLoop]
    by_cases hin : addr < stop
    · rw [if_pos hin]
      have hround := eraseRound_done meminfo addr done scrub
      cases hmid : eraseRound meminfo opts addr done with
      | none =>
        rw [hmid] at hround
        have hhere : Visits meminfo addr stop addr := (visits_iff meminfo hin addr).mpr (.inl rfl)
        exact ⟨-1, done, rfl, fun _ => ⟨addr, hhere, hround⟩, fun h => absurd h (by decide),
          fun _ => Or.inl, fun h => absurd h (by decide), fun h => absurd h (by decide)⟩
      | some mid =>
        rw [hmid] at hround
        have hpos := meminfo.geo.erasesize_pos
        obtain ⟨ret, out, hout, hdone⟩ := ih (addr + meminfo.geo.erasesize) mid (by omega)
        exact ⟨ret, out, hout, loopDone_step hin hround hdone⟩
    · rw [if_neg hin]
      exact ⟨0, done, rfl, loopDone_end hin⟩

def Touched (meminfo : MtdInfo) (opts : EraseOptions) (b : Nat) : Prop :=
  opts.offset < (b + 1) * meminfo.geo.erasesize ∧
    b * meminfo.geo.erasesize < opts.offset + eraseLength meminfo opts

def EraseReported (meminfo : MtdInfo) (opts : EraseOptions) : Prop :=
  ∃ ret out, nandEraseOpts meminfo opts = some (ret, out) ∧
    (ret = 0 → ∀ b, Touched meminfo opts b → ¬ 0 < meminfo.checkbad b →
      b ∈ out.erased ∧ (Formats meminfo opts → b ∈ out.marked)) ∧
    ∀ b, b ∈ out.erased → Touched meminfo opts b ∧ ¬ 0 < meminfo.checkbad b

def EndFits (meminfo : MtdInfo) (opts : EraseOptions) : Prop :=
  opts.offset + eraseLength meminfo opts < ulongSpace

def TestFails (meminfo : MtdInfo) (opts : EraseOptions) : Prop :=
  EndFits meminfo opts ∧ ∃ a,
    Visits meminfo opts.offset (opts.offset + eraseLength meminfo opts) a ∧
      nandBlockIsbad meminfo a < 0

def NothingFails (meminfo : MtdInfo) (opts : EraseOptions) (b : Nat) : Prop :=
  0 < meminfo.checkbad b ∨
    (EndFits meminfo opts ∧ meminfo.geo.erasesize ∣ opts.offset) ∧
      nandErase meminfo (b * meminfo.geo.erasesize) = 0 ∧
        (Formats meminfo opts → meminfo.writeOob b = 0)

lemma eraseLength_lt (meminfo : MtdInfo) (opts : EraseOptions) :
    eraseLength meminfo opts < ulongSpace := by
  have hsize := meminfo.geo.erasesize_lt
  have hlength := opts.length_lt
  unfold eraseLength
  split_ifs
  · exact hsize
  · exact hlength

lemma visits_fits {a : Nat}
    (h : Visits meminfo opts.offset ((opts.offset + eraseLength meminfo opts) % ulongSpace) a) :
    EndFits meminfo opts ∧
      Visits meminfo opts.offset (opts.offset + eraseLength meminfo opts) a := by
  have hlength := eraseLength_lt meminfo opts
  have hoffset := opts.offset_lt
  obtain ⟨ha, k, rfl⟩ := h
  have hfits : EndFits meminfo opts := by
    by_contra hwrap
    unfold EndFits at hwrap
    rw [Nat.mod_eq_sub_mod (Nat.not_lt.mp hwrap), Nat.mod_eq_of_lt (by omega)] at ha
    omega
  rw [Nat.mod_eq_of_lt hfits] at ha
  exact ⟨hfits, ha, k, rfl⟩

lemma Erases.block {a : Nat} (h : Erases meminfo a) :
    a = a / meminfo.geo.erasesize * meminfo.geo.erasesize ∧
      meminfo.checkbad (a / meminfo.geo.erasesize) = 0 := by
  have hgood := h.good
  have herase := h.erase
  unfold nandErase at herase
  split_ifs at herase with halign hend
  · exact absurd herase (by decide)
  · exact absurd herase (by decide)
  have hdiv := Nat.div_add_mod a meminfo.geo.erasesize
  rw [nandBlockIsbad, if_neg (by omega)] at hgood
  rw [mul_comm] at hdiv
  exact ⟨by omega, hgood⟩

lemma nandEraseOpts_done (meminfo : MtdInfo) (scrub : opts.scrub = false) :
    ∃ ret out, nandEraseOpts meminfo opts = some (ret, out) ∧
      LoopDone meminfo opts opts.offset ((opts.offset + eraseLength meminfo opts) % ulongSpace)
        ⟨[], []⟩ ret out :=
  eraseLoop_done scrub _ _ _ (Nat.le_add_right _ _)

lemma erased_touched {a b : Nat}
    (visits : Visits meminfo opts.offset ((opts.offset + eraseLength meminfo opts) % ulongSpace) a)
    (erases : Erases meminfo a) (hab : b = a / meminfo.geo.erasesize) :
    Touched meminfo opts b ∧ ¬ 0 < meminfo.checkbad b := by
  obtain ⟨-, hstop, k, hk⟩ := visits_fits visits
  obtain ⟨hblock, hgood⟩ := erases.block
  rw [← hab] at hblock hgood
  have hpos := meminfo.geo.erasesize_pos
  have hnext : (b + 1) * meminfo.geo.erasesize =
      b * meminfo.geo.erasesize + meminfo.geo.erasesize := Nat.succ_mul _ _
  exact ⟨⟨by omega, by omega⟩, by omega⟩

lemma nothingFails_of_reported (scrub : opts.scrub = false)
    (reported : EraseReported meminfo opts) :
    TestFails meminfo opts ∨ ∀ b, Touched meminfo opts b → NothingFails meminfo opts b := by
  obtain ⟨ret, out, hout, hall, -⟩ := reported
  obtain ⟨ret', out', hout', hdone⟩ := nandEraseOpts_done meminfo scrub
  rw [hout] at hout'
  cases hout'
  by_cases hret : ret = 0
  · refine .inr fun b hb => ?_
    by_cases hbad : 0 < meminfo.checkbad b
    · exact .inl hbad
    right
    obtain ⟨her, hmark⟩ := hall hret b hb hbad
    rcases hdone.only b her with hnil | ⟨a, ha, hera, hab⟩
    · exact absurd hnil List.not_mem_nil
    obtain ⟨hfits, -, k, hk⟩ := visits_fits ha
    have hblock := hera.block.1
    rw [← hab] at hblock
    refine ⟨⟨hfits, ?_⟩, hblock ▸ hera.erase, fun hformat => ?_⟩
    · have hdvd : meminfo.geo.erasesize ∣ opts.offset + k * meminfo.geo.erasesize := by
        rw [← hk, hblock]
        exact Nat.dvd_mul_left _ _
      exact (Nat.dvd_add_left (Nat.dvd_mul_left _ _)).mp hdvd
    · rcases (hdone.marked hret b).mp (hmark hformat) with hnil | ⟨-, -, ⟨-, -, hoob⟩, -⟩
      · exact absurd hnil List.not_mem_nil
      · exact hoob
  · obtain ⟨a, ha, hbad⟩ := hdone.error hret
    exact .inl ⟨(visits_fits ha).1, a, (visits_fits ha).2, hbad⟩

lemma reported_of_nothingFails (scrub : opts.scrub = false)
    (h : TestFails meminfo opts ∨ ∀ b, Touched meminfo opts b → NothingFails meminfo opts b) :
    EraseReported meminfo opts := by
  obtain ⟨ret, out, hout, hdone⟩ := nandEraseOpts_done meminfo scrub
  refine ⟨ret, out, hout, ?_, ?_⟩
  · intro hret b hb hgood
    rcases h with ⟨hfits, a, ha, hbad⟩ | hnothing
    · have hstop := hdone.isbad hret a
      rw [Nat.mod_eq_of_lt hfits] at hstop
      have := hstop ha
      omega
    rcases hnothing b hb with hbad | ⟨⟨hfits, q, hq⟩, herase, hoob⟩
    · exact absurd hbad hgood
    -- the block begins at an address the loop visits
    have hpos := meminfo.geo.erasesize_pos
    have hqb : q ≤ b := by
      have hlt : meminfo.geo.erasesize * q < meminfo.geo.erasesize * (b + 1) := by
        rw [← hq, mul_comm _ (b + 1)]
        exact hb.1
      exact Nat.lt_succ_iff.mp (Nat.lt_of_mul_lt_mul_left hlt)
    have hvisit : Visits meminfo opts.offset
        ((opts.offset + eraseLength meminfo opts) % ulongSpace) (b * meminfo.geo.erasesize) := by
      rw [Nat.mod_eq_of_lt hfits]
      refine ⟨hb.2, b - q, ?_⟩
      rw [hq, Nat.mul_comm _ q, ← Nat.add_mul, Nat.add_sub_cancel' hqb]
    have hdiv : b * meminfo.geo.erasesize / meminfo.geo.erasesize = b := Nat.mul_div_cancel _ hpos
    have hera : Erases meminfo (b * meminfo.geo.erasesize) := by
      refine ⟨?_, herase⟩
      have hisbad := hdone.isbad hret _ hvisit
      unfold nandErase at herase
      split_ifs at herase with halign hend
      · exact absurd herase (by decide)
      · exact absurd herase (by decide)
      rw [nandBlockIsbad, if_neg (by omega), hdiv] at hisbad ⊢
      omega
    refine ⟨hdone.erased hret b (.inr ⟨_, hvisit, hera, hdiv.symm⟩), fun hformat => ?_⟩
    exact (hdone.marked hret b).mpr
      (.inr ⟨_, hvisit, ⟨hera, hformat, hoob hformat⟩, hdiv.symm⟩)
  · intro b hb
    rcases hdone.only b hb with hnil | ⟨a, ha, hera, hab⟩
    · exact absurd hnil List.not_mem_nil
    · exact erased_touched ha hera hab

/-- The result tells what happened exactly when a bad block test fails, or no operation on the
blocks of the range does. -/
theorem eraseReported_iff (meminfo : MtdInfo) (opts : EraseOptions) :
    EraseReported meminfo { opts with scrub := false } ↔
      TestFails meminfo { opts with scrub := false } ∨
        ∀ b, Touched meminfo { opts with scrub := false } b →
          NothingFails meminfo { opts with scrub := false } b :=
  ⟨nothingFails_of_reported rfl, reported_of_nothingFails rfl⟩

def wornOut : MtdInfo where
  geo := .smallPage 2
  oobavail := 8
  checkbad := fun _ => 0
  eraseBlock := fun b => if b = 0 then -5 else 0
  writeOob := fun _ => 0

def wholeDevice : EraseOptions where
  length := 0x8000
  length_lt := by decide
  offset := 0
  offset_lt := by decide
  jffs2 := false
  scrub := false

/-- The failure is printed, and the result is 0. -/
theorem failed_erase_returns_zero :
    nandEraseOpts wornOut wholeDevice = some (0, ⟨[1], []⟩) ∧
      ¬ EraseReported wornOut wholeDevice := by
  have hrun : nandEraseOpts wornOut wholeDevice = some (0, ⟨[1], []⟩) := by rfl
  refine ⟨hrun, ?_⟩
  rintro ⟨ret, out, hout, hall, -⟩
  rw [hrun] at hout
  cases hout
  have hfirst := (hall rfl 0 ⟨by decide, by decide⟩ (by decide)).1
  exact absurd hfirst (by decide)

end NandErase
