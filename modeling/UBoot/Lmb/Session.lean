import UBoot.Lmb.Free
import UBoot.Lmb.Search

/-!
# Allocating a block

`__lmb_alloc_base` tests `size` bytes and reserves `lmb_align_up(size, align)` of
them.
-/

namespace LmbAlloc

open LogicalMemory LmbTable LmbSearch Align

variable {size align : Nat}

/-- The rounded range lies in memory, below `maxAddr`, apart from what is reserved. -/
structure RangeFree (lmb : Lmb) (base size maxAddr : Nat) : Prop where
  inMemory : ∃ i, i < lmb.memory.cnt ∧ (lmb.memory.region i).base ≤ base ∧
    base + size ≤ (lmb.memory.region i).base + (lmb.memory.region i).size
  below : maxAddr ≠ 0 → base + size ≤ maxAddr
  apart : ∀ j, j < lmb.reserved.cnt → Apart ⟨base, size⟩ (lmb.reserved.region j)

def AllocatesSafely (lmb : Lmb) (size align maxAddr : Nat) : Prop :=
  ∃ base out, lmbAllocBase lmb size align maxAddr = some (base, out) ∧
    (base ≠ 0 → align ∣ base ∧ RangeFree lmb base (roundUp align size) maxAddr ∧
      ∀ a, Covered out.reserved a ↔
        Covered lmb.reserved a ∨ InRange base (roundUp align size) a) ∧
    (base = 0 → out.reserved = lmb.reserved)

/-- What the search does not ask at a place in memory region `i`: the bytes that rounding adds to
`size` end below the limit, apart from what is reserved. -/
structure SlackFree (lmb : Lmb) (size align maxAddr i base : Nat) : Prop where
  ends : base + roundUp align size ≤ limit (lmb.memory.region i) maxAddr
  apart : ∀ j, j < lmb.reserved.cnt →
    Apart ⟨base + size, roundUp align size - size⟩ (lmb.reserved.region j)

def SlackTaken (lmb : Lmb) (size align maxAddr i base : Nat) : Prop :=
  TableFull lmb.reserved base (lmbAlignUp size align) ∨
    SlackFree lmb size align maxAddr i base ∧ FreshStart lmb.reserved base (roundUp align size)

/-- No place for `size` bytes lies above all those where the added bytes can be taken, too. -/
def RoundingFits (lmb : Lmb) (size align maxAddr : Nat) : Prop :=
  ∀ i y, PlaceIn lmb size align maxAddr i y →
    ∃ k z, y ≤ z ∧ PlaceIn lmb size align maxAddr k z ∧ SlackTaken lmb size align maxAddr k z

lemma chosen_unique {lmb : Lmb} {maxAddr b c : Nat} (pos : 0 < size) (power : PowerOfTwo align)
    (hb : Chosen lmb size align maxAddr b) (hc : Chosen lmb size align maxAddr c) : b = c := by
  obtain ⟨⟨i, hbi⟩, hbmax⟩ := hb
  obtain ⟨⟨j, hcj⟩, hcmax⟩ := hc
  exact le_antisymm (hcmax pos power i b hbi) (hbmax pos power j c hcj)

lemma RangeFree.lmbAlignUp_eq {lmb : Lmb} {maxAddr base : Nat} (memory : WellFormed lmb.memory)
    (power : PowerOfTwo align) (h : RangeFree lmb base (roundUp align size) maxAddr) :
    lmbAlignUp size align = roundUp align size ∧ base + roundUp align size < addrSpace := by
  obtain ⟨i, hi, hbase, hend⟩ := h.inMemory
  have hlow := memory.low i hi
  obtain ⟨k, hk, rfl⟩ := power
  exact ⟨lmbAlignUp_pow hk (by omega), by omega⟩

lemma dvd_of_aligned {base : Nat} (power : PowerOfTwo align) (width : base < addrSpace)
    (h : lmbAlignDown base align = base) : align ∣ base := by
  obtain ⟨k, hk, rfl⟩ := power
  exact (lmbAlignDown_eq_self_iff hk width).mp h

lemma roundUp_pos (power : PowerOfTwo align) (pos : 0 < size) :
    0 < roundUp align size := by
  obtain ⟨k, -, rfl⟩ := power
  exact lt_of_lt_of_le pos (le_roundUp (Nat.two_pow_pos k) size)

section
variable {lmb : Lmb} {maxAddr base i : Nat}

/-- With what the search has tested, the rounded range is free where the added bytes are. -/
lemma rangeFree_iff (memory : WellFormed lmb.memory) (reserved : WellFormed lmb.reserved)
    (pos : 0 < size) (power : PowerOfTwo align) (place : PlaceIn lmb size align maxAddr i base) :
    RangeFree lmb base (roundUp align size) maxAddr ↔ SlackFree lmb size align maxAddr i base := by
  have hround : size ≤ roundUp align size := by
    obtain ⟨k, -, rfl⟩ := power
    exact le_roundUp (Nat.two_pow_pos k) size
  have hlimit : limit (lmb.memory.region i) maxAddr = if maxAddr = 0
      then (lmb.memory.region i).base + (lmb.memory.region i).size
      else min ((lmb.memory.region i).base + (lmb.memory.region i).size) maxAddr := rfl
  constructor
  · intro free
    have nowrap : maxAddr = 0 ∨ size ≤ maxAddr := by
      by_cases any : maxAddr = 0
      · exact .inl any
      · have := free.below any
        omega
    obtain ⟨k, hk, above, ends⟩ := free.inMemory
    obtain rfl := place.region_unique memory pos nowrap hk above (by omega)
    refine ⟨?_, fun j hj => ?_⟩
    · rw [hlimit]
      split_ifs with any
      · exact ends
      · exact le_min ends (free.below any)
    · have happart := free.apart j hj
      unfold Apart at happart ⊢
      dsimp only at happart ⊢
      omega
  · intro slack
    have hends := slack.ends
    have nowrap : maxAddr = 0 ∨ size ≤ maxAddr := by
      by_cases any : maxAddr = 0
      · exact .inl any
      · rw [hlimit, if_neg any] at hends
        omega
    refine ⟨⟨i, place.region, place.isPlace.above, hends.trans (limit_le _ _)⟩, fun any => ?_,
      fun j hj => ?_⟩
    · rw [hlimit, if_neg any] at hends
      omega
    · have hclear := place.apart memory reserved nowrap hj
      have happart := slack.apart j hj
      unfold Apart at happart ⊢
      dsimp only at happart ⊢
      omega

/-- At the highest place for `size` bytes the rounded range is reserved, unless the table is
full. -/
lemma allocatesSafely_at (memory : WellFormed lmb.memory) (reserved : WellFormed lmb.reserved)
    (pos : 0 < size) (power : PowerOfTwo align) (highest : Chosen lmb size align maxAddr base) :
    AllocatesSafely lmb size align maxAddr ↔
      TableFull lmb.reserved base (lmbAlignUp size align) ∨
        RangeFree lmb base (roundUp align size) maxAddr ∧
          FreshStart lmb.reserved base (roundUp align size) := by
  have htake : lmbAllocBase lmb size align maxAddr = takePlace lmb size align base := by
    rcases lmbAllocBase_chosen memory reserved size align maxAddr with ⟨-, hnone⟩ | ⟨b, hb, htake⟩
    · obtain ⟨i, hi⟩ := highest.1
      exact absurd hi (hnone power i base)
    · rw [chosen_unique pos power highest hb, htake]
  obtain ⟨i, hi⟩ := highest.1
  constructor
  · rintro ⟨x, out, hout, hsafe, -⟩
    rw [htake, takePlace] at hout
    obtain ⟨⟨r, rgn⟩, hadd, heq⟩ := Option.map_eq_some_iff.mp hout
    by_cases hneg : r < 0
    · exact .inl (tableFull_of_neg hadd hneg)
    simp only [if_neg hneg] at heq
    cases heq
    obtain ⟨-, hfree, hcovers⟩ := hsafe hi.isPlace.nonzero
    rw [(hfree.lmbAlignUp_eq memory power).1] at hadd
    exact .inr ⟨hfree, freshStart_of_added (roundUp_pos power pos) hadd hcovers⟩
  · rintro (hfull | ⟨hfree, hfresh⟩)
    · refine ⟨0, lmb, ?_, fun h => absurd rfl h, fun _ => rfl⟩
      rw [htake, takePlace, lmbAddRegion_refuses hfull]
      rfl
    obtain ⟨hup, hlow⟩ := hfree.lmbAlignUp_eq memory power
    obtain ⟨r, rgn, hadd, hadded⟩ := lmbAddRegion_added reserved hlow hfresh
    by_cases hneg : r < 0
    · have hfull := tableFull_of_neg hadd hneg
      refine ⟨0, lmb, ?_, fun h => absurd rfl h, fun _ => rfl⟩
      rw [htake, takePlace, hup, lmbAddRegion_refuses hfull]
      rfl
    · refine ⟨base, { lmb with reserved := rgn }, ?_, fun _ => ⟨?_, hfree, ?_⟩, ?_⟩
      · rw [htake, takePlace, hup, hadd]
        simp only [Option.map_some, if_neg hneg]
      · exact dvd_of_aligned power (by omega) hi.isPlace.aligned
      · exact hadded.covers reserved (Int.not_lt.mp hneg)
      · exact fun h => absurd h hi.isPlace.nonzero

lemma allocatesSafely_of_none (memory : WellFormed lmb.memory) (reserved : WellFormed lmb.reserved)
    (power : PowerOfTwo align) (none : ∀ b, ¬ Chosen lmb size align maxAddr b) :
    (∀ i b, ¬ PlaceIn lmb size align maxAddr i b) ∧ AllocatesSafely lmb size align maxAddr := by
  rcases lmbAllocBase_chosen memory reserved size align maxAddr with ⟨hzero, hnone⟩ | ⟨b, hb, -⟩
  · exact ⟨hnone power, 0, lmb, hzero, fun h => absurd rfl h, fun _ => rfl⟩
  · exact absurd hb (none b)

lemma roundingFits_of_dvd (memory : WellFormed lmb.memory) (power : PowerOfTwo align)
    (multiple : align ∣ size) (nowrap : maxAddr = 0 ∨ size ≤ maxAddr)
    (used : lmb.reserved.cnt ≠ 0) : RoundingFits lmb size align maxAddr := by
  intro i y place
  have hround : roundUp align size = size := by
    obtain ⟨k, -, rfl⟩ := power
    exact roundUp_of_dvd (Nat.two_pow_pos k) multiple
  refine ⟨i, y, le_rfl, place, .inr ⟨⟨?_, fun j hj => .inl ?_⟩, fun empty => absurd empty used⟩⟩
  · rw [hround]
    exact place.fits memory nowrap
  · rw [hround]
    exact Nat.sub_self size

end

/-- An allocation does what it is to do exactly if rounding the size up costs no place: at or above
every place for `size` bytes there is one with room for the rounded range. So it is where the size
is a multiple of the alignment, `maxAddr` is not below the size, and something is reserved. -/
theorem allocatesSafely_iff {lmb : Lmb} {size align maxAddr : Nat}
    (memory : WellFormed lmb.memory) (reserved : WellFormed lmb.reserved) (pos : 0 < size)
    (power : PowerOfTwo align) :
    (AllocatesSafely lmb size align maxAddr ↔ RoundingFits lmb size align maxAddr) ∧
      (align ∣ size → (maxAddr = 0 ∨ size ≤ maxAddr) → lmb.reserved.cnt ≠ 0 →
        AllocatesSafely lmb size align maxAddr) := by
  have main : AllocatesSafely lmb size align maxAddr ↔ RoundingFits lmb size align maxAddr := by
    by_cases found : ∃ b, Chosen lmb size align maxAddr b
    · obtain ⟨b, hb⟩ := found
      obtain ⟨i, place⟩ := hb.1
      have same := rangeFree_iff memory reserved pos power place
      rw [allocatesSafely_at memory reserved pos power hb, same]
      constructor
      · exact fun taken k y hy => ⟨i, b, hb.2 pos power k y hy, place, taken⟩
      · intro fits
        obtain ⟨k, z, above, there, taken⟩ := fits i b place
        -- no place lies above the one that is taken
        obtain rfl := le_antisymm above (hb.2 pos power k z there)
        rw [SlackTaken, ← rangeFree_iff memory reserved pos power there, same] at taken
        exact taken
    · obtain ⟨none, safe⟩ := allocatesSafely_of_none memory reserved power (not_exists.mp found)
      exact iff_of_true safe fun i y hy => absurd hy (none i y)
  exact ⟨main, fun multiple nowrap used =>
    main.mpr (roundingFits_of_dvd memory power multiple nowrap used)⟩

def boardLmb (rsvBase : Nat) : Lmb :=
  ⟨⟨1, fun _ => ⟨0x30000000, 0x4000000⟩⟩, ⟨1, fun _ => ⟨rsvBase, 0x34000000 - rsvBase⟩⟩⟩

lemma boardLmb_wellFormed {rsvBase : Nat} (h : rsvBase ≤ 0x34000000) :
    WellFormed (boardLmb rsvBase).memory ∧ WellFormed (boardLmb rsvBase).reserved := by
  refine ⟨wellFormed_one (by decide), wellFormed_one ?_⟩
  simp only [addrSpace]
  omega

lemma powerOfTwo_page : PowerOfTwo 0x1000 := ⟨12, by decide, rfl⟩

/-- Half a page below a reservation that begins with a page, and a whole one. -/
theorem allocatesSafely_iff_board :
    (AllocatesSafely (boardLmb 0x33f00000) 0x800 0x1000 0 ↔
      RoundingFits (boardLmb 0x33f00000) 0x800 0x1000 0) ∧
    AllocatesSafely (boardLmb 0x33f00800) 0x1000 0x1000 0x33f00800 := by
  have wf (rsvBase : Nat) (h : rsvBase ≤ 0x34000000) := boardLmb_wellFormed h
  refine ⟨(allocatesSafely_iff (wf _ (by decide)).1 (wf _ (by decide)).2 (by decide)
    powerOfTwo_page).1, ?_⟩
  exact (allocatesSafely_iff (wf _ (by decide)).1 (wf _ (by decide)).2 (by decide)
    powerOfTwo_page).2 (by decide) (.inr (by decide)) (by decide)

/-- Half a page fits below the reservation, and the whole page is added to the table. -/
theorem page_reserved_twice :
    (WellFormed (boardLmb 0x33f00800).memory ∧ WellFormed (boardLmb 0x33f00800).reserved) ∧
      ¬ AllocatesSafely (boardLmb 0x33f00800) 0x800 0x1000 0 := by
  refine ⟨boardLmb_wellFormed (by decide), ?_⟩
  rintro ⟨base, out, hout, hsafe, -⟩
  have hbase : (lmbAllocBase (boardLmb 0x33f00800) 0x800 0x1000 0).map Prod.fst =
      some 0x33f00000 := by decide +kernel
  rw [hout] at hbase
  obtain rfl : base = 0x33f00000 := Option.some.inj hbase
  have hapart := (hsafe (by decide)).2.1.apart 0 (by decide)
  revert hapart
  unfold Apart roundUp boardLmb
  decide

end LmbAlloc

/-!
## Sessions of reserving, freeing and allocating

The reserved table is compared with the set that the ranges of the calls build up.
-/

namespace LmbSession

open LogicalMemory LmbTable LmbSearch LmbFree

variable {size base : Nat} {rgn : LmbRegion}

inductive Call where
  | reserve (base size : Nat)
  | free (base size : Nat)
  | alloc (size align maxAddr : Nat)

/-- Whether a call reports success, the range it is about, and what it leaves. -/
structure Outcome where
  ok : Bool
  range : Property
  lmb : Lmb

def perform (lmb : Lmb) : Call → Option Outcome
  | .reserve base size =>
    (lmbReserve lmb base size).map fun r => ⟨decide (0 ≤ r.1), ⟨base, size⟩, r.2⟩
  | .free base size =>
    (lmbFree lmb base size).map fun r => ⟨decide (0 ≤ r.1), ⟨base, size⟩, r.2⟩
  | .alloc size align maxAddr =>
    (lmbAllocBase lmb size align maxAddr).map fun r =>
      ⟨decide (r.1 ≠ 0), ⟨r.1, lmbAlignUp size align⟩, r.2⟩

def Call.update (c : Call) (p : Property) (s : Nat → Prop) (a : Nat) : Prop :=
  match c with
  | .free _ _ => s a ∧ ¬ InRange p.base p.size a
  | _ => s a ∨ InRange p.base p.size a

def Asked (s : Nat → Prop) : Call → Prop
  | .reserve base size => ∀ a, InRange base size a → ¬ s a
  | _ => True

/-- A range the table can take: it ends below the top, no cell behind an empty table misleads, and
no empty entry lies in the way. -/
structure Takes (rgn : LmbRegion) (base size : Nat) : Prop where
  low : base + size < addrSpace
  fresh : FreshStart rgn base size
  inside : NoneInside rgn base size

def Meets (lmb : Lmb) : Call → Prop
  | .reserve base size => Takes lmb.reserved base size
  | .free base size => base + size < addrSpace ∧ NoneWithin lmb.reserved base size
  | .alloc size align maxAddr => ∀ base, Chosen lmb size align maxAddr base →
      TableFull lmb.reserved base (lmbAlignUp size align) ∨
        Takes lmb.reserved base (lmbAlignUp size align) ∧
          Uncovered lmb.reserved base (lmbAlignUp size align)

/-- Calls from `lmb_init` on that do not fail, with the set their ranges build up. -/
inductive Run (cond : Lmb → Call → Prop) (before : Lmb) (memory : LmbRegion) :
    Lmb → (Nat → Prop) → Prop
  | init : Run cond before memory { lmbInit before with memory := memory } fun _ => False
  | step {lmb : Lmb} {s : Nat → Prop} {c : Call} {o : Outcome} (run : Run cond before memory lmb s)
      (asked : Asked s c) (meets : cond lmb c) (returns : perform lmb c = some o)
      (ok : o.ok = true) : Run cond before memory o.lmb (c.update o.range s)

structure Holds (lmb : Lmb) (s : Nat → Prop) : Prop where
  covers : ∀ a, Covered lmb.reserved a ↔ s a
  wellFormed : WellFormed lmb.reserved

lemma uncovered_of_asked (h : ∀ a, InRange base size a → ¬ Covered rgn a) :
    Uncovered rgn base size := by
  intro i hi
  by_contra hmeet
  unfold Apart at hmeet
  simp only at hmeet
  refine h (max base (rgn.region i).base) ?_ ⟨i, hi, ?_⟩
  · unfold InRange
    omega
  · unfold InRange
    omega

lemma holds_add {lmb : Lmb} {s : Nat → Prop} {r : Int} (h : Holds lmb s)
    (takes : Takes lmb.reserved base size) (un : Uncovered lmb.reserved base size)
    (added : Added lmb.reserved base size r rgn) (ok : 0 ≤ r) :
    Holds { lmb with reserved := rgn } fun a => s a ∨ InRange base size a := by
  refine ⟨fun a => ?_, added.wellFormed h.wellFormed takes.low un takes.inside⟩
  rw [added.covers h.wellFormed ok, h.covers]

lemma perform_holds {lmb : Lmb} {s : Nat → Prop} (c : Call) (memory : WellFormed lmb.memory)
    (h : Holds lmb s) (asked : Asked s c) (meets : Meets lmb c) :
    ∃ o, perform lmb c = some o ∧ o.lmb.memory = lmb.memory ∧
      (o.ok = true → Holds o.lmb (c.update o.range s)) := by
  cases c with
  | reserve base size =>
    obtain ⟨r, rgn, hadd, hadded⟩ := lmbAddRegion_added h.wellFormed meets.low meets.fresh
    refine ⟨_, by rw [perform, lmbReserve, hadd]; rfl, rfl, fun hok => ?_⟩
    have hun : Uncovered lmb.reserved base size :=
      uncovered_of_asked fun a ha hcov => asked a ha ((h.covers a).mp hcov)
    exact holds_add h meets hun hadded (of_decide_eq_true hok)
  | free base size =>
    obtain ⟨r, rgn, hfree, hfreed⟩ := freeRegion_freed h.wellFormed meets.1 meets.2
    refine ⟨_, by rw [perform, lmbFree, hfree]; rfl, rfl, fun hok => ?_⟩
    have hcut := hfreed (of_decide_eq_true hok)
    refine ⟨fun a => ?_, hcut.wellFormed⟩
    exact (hcut.covers a).trans (and_congr_left' (h.covers a))
  | alloc size align maxAddr =>
    rcases lmbAllocBase_chosen memory h.wellFormed size align maxAddr with
      ⟨hzero, -⟩ | ⟨b, hb, htake⟩
    · refine ⟨_, by rw [perform, hzero]; rfl, rfl, fun hok => ?_⟩
      exact absurd hok Bool.false_ne_true
    rcases meets b hb with hfull | ⟨htakes, hun⟩
    · refine ⟨_, by rw [perform, htake, takePlace, lmbAddRegion_refuses hfull]; rfl, rfl,
        fun hok => ?_⟩
      exact absurd hok Bool.false_ne_true
    obtain ⟨r, rgn, hadd, hadded⟩ := lmbAddRegion_added h.wellFormed htakes.low htakes.fresh
    by_cases hneg : r < 0
    · refine ⟨_, by rw [perform, htake, takePlace, hadd]; rfl, ?_, fun hok => ?_⟩
      · simp only [if_pos hneg]
      · simp only [if_pos hneg] at hok
        exact absurd hok Bool.false_ne_true
    · refine ⟨_, by rw [perform, htake, takePlace, hadd]; rfl, ?_, fun _ => ?_⟩
      · simp only [if_neg hneg]
      · simp only [if_neg hneg]
        exact holds_add h htakes hun hadded (Int.not_lt.mp hneg)

lemma holds_init (before : Lmb) (memory : LmbRegion) :
    Holds { lmbInit before with memory := memory } fun _ => False := by
  refine ⟨fun a => ⟨?_, False.elim⟩, wellFormed_one ?_⟩
  · rintro ⟨i, hi, ha⟩
    obtain rfl : i = 0 := Nat.lt_one_iff.mp hi
    unfold InRange at ha
    simp only [lmbInit, setRegion_same] at ha
    omega
  · rw [setRegion_same]
    decide

/-- In every run of calls that meet the condition the table follows the set, and every further such
call returns. -/
theorem reserved_follows_calls {before : Lmb} {memory : LmbRegion} (hmemory : WellFormed memory)
    {lmb : Lmb} {s : Nat → Prop} (run : Run Meets before memory lmb s) :
    Holds lmb s ∧ ∀ c, Asked s c → Meets lmb c → ∃ o, perform lmb c = some o := by
  have hholds : lmb.memory = memory ∧ Holds lmb s := by
    induction run with
    | init => exact ⟨rfl, holds_init before memory⟩
    | @step lmb s c o run asked meets returns ok ih =>
      obtain ⟨hmem, hholds⟩ := ih
      obtain ⟨o', hperform, hkeep, hnext⟩ := perform_holds c (hmem ▸ hmemory) hholds asked meets
      rw [returns] at hperform
      cases hperform
      exact ⟨hkeep.trans hmem, hnext ok⟩
  refine ⟨hholds.2, fun c asked meets => ?_⟩
  obtain ⟨o, hperform, -⟩ := perform_holds c (hholds.1 ▸ hmemory) hholds.2 asked meets
  exact ⟨o, hperform⟩

open LmbAlloc

lemma takes_one (one : rgn.cnt = 1) (low : base + size < addrSpace) : Takes rgn base size :=
  ⟨low, fun h => by omega, fun j k hjk hk => by omega⟩

lemma noneWithin_one (one : rgn.cnt = 1) :
    NoneWithin rgn base size := by
  rintro i k ⟨hi, -⟩ hk hki
  omega

/-- A block is reserved, and its lower half freed again. -/
theorem reserved_follows_calls_board :
    ∃ lmb s, (Holds lmb s ∧ ∀ c, Asked s c → Meets lmb c → ∃ o, perform lmb c = some o) ∧
      ¬ s 0x33f3ffff ∧ s 0x33f40000 := by
  have hreserve : Run Meets (boardLmb 0) (boardLmb 0).memory _ _ :=
    .step (c := .reserve 0x33f00000 0x80000) .init (fun _ _ => id) (takes_one rfl (by decide)) rfl
      rfl
  have hfree : Run Meets (boardLmb 0) (boardLmb 0).memory _ _ :=
    .step (c := .free 0x33f00000 0x40000) hreserve trivial ⟨by decide, noneWithin_one rfl⟩ rfl rfl
  refine ⟨_, _, reserved_follows_calls (boardLmb_wellFormed (by decide)).1 hfree, ?_, ?_⟩
  · exact fun h => h.2 ⟨by decide, by decide⟩
  · exact ⟨Or.inr ⟨by decide, by decide⟩, fun h => absurd h.2 (by decide)⟩

/-- A freed block stays in the cell behind the empty table, and the block reserved next is lost
behind it. -/
theorem freed_block_comes_back :
    WellFormed (boardLmb 0).memory ∧
      ∃ lmb s, Run (fun _ _ => True) (boardLmb 0) (boardLmb 0).memory lmb s ∧ ¬ Holds lmb s := by
  refine ⟨(boardLmb_wellFormed (by decide)).1, ?_⟩
  have hreserve : Run (fun _ _ => True) (boardLmb 0) (boardLmb 0).memory _ _ :=
    .step (c := .reserve 0x31000000 0x1000) .init (fun _ _ => id) trivial rfl rfl
  have hfree : Run (fun _ _ => True) (boardLmb 0) (boardLmb 0).memory _ _ :=
    .step (c := .free 0x31000000 0x1000) hreserve trivial trivial rfl rfl
  have hagain : Run (fun _ _ => True) (boardLmb 0) (boardLmb 0).memory _ _ :=
    .step (c := .reserve 0x33000000 0x1000) hfree (fun _ _ h => h.1.elim id h.2) trivial rfl rfl
  refine ⟨_, _, hagain, fun h => ?_⟩
  obtain ⟨i, hi, ha⟩ := (h.covers 0x33000000).mpr (Or.inr ⟨Nat.le_refl _, by decide⟩)
  have hone : i < 1 := hi
  obtain rfl : i = 0 := Nat.lt_one_iff.mp hone
  exact absurd ha.2 (by decide)

end LmbSession
