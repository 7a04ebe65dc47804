import UBoot.Lmb.Table
import UBoot.Lib.Align

/-!
# The place an allocation takes

For a power of two the search ends at the highest aligned place that fits. An
alignment that is no power of two only masks bits out of an address.
-/

namespace LmbSearch

open LogicalMemory LmbTable Align

def PowerOfTwo (align : Nat) : Prop := ∃ k, k < 32 ∧ align = 2 ^ k

variable {align size : Nat}

lemma lmbAlignDown_le (addr size : Nat) : lmbAlignDown addr size ≤ addr := Nat.and_le_left

lemma lmbAlignDown_idem (addr size : Nat) :
    lmbAlignDown (lmbAlignDown addr size) size = lmbAlignDown addr size := and_mask_and_mask _ _

lemma alignMask_pow {k : Nat} (hk : k < 32) : alignMask (2 ^ k) = 2 ^ k - 1 := by
  have hpos : 0 < 2 ^ k := Nat.two_pow_pos k
  have hlt : 2 ^ k < 2 ^ 32 := Nat.pow_lt_pow_right (by omega) hk
  unfold alignMask addrSpace
  omega

lemma lmbAlignDown_pow {k addr : Nat} (hk : k < 32) (haddr : addr < addrSpace) :
    lmbAlignDown addr (2 ^ k) = 2 ^ k * (addr / 2 ^ k) := by
  rw [lmbAlignDown, alignMask_pow hk]
  exact and_mask (le_of_lt hk) haddr

lemma lmbAlignDown_eq_self_iff {k addr : Nat} (hk : k < 32) (haddr : addr < addrSpace) :
    lmbAlignDown addr (2 ^ k) = addr ↔ 2 ^ k ∣ addr := by
  rw [lmbAlignDown_pow hk haddr]
  exact ⟨fun h => h ▸ Nat.dvd_mul_right _ _, Nat.mul_div_cancel'⟩

lemma le_lmbAlignDown {x y : Nat} (power : PowerOfTwo align) (hx : x < addrSpace)
    (aligned : lmbAlignDown y align = y) (hy : y ≤ x) : y ≤ lmbAlignDown x align := by
  obtain ⟨k, hk, rfl⟩ := power
  have hdvd := (lmbAlignDown_eq_self_iff hk (lt_of_le_of_lt hy hx)).mp aligned
  rw [lmbAlignDown_pow hk hx]
  exact le_mul_div hdvd hy

lemma lmbAlignUp_pow {k : Nat} (hk : k < 32) (fits : roundUp (2 ^ k) size < addrSpace) :
    lmbAlignUp size (2 ^ k) = roundUp (2 ^ k) size := by
  have hsum : size + (2 ^ k - 1) < addrSpace := by
    by_contra hge
    have hdvd : 2 ^ k ∣ addrSpace := Nat.pow_dvd_pow 2 (le_of_lt hk)
    have hle : addrSpace ≤ roundUp (2 ^ k) size := le_mul_div hdvd (not_lt.mp hge)
    omega
  rw [lmbAlignUp, alignMask_pow hk, Nat.mod_eq_of_lt hsum, lmbAlignDown_pow hk hsum]
  rfl

variable {rsv : LmbRegion} {base : Nat}

def Clear (rsv : LmbRegion) (base size : Nat) : Prop :=
  ∀ j, j < rsv.cnt → ¬ lmbAddrsOverlap base size (rsv.region j).base (rsv.region j).size

lemma overlapLoop_spec (g : Nat → Property) (base size n i : Nat) :
    match overlapLoop g base size n i with
    | none => ∀ j, i ≤ j → j < i + n → ¬ lmbAddrsOverlap base size (g j).base (g j).size
    | some j => i ≤ j ∧ j < i + n ∧ lmbAddrsOverlap base size (g j).base (g j).size := by
  induction n generalizing i with
  | zero => exact fun j _ _ => by omega
  | succ n ih =>
    rw [overlapLoop]
    by_cases hover : lmbAddrsOverlap base size (g i).base (g i).size
    · rw [if_pos hover]
      exact ⟨Nat.le_refl i, by omega, hover⟩
    rw [if_neg hover]
    have hrest := ih (i + 1)
    cases hfound : overlapLoop g base size n (i + 1) with
    | none =>
      rw [hfound] at hrest
      intro j hij hj
      rcases eq_or_lt_of_le hij with rfl | hlt
      · exact hover
      · exact hrest j hlt (by omega)
    | some j =>
      rw [hfound] at hrest
      exact ⟨by omega, by omega, hrest.2.2⟩

lemma lmbOverlapsRegion_none (h : lmbOverlapsRegion rsv base size = none) :
    Clear rsv base size := by
  have hspec := overlapLoop_spec rsv.region base size rsv.cnt 0
  unfold lmbOverlapsRegion at h
  rw [h] at hspec
  exact fun j hj => hspec j (Nat.zero_le j) (by omega)

lemma lmbOverlapsRegion_some {j : Nat} (h : lmbOverlapsRegion rsv base size = some j) :
    j < rsv.cnt ∧ lmbAddrsOverlap base size (rsv.region j).base (rsv.region j).size := by
  have hspec := overlapLoop_spec rsv.region base size rsv.cnt 0
  unfold lmbOverlapsRegion at h
  rw [h] at hspec
  exact ⟨by omega, hspec.2.2⟩

structure IsPlace (rsv : LmbRegion) (size align lmbbase base : Nat) : Prop where
  nonzero : base ≠ 0
  aligned : lmbAlignDown base align = base
  above : lmbbase ≤ base
  clear : Clear rsv base size

lemma lmbAddrsOverlap_down {resBase resSize : Nat} (align : Nat)
    (clash : lmbAddrsOverlap base size resBase resSize) (room : ¬ resBase < size) :
    lmbAlignDown (resBase - size) align < base := by
  have hle := lmbAlignDown_le (resBase - size) align
  have hmod := Nat.mod_le (base + size) addrSpace
  have hlt := clash.2
  omega

/-- An address at which or below which the search can end when it begins at `top`. If the range
at `top` wraps, nothing below it is tried. -/
def Reached (size top base : Nat) : Prop := base ≤ top ∧ (addrSpace ≤ top + size → base = top)

/-- What the inner loop ends with: a place, and for a power of two nothing higher passed over. -/
structure PlaceFound (rsv : LmbRegion) (size align lmbbase top : Nat) (r : Option Nat) : Prop where
  place : ∀ b, r = some b → IsPlace rsv size align lmbbase b ∧ Reached size top b
  highest : WellFormed rsv → PowerOfTwo align →
    ∀ y, IsPlace rsv size align lmbbase y → Reached size top y → ∃ b, r = some b ∧ y ≤ b

lemma clear_below {j y : Nat} (wf : WellFormed rsv) (low : base + size < addrSpace)
    (hj : j < rsv.cnt) (clash : lmbAddrsOverlap base size (rsv.region j).base (rsv.region j).size)
    (clear : Clear rsv y size) (hy : y ≤ base) : y + size ≤ (rsv.region j).base := by
  have hres := wf.low j hj
  have hclear := clear j hj
  unfold lmbAddrsOverlap at clash hclear
  rw [Nat.mod_eq_of_lt hres, Nat.mod_eq_of_lt low] at clash
  rw [Nat.mod_eq_of_lt hres, Nat.mod_eq_of_lt (by omega)] at hclear
  omega

lemma place_below {lmbbase j y : Nat} (wf : WellFormed rsv) (hj : j < rsv.cnt)
    (clash : lmbAddrsOverlap base size (rsv.region j).base (rsv.region j).size)
    (place : IsPlace rsv size align lmbbase y) (reached : Reached size base y) :
    y + size ≤ (rsv.region j).base := by
  have hlow : base + size < addrSpace := by
    by_contra hwrap
    obtain rfl := reached.2 (not_lt.mp hwrap)
    exact place.clear j hj clash
  exact clear_below wf hlow hj clash place.clear reached.1

lemma findPlace_found (rsv : LmbRegion) (size align lmbbase fuel top : Nat) (enough : top < fuel)
    (width : top < addrSpace) (aligned : lmbAlignDown top align = top) :
    ∃ r, findPlace rsv size align lmbbase fuel top = some r ∧
      PlaceFound rsv size align lmbbase top r := by
  induction fuel generalizing top with
  | zero => omega
  | succ fuel ih =>
    rw [findPlace]
    by_cases hin : top ≠ 0 ∧ lmbbase ≤ top
    · rw [if_pos hin]
      cases hover : lmbOverlapsRegion rsv top size with
      | none =>
        have hplace : IsPlace rsv size align lmbbase top :=
          ⟨hin.1, aligned, hin.2, lmbOverlapsRegion_none hover⟩
        refine ⟨some top, rfl, ?_, fun _ _ y _ hy => ⟨top, rfl, hy.1⟩⟩
        rintro b ⟨⟩
        exact ⟨hplace, Nat.le_refl top, fun _ => rfl⟩
      | some j =>
        obtain ⟨hj, hoverlap⟩ := lmbOverlapsRegion_some hover
        by_cases hroom : (rsv.region j).base < size
        · refine ⟨none, if_pos hroom, (fun b h => nomatch h), ?_⟩
          intro wf _ y hy hle
          have := place_below wf hj hoverlap hy hle
          omega
        have hdown := lmbAddrsOverlap_down align hoverlap hroom
        have hle := lmbAlignDown_le ((rsv.region j).base - size) align
        obtain ⟨r, hr, hfound⟩ := ih (lmbAlignDown ((rsv.region j).base - size) align)
          (by omega) (by omega) (lmbAlignDown_idem _ _)
        refine ⟨r, (if_neg hroom).trans hr, ?_, ?_⟩
        · intro b hb
          obtain ⟨hplace, hreached⟩ := hfound.place b hb
          refine ⟨hplace, le_trans hreached.1 (le_of_lt hdown), ?_⟩
          intro hwrap
          -- a range that wraps ends below `size`, and so begins every entry it overlaps
          have hover2 := hoverlap.2
          rw [Nat.mod_eq_sub_mod hwrap] at hover2
          have hmod := Nat.mod_le (top + size - addrSpace) addrSpace
          omega
        · intro wf power y hy hreached
          have hbelow := place_below wf hj hoverlap hy hreached
          have hres := wf.low j hj
          have hyle : y ≤ lmbAlignDown ((rsv.region j).base - size) align :=
            le_lmbAlignDown power (by omega) hy.aligned (by omega)
          exact hfound.highest wf power y hy ⟨hyle, fun hwrap => by omega⟩
    · rw [if_neg hin]
      refine ⟨none, rfl, (fun b h => nomatch h), ?_⟩
      intro _ _ y hy hreached
      have hnonzero := hy.nonzero
      have habove := hy.above
      have hle := hreached.1
      omega

variable {maxAddr : Nat} {lmb : Lmb}

def Considered (p : Property) (size maxAddr : Nat) : Prop :=
  size ≤ p.size ∧ (maxAddr = 0 ∨ p.base < maxAddr)

def limit (p : Property) (maxAddr : Nat) : Nat :=
  if maxAddr = 0 then p.base + p.size else min (p.base + p.size) maxAddr

/-- Where the search in a region begins. The difference wraps when `maxAddr` is below `size`. -/
def firstTry (p : Property) (size align maxAddr : Nat) : Nat :=
  lmbAlignDown ((limit p maxAddr + addrSpace - size) % addrSpace) align

lemma placeTop_none {p : Property} (h : ¬ Considered p size maxAddr) :
    placeTop p size align maxAddr = none := by
  unfold Considered at h
  unfold placeTop
  split_ifs
  · rfl
  · omega
  · omega
  · rfl

lemma placeTop_some {p : Property} (h : Considered p size maxAddr)
    (low : p.base + p.size < addrSpace) :
    placeTop p size align maxAddr = some (firstTry p size align maxAddr) := by
  obtain ⟨hsize, hbase⟩ := h
  rw [placeTop, if_neg (by omega), firstTry, limit, Nat.mod_eq_of_lt low]
  by_cases hany : maxAddr = 0
  · rw [if_pos hany, if_pos hany]
  · rw [if_neg hany, if_pos (by omega), if_neg hany]

lemma firstTry_lt (p : Property) (size align maxAddr : Nat) :
    firstTry p size align maxAddr < addrSpace :=
  lt_of_le_of_lt (lmbAlignDown_le _ _) (Nat.mod_lt _ (Nat.two_pow_pos 32))

/-- A place in memory region `i` for `size` bytes. -/
structure PlaceIn (lmb : Lmb) (size align maxAddr i base : Nat) : Prop where
  region : i < lmb.memory.cnt
  considered : Considered (lmb.memory.region i) size maxAddr
  isPlace : IsPlace lmb.reserved size align (lmb.memory.region i).base base
  reached : Reached size (firstTry (lmb.memory.region i) size align maxAddr) base

lemma limit_le (p : Property) (maxAddr : Nat) : limit p maxAddr ≤ p.base + p.size := by
  unfold limit
  split_ifs
  · exact le_rfl
  · exact min_le_left _ _

lemma PlaceIn.fits {i : Nat} (h : PlaceIn lmb size align maxAddr i base)
    (memory : WellFormed lmb.memory) (nowrap : maxAddr = 0 ∨ size ≤ maxAddr) :
    base + size ≤ limit (lmb.memory.region i) maxAddr := by
  have hlow := memory.low i h.region
  have hlimit := limit_le (lmb.memory.region i) maxAddr
  have hsize : size ≤ limit (lmb.memory.region i) maxAddr := by
    have := h.considered.1
    unfold limit
    split_ifs <;> omega
  have hdiff : (limit (lmb.memory.region i) maxAddr + addrSpace - size) % addrSpace =
      limit (lmb.memory.region i) maxAddr - size := by
    have hmove : limit (lmb.memory.region i) maxAddr + addrSpace - size =
        limit (lmb.memory.region i) maxAddr - size + addrSpace := by omega
    rw [hmove, Nat.add_mod_right, Nat.mod_eq_of_lt (by omega)]
  have hdown := lmbAlignDown_le (limit (lmb.memory.region i) maxAddr - size) align
  have htop := h.reached.1
  rw [firstTry, hdiff] at htop
  omega

lemma PlaceIn.apart (memory : WellFormed lmb.memory) (reserved : WellFormed lmb.reserved)
    (place : PlaceIn lmb size align maxAddr i base) (nowrap : maxAddr = 0 ∨ size ≤ maxAddr)
    {j : Nat} (hj : j < lmb.reserved.cnt) :
    base + size ≤ (lmb.reserved.region j).base ∨
      (lmb.reserved.region j).base + (lmb.reserved.region j).size ≤ base := by
  have hfits := place.fits memory nowrap
  have hlimit := limit_le (lmb.memory.region i) maxAddr
  have hlow := memory.low i place.region
  have hclear := place.isPlace.clear j hj
  unfold lmbAddrsOverlap at hclear
  rw [Nat.mod_eq_of_lt (reserved.low j hj), Nat.mod_eq_of_lt (by omega)] at hclear
  omega

lemma PlaceIn.region_unique {k : Nat} (memory : WellFormed lmb.memory) (pos : 0 < size)
    (place : PlaceIn lmb size align maxAddr i base) (nowrap : maxAddr = 0 ∨ size ≤ maxAddr)
    (hk : k < lmb.memory.cnt) (above : (lmb.memory.region k).base ≤ base)
    (ends : base + size ≤ (lmb.memory.region k).base + (lmb.memory.region k).size) : k = i := by
  by_contra hne
  have hfits := place.fits memory nowrap
  have hlimit := limit_le (lmb.memory.region i) maxAddr
  have habove := place.isPlace.above
  have happart := memory.apart_ne hk place.region hne
  unfold Apart at happart
  omega

lemma firstTry_wraps {p : Property} (h : Considered p size maxAddr)
    (wraps : ¬ (maxAddr = 0 ∨ size ≤ maxAddr)) :
    firstTry p size align maxAddr = lmbAlignDown ((maxAddr + addrSpace - size) % addrSpace) align := by
  have hsize := h.1
  have hmin : min (p.base + p.size) maxAddr = maxAddr := min_eq_right (by omega)
  rw [firstTry, limit, if_neg (by omega), hmin]

lemma PlaceIn.le_later {i n y b : Nat} (wf : WellFormed lmb.memory) (pos : 0 < size) (hin : i < n)
    (hy : PlaceIn lmb size align maxAddr i y) (hb : PlaceIn lmb size align maxAddr n b)
    (highest : ∀ y, PlaceIn lmb size align maxAddr n y → y ≤ b) : y ≤ b := by
  have habove := hb.isPlace.above
  by_cases hlow : y < (lmb.memory.region n).base
  · omega
  by_cases hwraps : maxAddr = 0 ∨ size ≤ maxAddr
  · have hfits := hy.fits wf hwraps
    have hlimit := limit_le (lmb.memory.region i) maxAddr
    have hapart := wf.apart i n hin hb.region
    have hsorted := wf.sorted i n hin hb.region
    have hn := hb.considered.1
    unfold Apart at hapart
    omega
  · have hreached := hy.reached
    rw [firstTry_wraps hy.considered hwraps, ← firstTry_wraps hb.considered hwraps] at hreached
    exact highest y ⟨hb.region, hb.considered,
      ⟨hy.isPlace.nonzero, hy.isPlace.aligned, not_lt.mp hlow, hy.isPlace.clear⟩, hreached⟩

def Chosen (lmb : Lmb) (size align maxAddr base : Nat) : Prop :=
  (∃ i, PlaceIn lmb size align maxAddr i base) ∧
    (0 < size → PowerOfTwo align → ∀ i b, PlaceIn lmb size align maxAddr i b → b ≤ base)

lemma allocLoop_skip {n : Nat} (h : placeTop (lmb.memory.region n) size align maxAddr = none) :
    allocLoop lmb size align maxAddr (n + 1) = allocLoop lmb size align maxAddr n := by
  simp only [allocLoop, h]

lemma allocLoop_search {n top : Nat} {r : Option Nat}
    (h : placeTop (lmb.memory.region n) size align maxAddr = some top)
    (hr : findPlace lmb.reserved size align (lmb.memory.region n).base (top + 1) top = some r) :
    allocLoop lmb size align maxAddr (n + 1) =
      match r with
      | none => allocLoop lmb size align maxAddr n
      | some base => takePlace lmb size align base := by
  simp only [allocLoop, h, hr]
  cases r with
  | none => rfl
  | some base => rfl

lemma allocLoop_chosen (memory : WellFormed lmb.memory) (reserved : WellFormed lmb.reserved)
    (n : Nat) (hn : n ≤ lmb.memory.cnt)
    (none_above : PowerOfTwo align → ∀ i b, n ≤ i → ¬ PlaceIn lmb size align maxAddr i b) :
    (allocLoop lmb size align maxAddr n = some (0, lmb) ∧
      (PowerOfTwo align → ∀ i b, ¬ PlaceIn lmb size align maxAddr i b)) ∨
    ∃ b, Chosen lmb size align maxAddr b ∧
      allocLoop lmb size align maxAddr n = takePlace lmb size align b := by
  induction n with
  | zero => exact .inl ⟨rfl, fun power i b => none_above power i b (Nat.zero_le i)⟩
  | succ n ih =>
    -- without a place in region `n`, the search goes on below it
    have hnext : (PowerOfTwo align → ∀ b, ¬ PlaceIn lmb size align maxAddr n b) →
        PowerOfTwo align → ∀ i b, n ≤ i → ¬ PlaceIn lmb size align maxAddr i b := by
      intro hnone power i b hi
      rcases eq_or_lt_of_le hi with rfl | hlt
      · exact hnone power b
      · exact none_above power i b hlt
    by_cases hcons : Considered (lmb.memory.region n) size maxAddr
    · obtain ⟨r, hr, hfound⟩ := findPlace_found lmb.reserved size align (lmb.memory.region n).base _
        (firstTry (lmb.memory.region n) size align maxAddr) (Nat.lt_succ_self _)
        (firstTry_lt _ _ _ _) (lmbAlignDown_idem _ _)
      have hbelow : PowerOfTwo align → ∀ y, PlaceIn lmb size align maxAddr n y →
          ∃ b, r = some b ∧ y ≤ b :=
        fun power y hy => hfound.highest reserved power y hy.isPlace hy.reached
      rw [allocLoop_search (placeTop_some hcons (memory.low n hn)) hr]
      cases r with
      | none =>
        refine ih (by omega) (hnext fun power y hy => ?_)
        obtain ⟨b, hb, -⟩ := hbelow power y hy
        exact nomatch hb
      | some b =>
        obtain ⟨hplace, hreached⟩ := hfound.place b rfl
        have hin : PlaceIn lmb size align maxAddr n b := ⟨hn, hcons, hplace, hreached⟩
        refine .inr ⟨b, ⟨⟨n, hin⟩, ?_⟩, rfl⟩
        intro pos power i y hy
        have hhighest : ∀ y, PlaceIn lmb size align maxAddr n y → y ≤ b := by
          intro y hy
          obtain ⟨b', hb', hyb⟩ := hbelow power y hy
          cases hb'
          exact hyb
        rcases lt_trichotomy i n with hlt | rfl | hgt
        · exact hy.le_later memory pos hlt hin hhighest
        · exact hhighest y hy
        · exact absurd hy (none_above power i y hgt)
    · rw [allocLoop_skip (placeTop_none hcons)]
      exact ih (by omega) (hnext fun _ b hb => hcons hb.considered)

lemma lmbAllocBase_chosen (memory : WellFormed lmb.memory) (reserved : WellFormed lmb.reserved)
    (size align maxAddr : Nat) :
    (lmbAllocBase lmb size align maxAddr = some (0, lmb) ∧
      (PowerOfTwo align → ∀ i b, ¬ PlaceIn lmb size align maxAddr i b)) ∨
    ∃ b, Chosen lmb size align maxAddr b ∧
      lmbAllocBase lmb size align maxAddr = takePlace lmb size align b := by
  refine allocLoop_chosen memory reserved _ le_rfl ?_
  intro _ i b hi hb
  have := hb.region
  omega

end LmbSearch
