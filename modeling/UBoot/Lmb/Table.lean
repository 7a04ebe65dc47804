import UBoot.Lmb.Region
import Mathlib.Order.Basic

/-!
# What adding and freeing do to a region table

Entries may be empty. The conditions are those under which the two routines do
what they are for: no sum reaches the top of the address space, no cell behind the
table is taken for an entry, and no empty entry lies in the way.
-/

namespace LmbTable

open LogicalMemory

variable {i : Nat}

def InRange (base size a : Nat) : Prop := base ≤ a ∧ a < base + size

def Covered (rgn : LmbRegion) (a : Nat) : Prop :=
  ∃ i, i < rgn.cnt ∧ InRange (rgn.region i).base (rgn.region i).size a

def Apart (p q : Property) : Prop :=
  p.size = 0 ∨ q.size = 0 ∨ p.base + p.size ≤ q.base ∨ q.base + q.size ≤ p.base

/-- Sorted by base, pairwise disjoint, of allowed length, all below the top. -/
structure WellFormed (rgn : LmbRegion) : Prop where
  cnt_le : rgn.cnt ≤ maxLmbRegions
  low : ∀ i, i < rgn.cnt → (rgn.region i).base + (rgn.region i).size < addrSpace
  sorted : ∀ i j, i < j → j < rgn.cnt → (rgn.region i).base ≤ (rgn.region j).base
  apart : ∀ i j, i < j → j < rgn.cnt → Apart (rgn.region i) (rgn.region j)

lemma wellFormed_one {g : Nat → Property} (low : (g 0).base + (g 0).size < addrSpace) :
    WellFormed ⟨1, g⟩ := by
  have hone : 1 ≤ maxLmbRegions := by decide
  refine ⟨hone, ?_, ?_, ?_⟩
  · intro i hi
    obtain rfl : i = 0 := Nat.lt_one_iff.mp hi
    exact low
  · intro i j hij hj
    have : j < 1 := hj
    omega
  · intro i j hij hj
    have : j < 1 := hj
    omega

def Uncovered (rgn : LmbRegion) (base size : Nat) : Prop :=
  ∀ i, i < rgn.cnt → Apart ⟨base, size⟩ (rgn.region i)

def NoneInside (rgn : LmbRegion) (base size : Nat) : Prop :=
  ∀ j k, j < k → k < rgn.cnt → (rgn.region j).size = 0 → (rgn.region k).base = base + size →
    ¬ (base < (rgn.region j).base ∧ (rgn.region j).base < base + size)

/-- If the table is empty, the cells behind it do not mislead: the first is no neighbour of the
second, and lies above the range or still holds it. -/
def FreshStart (rgn : LmbRegion) (base size : Nat) : Prop :=
  rgn.cnt = 0 → lmbRegionsAdjacent rgn 0 1 = 0 ∧
    (base < (rgn.region 0).base ∨ rgn.region 0 = ⟨base, size⟩)

def TableFull (rgn : LmbRegion) (base size : Nat) : Prop :=
  maxLmbRegions ≤ rgn.cnt ∧ ∀ j, j < rgn.cnt → rgn.region j ≠ ⟨base, size⟩ ∧
    lmbAddrsAdjacent base size (rgn.region j).base (rgn.region j).size = 0

@[simp] theorem setRegion_same (g : Nat → Property) (i : Nat) (p : Property) :
    setRegion g i p i = p := if_pos rfl

lemma setRegion_other (g : Nat → Property) {k : Nat} (p : Property) (h : k ≠ i) :
    setRegion g i p k = g k := if_neg h

/-! ## The loops -/

lemma removeLoop_eq (n i : Nat) (g : Nat → Property) (k : Nat) :
    removeLoop n i g k = if i ≤ k ∧ k < i + n then g (k + 1) else g k := by
  induction n generalizing i g with
  | zero =>
    rw [removeLoop, if_neg]
    omega
  | succ n ih =>
    rw [removeLoop, ih]
    by_cases hk : k = i
    · subst hk
      rw [if_neg (by omega), if_pos (by omega), setRegion_same]
    rw [setRegion_other _ _ hk]
    by_cases hin : i + 1 ≤ k ∧ k < i + 1 + n
    · rw [if_pos hin, if_pos (by omega), setRegion_other _ _ (by omega)]
    · rw [if_neg hin, if_neg (by omega)]

lemma lmbRemoveRegion_eq (rgn : LmbRegion) {r : Nat} (h : r < rgn.cnt) :
    ∃ out, lmbRemoveRegion rgn r = some out ∧ out.cnt = rgn.cnt - 1 ∧
      ∀ k, k < out.cnt → out.region k = rgn.region (if k < r then k else k + 1) := by
  refine ⟨_, if_neg (by omega), rfl, ?_⟩
  intro k hk
  simp only at hk ⊢
  rw [removeLoop_eq]
  by_cases hkr : k < r
  · rw [if_neg (by omega), if_pos hkr]
  · rw [if_pos (by omega), if_neg hkr]

lemma insertLoop_eq (base size n : Nat) (g : Nat → Property) :
    ∃ p, p ≤ n ∧ (0 < p → (g (p - 1)).base ≤ base) ∧
      (∀ k, p ≤ k → k < n → base < (g k).base) ∧
      ∀ k, insertLoop base size n g k =
        if p < k ∧ k ≤ n then g (k - 1) else if k = p ∧ 0 < p then ⟨base, size⟩ else g k := by
  induction n generalizing g with
  | zero =>
    refine ⟨0, le_rfl, fun h => absurd h (lt_irrefl _), fun _ _ h => by omega, ?_⟩
    intro k
    rw [insertLoop, if_neg (by omega), if_neg (by omega)]
  | succ n ih =>
    by_cases hlt : base < (g n).base
    · obtain ⟨p, hp, hbelow, habove, heq⟩ := ih (setRegion g (n + 1) (g n))
      refine ⟨p, by omega, ?_, ?_, ?_⟩
      · intro hpos
        have h := hbelow hpos
        rwa [setRegion_other _ _ (by omega)] at h
      · intro k hpk hk
        by_cases hkn : k = n
        · exact hkn ▸ hlt
        · have h := habove k hpk (by omega)
          rwa [setRegion_other _ _ (by omega)] at h
      · intro k
        rw [insertLoop, if_pos hlt, heq]
        by_cases hk : k = n + 1
        · subst hk
          rw [if_neg (by omega), if_neg (by omega), setRegion_same, if_pos (by omega),
            Nat.add_sub_cancel]
        · rw [setRegion_other _ _ hk]
          by_cases hin : p < k ∧ k ≤ n
          · rw [if_pos hin, if_pos (by omega), setRegion_other _ _ (by omega)]
          · rw [if_neg hin, if_neg (by omega : ¬ (p < k ∧ k ≤ n + 1))]
    · refine ⟨n + 1, le_rfl, fun _ => not_lt.mp hlt, fun k _ _ => by omega, ?_⟩
      intro k
      rw [insertLoop, if_neg hlt, if_neg (by omega)]
      by_cases hk : k = n + 1
      · rw [if_pos ⟨hk, Nat.succ_pos n⟩, hk, setRegion_same]
      · rw [if_neg (by omega), setRegion_other _ _ hk]

/-! ## Adding a range -/

variable {rgn : LmbRegion} {base size : Nat} {q p : Property}

def Far (q : Property) (base size : Nat) : Prop :=
  ¬ (q.base = base ∧ q.size = size) ∧ q.base ≠ base + size ∧ base ≠ q.base + q.size

/-- An entry `q` that grew by the range next to it. -/
structure Grown (q : Property) (base size : Nat) (p : Property) : Prop where
  sum : p.size = q.size + size
  side : q.base = base + size ∧ p.base = base ∨ base = q.base + q.size ∧ p.base = q.base

def Touches (p q : Property) : Prop := q.base = p.base + p.size ∨ p.base = q.base + q.size

def Found (rgn : LmbRegion) (base size : Nat) : Neighbour → Prop
  | .same => ∃ i, i < rgn.cnt ∧ rgn.region i = ⟨base, size⟩
  | .before i => i < rgn.cnt ∧ (rgn.region i).base = base + size ∧
      ∀ j, j < i → Far (rgn.region j) base size
  | .after i => i < rgn.cnt ∧ base = (rgn.region i).base + (rgn.region i).size ∧
      ∀ j, j < i → Far (rgn.region j) base size
  | .none => ∀ j, j < rgn.cnt → Far (rgn.region j) base size

lemma lmbAddrsAdjacent_low {base1 size1 base2 size2 : Nat} (h1 : base1 + size1 < addrSpace)
    (h2 : base2 + size2 < addrSpace) :
    lmbAddrsAdjacent base1 size1 base2 size2 =
      if base2 = base1 + size1 then 1 else if base1 = base2 + size2 then -1 else 0 := by
  rw [lmbAddrsAdjacent, Nat.mod_eq_of_lt h1, Nat.mod_eq_of_lt h2]

lemma findNeighbour_found (wf : WellFormed rgn) (low : base + size < addrSpace) (n i : Nat)
    (hn : i + n = rgn.cnt) (far : ∀ j, j < i → Far (rgn.region j) base size) :
    Found rgn base size (findNeighbour rgn.region base size n i) := by
  induction n generalizing i with
  | zero => exact fun j hj => far j (by omega)
  | succ n ih =>
    have hi : i < rgn.cnt := by omega
    rw [findNeighbour, lmbAddrsAdjacent_low low (wf.low i hi)]
    by_cases hsame : (rgn.region i).base = base ∧ (rgn.region i).size = size
    · rw [if_pos hsame]
      refine ⟨i, hi, ?_⟩
      rw [← hsame.1, ← hsame.2]
    rw [if_neg hsame]
    by_cases hbefore : (rgn.region i).base = base + size
    · simp only [if_pos hbefore]
      exact ⟨hi, hbefore, far⟩
    by_cases hafter : base = (rgn.region i).base + (rgn.region i).size
    · simp only [if_neg hbefore, if_pos hafter]
      exact ⟨hi, hafter, far⟩
    simp only [if_neg hbefore, if_neg hafter]
    refine ih (i + 1) (by omega) (fun j hj => ?_)
    rcases Nat.lt_succ_iff_lt_or_eq.mp hj with hlt | rfl
    · exact far j hlt
    · exact ⟨hsame, hbefore, hafter⟩

inductive Added (rgn : LmbRegion) (base size : Nat) : Int → LmbRegion → Prop
  | first {out : LmbRegion} (one : rgn.cnt = 1) (empty : (rgn.region 0).size = 0)
      (cnt : out.cnt = 1) (region : out.region 0 = ⟨base, size⟩) : Added rgn base size 0 out
  | same {i : Nat} (hi : i < rgn.cnt) (region : rgn.region i = ⟨base, size⟩) :
      Added rgn base size 0 rgn
  | grown {out : LmbRegion} {i : Nat} (hi : i < rgn.cnt)
      (far : ∀ j, j < i → Far (rgn.region j) base size)
      (grows : Grown (rgn.region i) base size (out.region i)) (cnt : out.cnt = rgn.cnt)
      (region : ∀ k, k < rgn.cnt → k ≠ i → out.region k = rgn.region k) : Added rgn base size 1 out
  | merged {out : LmbRegion} {i : Nat} {p : Property} (hi : i + 1 < rgn.cnt)
      (far : ∀ j, j < i → Far (rgn.region j) base size)
      (grows : Grown (rgn.region i) base size p)
      (touches : Touches p (rgn.region (i + 1)))
      (cnt : out.cnt = rgn.cnt - 1)
      (here : out.region i = ⟨p.base, p.size + (rgn.region (i + 1)).size⟩)
      (below : ∀ k, k < i → out.region k = rgn.region k)
      (above : ∀ k, i < k → k < out.cnt → out.region k = rgn.region (k + 1)) :
      Added rgn base size 2 out
  | refused (full : maxLmbRegions ≤ rgn.cnt)
      (far : ∀ j, j < rgn.cnt → Far (rgn.region j) base size) : Added rgn base size (-1) rgn
  | inserted {out : LmbRegion} {p : Nat} (room : rgn.cnt < maxLmbRegions) (hp : p ≤ rgn.cnt)
      (far : ∀ j, j < rgn.cnt → Far (rgn.region j) base size)
      (low : ∀ k, k < p → (rgn.region k).base ≤ base)
      (high : ∀ k, p ≤ k → k < rgn.cnt → base < (rgn.region k).base)
      (cnt : out.cnt = rgn.cnt + 1) (here : out.region p = ⟨base, size⟩)
      (below : ∀ k, k < p → out.region k = rgn.region k)
      (above : ∀ k, p < k → k < out.cnt → out.region k = rgn.region (k - 1)) :
      Added rgn base size 0 out

lemma Grown.low (h : Grown q base size p) (hq : q.base + q.size < addrSpace)
    (low : base + size < addrSpace) :
    p.base + p.size < addrSpace ∧ p.base ≤ q.base := by
  have hsum := h.sum
  rcases h.side with ⟨hnext, hbase⟩ | ⟨hnext, hbase⟩
  · omega
  · omega

lemma coalesceNext_added (wf : WellFormed rgn) (hi : i < rgn.cnt)
    (far : ∀ j, j < i → Far (rgn.region j) base size) (grows : Grown (rgn.region i) base size p)
    (low : base + size < addrSpace) :
    ∃ r out, coalesceNext { rgn with region := setRegion rgn.region i p } i = some (r, out) ∧
      Added rgn base size r out := by
  obtain ⟨hp, hpq⟩ := grows.low (wf.low i hi) low
  unfold coalesceNext
  by_cases hnext : i < rgn.cnt - 1
  · have hq := wf.low (i + 1) (by omega)
    have hother : setRegion rgn.region i p (i + 1) = rgn.region (i + 1) :=
      setRegion_other _ _ (Nat.succ_ne_self i)
    have hadj : lmbRegionsAdjacent { rgn with region := setRegion rgn.region i p } i (i + 1) =
        if (rgn.region (i + 1)).base = p.base + p.size then 1
        else if p.base = (rgn.region (i + 1)).base + (rgn.region (i + 1)).size then -1 else 0 := by
      simp only [lmbRegionsAdjacent, setRegion_same, hother]
      exact lmbAddrsAdjacent_low hp hq
    by_cases htouch : Touches p (rgn.region (i + 1))
    · have hne : lmbRegionsAdjacent { rgn with region := setRegion rgn.region i p } i (i + 1) ≠
          0 := by
        rw [hadj]
        split_ifs with h1 h2
        · decide
        · decide
        · exact absurd htouch (by rintro (h | h) <;> contradiction)
      have hsize : (p.size + (rgn.region (i + 1)).size) % addrSpace =
          p.size + (rgn.region (i + 1)).size := by
        apply Nat.mod_eq_of_lt
        rcases htouch with h | h
        · omega
        · omega
      have hnext' : i + 1 < rgn.cnt := by omega
      obtain ⟨out, hout, hcnt, hregion⟩ := lmbRemoveRegion_eq
        ⟨rgn.cnt, setRegion (setRegion rgn.region i p) i
          ⟨p.base, p.size + (rgn.region (i + 1)).size⟩⟩ hnext'
      dsimp only at hcnt hregion
      refine ⟨2, out, ?_, .merged (by omega) far grows htouch hcnt ?_ ?_ ?_⟩
      · rw [if_pos ⟨hnext, hne⟩]
        simp only [lmbCoalesceRegions, setRegion_same, hother, hsize, hout, Option.map_some]
      · rw [hregion i (by omega), if_pos (Nat.lt_succ_self i), setRegion_same]
      · intro k hk
        have hki : k ≠ i := by omega
        rw [hregion k (by omega), if_pos (by omega), setRegion_other _ _ hki,
          setRegion_other _ _ hki]
      · intro k hk hkout
        have hki : k + 1 ≠ i := by omega
        rw [hregion k hkout, if_neg (by omega), setRegion_other _ _ hki, setRegion_other _ _ hki]
    · have heq : lmbRegionsAdjacent { rgn with region := setRegion rgn.region i p } i (i + 1) =
          0 := by
        rw [hadj, if_neg (fun h => htouch (.inl h)), if_neg (fun h => htouch (.inr h))]
      rw [if_neg (fun h => h.2 heq)]
      refine ⟨1, _, rfl, .grown hi far ?_ rfl ?_⟩
      · simpa using grows
      · exact fun k _ hk => setRegion_other _ _ hk
  · rw [if_neg (fun h => hnext h.1)]
    refine ⟨1, _, rfl, .grown hi far ?_ rfl ?_⟩
    · simpa using grows
    · exact fun k _ hk => setRegion_other _ _ hk

lemma insertRegion_added (wf : WellFormed rgn) (fresh : FreshStart rgn base size)
    (far : ∀ j, j < rgn.cnt → Far (rgn.region j) base size) :
    ∃ r out, insertRegion rgn base size = some (r, out) ∧ Added rgn base size r out := by
  have hstale : ¬ (rgn.cnt = 0 ∧ lmbRegionsAdjacent rgn 0 1 ≠ 0) :=
    fun h => h.2 (fresh h.1).1
  rw [insertRegion, if_neg hstale]
  by_cases hfull : maxLmbRegions ≤ rgn.cnt
  · rw [if_pos hfull]
    exact ⟨-1, rgn, rfl, .refused hfull far⟩
  rw [if_neg hfull]
  obtain ⟨p, hp, hbelow, habove, heq⟩ := insertLoop_eq base size rgn.cnt rgn.region
  have hlow : ∀ k, k < p → (rgn.region k).base ≤ base := by
    intro k hk
    by_cases hlast : k = p - 1
    · exact hlast ▸ hbelow (by omega)
    · exact le_trans (wf.sorted k (p - 1) (by omega) (by omega)) (hbelow (by omega))
  have hzero : insertLoop base size rgn.cnt rgn.region 0 = rgn.region 0 := by
    rw [heq, if_neg (by omega), if_neg (by omega)]
  dsimp only
  rw [hzero]
  refine ⟨0, _, rfl, .inserted (not_le.mp hfull) hp far hlow habove rfl ?_ ?_ ?_⟩
  · dsimp only
    by_cases hfirst : base < (rgn.region 0).base
    · have hp0 : p = 0 := by
        by_contra hne
        have := hlow 0 (by omega)
        omega
      rw [if_pos hfirst, hp0, setRegion_same]
    · rw [if_neg hfirst, heq, if_neg (by omega)]
      rcases Nat.eq_zero_or_pos p with rfl | hpos
      · rw [if_neg (by omega)]
        by_cases hcnt : rgn.cnt = 0
        · exact ((fresh hcnt).2).resolve_left hfirst
        · exact absurd (habove 0 (Nat.le_refl 0) (by omega)) hfirst
      · rw [if_pos ⟨rfl, hpos⟩]
  · intro k hk
    have hnot : ¬ base < (rgn.region 0).base := not_lt.mpr (hlow 0 (by omega))
    dsimp only
    rw [if_neg hnot, heq, if_neg (by omega), if_neg (by omega)]
  · intro k hk hkout
    dsimp only at hkout ⊢
    have hkeep : insertLoop base size rgn.cnt rgn.region k = rgn.region (k - 1) := by
      rw [heq, if_pos (by omega)]
    split_ifs
    · rw [setRegion_other _ _ (by omega), hkeep]
    · exact hkeep

lemma lmbAddRegion_added (wf : WellFormed rgn) (low : base + size < addrSpace)
    (fresh : FreshStart rgn base size) :
    ∃ r out, lmbAddRegion rgn base size = some (r, out) ∧ Added rgn base size r out := by
  unfold lmbAddRegion
  by_cases hfirst : rgn.cnt = 1 ∧ (rgn.region 0).size = 0
  · rw [if_pos hfirst]
    exact ⟨0, _, rfl, .first hfirst.1 hfirst.2 hfirst.1 (setRegion_same rgn.region 0 _)⟩
  rw [if_neg hfirst]
  have hfound := findNeighbour_found wf low rgn.cnt 0 (zero_add _) (fun j hj => by omega)
  cases hneighbour : findNeighbour rgn.region base size rgn.cnt 0 with
  | same =>
    rw [hneighbour] at hfound
    obtain ⟨i, hi, hregion⟩ := hfound
    exact ⟨0, rgn, rfl, .same hi hregion⟩
  | before i =>
    rw [hneighbour] at hfound
    obtain ⟨hi, hbefore, far⟩ := hfound
    have hq := wf.low i hi
    have hbase : ((rgn.region i).base + addrSpace - size) % addrSpace = base := by
      rw [hbefore, show base + size + addrSpace - size = base + addrSpace by omega,
        Nat.add_mod_right, Nat.mod_eq_of_lt (by omega)]
    have hsize : ((rgn.region i).size + size) % addrSpace = (rgn.region i).size + size :=
      Nat.mod_eq_of_lt (by omega)
    simp only [hbase, hsize]
    exact coalesceNext_added wf hi far ⟨rfl, .inl ⟨hbefore, rfl⟩⟩ low
  | after i =>
    rw [hneighbour] at hfound
    obtain ⟨hi, hafter, far⟩ := hfound
    have hsize : ((rgn.region i).size + size) % addrSpace = (rgn.region i).size + size :=
      Nat.mod_eq_of_lt (by omega)
    simp only [hsize]
    exact coalesceNext_added wf hi far ⟨rfl, .inr ⟨hafter, rfl⟩⟩ low
  | none =>
    rw [hneighbour] at hfound
    exact insertRegion_added wf fresh hfound

/-! ## Refusing a range -/

variable {r : Int} {out : LmbRegion}

lemma findNeighbour_none_iff (g : Nat → Property) (base size n i : Nat) :
    findNeighbour g base size n i = .none ↔ ∀ j, i ≤ j → j < i + n →
      g j ≠ ⟨base, size⟩ ∧ lmbAddrsAdjacent base size (g j).base (g j).size = 0 := by
  induction n generalizing i with
  | zero => exact ⟨fun _ j _ _ => by omega, fun _ => rfl⟩
  | succ n ih =>
    rw [findNeighbour]
    by_cases hsame : (g i).base = base ∧ (g i).size = size
    · rw [if_pos hsame]
      refine ⟨(fun h => nomatch h), fun h => absurd ?_ (h i (Nat.le_refl i) (by omega)).1⟩
      rw [← hsame.1, ← hsame.2]
    rw [if_neg hsame]
    by_cases habove : lmbAddrsAdjacent base size (g i).base (g i).size > 0
    · rw [if_pos habove]
      refine ⟨(fun h => nomatch h), fun h => ?_⟩
      have := (h i (Nat.le_refl i) (by omega)).2
      omega
    by_cases hbelow : lmbAddrsAdjacent base size (g i).base (g i).size < 0
    · rw [if_neg habove, if_pos hbelow]
      refine ⟨(fun h => nomatch h), fun h => ?_⟩
      have := (h i (Nat.le_refl i) (by omega)).2
      omega
    rw [if_neg habove, if_neg hbelow, ih]
    constructor
    · intro h j hij hj
      rcases eq_or_lt_of_le hij with rfl | hlt
      · refine ⟨fun heq => hsame ?_, by omega⟩
        rw [heq]
        exact ⟨rfl, rfl⟩
      · exact h j hlt (by omega)
    · exact fun h j hij hj => h j (by omega) (by omega)

lemma coalesceNext_nonneg (h : coalesceNext rgn i = some (r, out)) : 0 ≤ r := by
  unfold coalesceNext at h
  split_ifs at h
  · obtain ⟨rgn', -, heq⟩ := Option.map_eq_some_iff.mp h
    cases heq
    decide
  · cases h
    decide

lemma lmbAddRegion_refuses (full : TableFull rgn base size) :
    lmbAddRegion rgn base size = some (-1, rgn) := by
  have hcnt : 8 ≤ rgn.cnt := full.1
  have hnone := (findNeighbour_none_iff rgn.region base size rgn.cnt 0).mpr
    fun j _ hj => full.2 j (by omega)
  rw [lmbAddRegion, if_neg (by omega), hnone]
  rw [insertRegion, if_neg (by omega), if_pos full.1]

lemma tableFull_of_neg (h : lmbAddRegion rgn base size = some (r, out)) (neg : r < 0) :
    TableFull rgn base size := by
  unfold lmbAddRegion at h
  split_ifs at h
  · cases h
    exact absurd neg (by decide)
  cases hfound : findNeighbour rgn.region base size rgn.cnt 0 with
  | same =>
    rw [hfound] at h
    cases h
    exact absurd neg (by decide)
  | before i =>
    rw [hfound] at h
    have := coalesceNext_nonneg h
    omega
  | after i =>
    rw [hfound] at h
    have := coalesceNext_nonneg h
    omega
  | none =>
    rw [hfound] at h
    have hfar := (findNeighbour_none_iff rgn.region base size rgn.cnt 0).mp hfound
    unfold insertRegion at h
    split_ifs at h with hstale hfull
    · obtain ⟨rgn', -, heq⟩ := Option.map_eq_some_iff.mp h
      cases heq
      exact absurd neg (by decide)
    · exact ⟨hfull, fun j hj => hfar j (Nat.zero_le j) (by omega)⟩
    · cases h
      exact absurd neg (by decide)

lemma inRange_ext {b s : Nat} (pos : 0 < size) (h : ∀ a, InRange b s a ↔ InRange base size a) :
    b = base ∧ s = size := by
  have hfirst : InRange b s base := (h base).mpr ⟨le_rfl, by omega⟩
  have hlast : InRange b s (base + size - 1) := (h _).mpr ⟨by omega, by omega⟩
  unfold InRange at hfirst hlast h
  have hfirst' := (h b).mp ⟨le_rfl, by omega⟩
  have hlast' := (h (b + s - 1)).mp ⟨by omega, by omega⟩
  omega

lemma freshStart_of_added (pos : 0 < size) (h : lmbAddRegion rgn base size = some (r, out))
    (covers : ∀ a, Covered out a ↔ Covered rgn a ∨ InRange base size a) :
    FreshStart rgn base size := by
  intro hempty
  have hnone : findNeighbour rgn.region base size rgn.cnt 0 = .none := by
    rw [hempty]
    rfl
  rw [lmbAddRegion, if_neg (by omega), hnone] at h
  by_cases hstale : lmbRegionsAdjacent rgn 0 1 = 0
  · refine ⟨hstale, ?_⟩
    have hroom : ¬ maxLmbRegions ≤ rgn.cnt := by
      rw [hempty]
      decide
    rw [insertRegion, if_neg (fun hand => hand.2 hstale), if_neg hroom] at h
    by_cases hbase : base < (rgn.region 0).base
    · exact .inl hbase
    right
    have hout : out = ⟨1, rgn.region⟩ := by
      rw [hempty] at h
      dsimp only [insertLoop] at h
      rw [if_neg hbase] at h
      cases h
      rfl
    have hcover : ∀ a, InRange (rgn.region 0).base (rgn.region 0).size a ↔ InRange base size a := by
      intro a
      have ha := covers a
      subst hout
      constructor
      · intro hin
        rcases ha.mp ⟨0, Nat.one_pos, hin⟩ with ⟨k, hk, -⟩ | hin
        · omega
        · exact hin
      · intro hin
        obtain ⟨k, hk, hin⟩ := ha.mpr (.inr hin)
        obtain rfl : k = 0 := Nat.lt_one_iff.mp hk
        exact hin
    obtain ⟨hb, hs⟩ := inRange_ext pos hcover
    rw [← hb, ← hs]
  · rw [insertRegion, if_pos ⟨hempty, hstale⟩, lmbCoalesceRegions, lmbRemoveRegion,
      if_pos hempty] at h
    exact nomatch h

/-! ## What the table covers afterwards -/

lemma Grown.covers (h : Grown q base size p) (a : Nat) :
    InRange p.base p.size a ↔ InRange q.base q.size a ∨ InRange base size a := by
  have hsum := h.sum
  unfold InRange
  rcases h.side with ⟨hnext, hbase⟩ | ⟨hnext, hbase⟩
  · omega
  · omega

lemma Touches.covers (h : Touches p q) (order : p.base ≤ q.base) (a : Nat) :
    InRange p.base (p.size + q.size) a ↔ InRange p.base p.size a ∨ InRange q.base q.size a := by
  unfold InRange
  rcases h with h | h
  · omega
  · omega

lemma Added.covers (wf : WellFormed rgn) (h : Added rgn base size r out) (done : 0 ≤ r) (a : Nat)
    :
    Covered out a ↔ Covered rgn a ∨ InRange base size a := by
  cases h with
  | first one empty cnt region =>
    constructor
    · rintro ⟨k, hk, ha⟩
      obtain rfl : k = 0 := by omega
      rw [region] at ha
      exact .inr ha
    · rintro (⟨k, hk, ha⟩ | ha)
      · obtain rfl : k = 0 := by omega
        rw [empty] at ha
        exact absurd ha (by unfold InRange; omega)
      · exact ⟨0, by omega, by rw [region]; exact ha⟩
  | same hi region =>
    refine ⟨Or.inl, ?_⟩
    rintro (h | ha)
    · exact h
    · exact ⟨_, hi, by rw [region]; exact ha⟩
  | @grown _ i hi far grows cnt region =>
    constructor
    · rintro ⟨k, hk, ha⟩
      by_cases hki : k = i
      · subst hki
        rcases (grows.covers a).mp ha with hq | hnew
        · exact .inl ⟨k, hi, hq⟩
        · exact .inr hnew
      · rw [region k (by omega) hki] at ha
        exact .inl ⟨k, by omega, ha⟩
    · rintro (⟨k, hk, ha⟩ | ha)
      · by_cases hki : k = i
        · subst hki
          exact ⟨k, by omega, (grows.covers a).mpr (.inl ha)⟩
        · exact ⟨k, by omega, by rw [region k hk hki]; exact ha⟩
      · exact ⟨i, by omega, (grows.covers a).mpr (.inr ha)⟩
  | @merged _ i p hi far grows touches cnt here below above =>
    have horder : p.base ≤ (rgn.region (i + 1)).base := by
      have hsorted := wf.sorted i (i + 1) (Nat.lt_succ_self i) hi
      rcases grows.side with ⟨hnext, hbase⟩ | ⟨hnext, hbase⟩
      · omega
      · omega
    have hhere : ∀ b, InRange (out.region i).base (out.region i).size b ↔
        (InRange (rgn.region i).base (rgn.region i).size b ∨ InRange base size b) ∨
          InRange (rgn.region (i + 1)).base (rgn.region (i + 1)).size b := by
      intro b
      rw [here, touches.covers horder, grows.covers]
    constructor
    · rintro ⟨k, hk, ha⟩
      rcases lt_trichotomy k i with hki | rfl | hki
      · rw [below k hki] at ha
        exact .inl ⟨k, by omega, ha⟩
      · rcases (hhere a).mp ha with (hq | hnew) | hnext
        · exact .inl ⟨k, by omega, hq⟩
        · exact .inr hnew
        · exact .inl ⟨k + 1, hi, hnext⟩
      · rw [above k hki hk] at ha
        exact .inl ⟨k + 1, by omega, ha⟩
    · rintro (⟨k, hk, ha⟩ | ha)
      · rcases lt_trichotomy k i with hki | rfl | hki
        · exact ⟨k, by omega, by rw [below k hki]; exact ha⟩
        · exact ⟨k, by omega, (hhere a).mpr (.inl (.inl ha))⟩
        · by_cases hnext : k = i + 1
          · subst hnext
            exact ⟨i, by omega, (hhere a).mpr (.inr ha)⟩
          have hpred : k - 1 + 1 = k := by omega
          refine ⟨k - 1, by omega, ?_⟩
          rw [above (k - 1) (by omega) (by omega), hpred]
          exact ha
      · exact ⟨i, by omega, (hhere a).mpr (.inl (.inr ha))⟩
  | refused full far => exact absurd done (by decide)
  | @inserted _ p room hp far low high cnt here below above =>
    constructor
    · rintro ⟨k, hk, ha⟩
      rcases lt_trichotomy k p with hkp | rfl | hkp
      · rw [below k hkp] at ha
        exact .inl ⟨k, by omega, ha⟩
      · rw [here] at ha
        exact .inr ha
      · rw [above k hkp hk] at ha
        exact .inl ⟨k - 1, by omega, ha⟩
    · rintro (⟨k, hk, ha⟩ | ha)
      · by_cases hkp : k < p
        · exact ⟨k, by omega, by rw [below k hkp]; exact ha⟩
        · refine ⟨k + 1, by omega, ?_⟩
          rw [above (k + 1) (by omega) (by omega), Nat.add_sub_cancel]
          exact ha
      · exact ⟨p, by omega, by rw [here]; exact ha⟩

lemma Apart.symm (h : Apart p q) : Apart q p := by
  unfold Apart at h ⊢
  omega

lemma WellFormed.apart_ne (wf : WellFormed rgn) {j : Nat} (hi : i < rgn.cnt) (hj : j < rgn.cnt)
    (hne : i ≠ j) : Apart (rgn.region i) (rgn.region j) := by
  rcases Nat.lt_or_gt_of_ne hne with hlt | hlt
  · exact wf.apart i j hlt hj
  · exact (wf.apart j i hlt hi).symm

lemma Grown.apart {e : Property} (h : Grown q base size p) (hq : Apart q e)
    (hnew : Apart ⟨base, size⟩ e) : Apart p e := by
  have hsum := h.sum
  unfold Apart at hq hnew ⊢
  simp only at hnew
  rcases h.side with ⟨hnext, hbase⟩ | ⟨hnext, hbase⟩
  · omega
  · omega

lemma Grown.above {j : Nat} (wf : WellFormed rgn) (un : Uncovered rgn base size)
    (inside : NoneInside rgn base size) (h : Grown (rgn.region i) base size p) (hi : i < rgn.cnt)
    (hji : j < i) (far : Far (rgn.region j) base size) : (rgn.region j).base ≤ p.base := by
  have hsorted := wf.sorted j i hji hi
  have hapart := un j (by omega)
  have hinside := inside j i hji hi
  obtain ⟨-, hbefore, hafter⟩ := far
  unfold Apart at hapart
  simp only at hapart
  rcases h.side with ⟨hnext, hbase⟩ | ⟨hnext, hbase⟩
  · by_cases hempty : (rgn.region j).size = 0
    · have := hinside hempty hnext
      omega
    · omega
  · omega

lemma Touches.apart {e : Property} (h : Touches p q) (order : p.base ≤ q.base) (hp : Apart p e)
    (hq : Apart q e) : Apart ⟨p.base, p.size + q.size⟩ e := by
  unfold Apart at hp hq ⊢
  simp only
  rcases h with h | h
  · omega
  · omega

/-- A table with the entry `q` at place `p`; the others are those of another table, in their order. -/
structure Placed (rgn out : LmbRegion) (p : Nat) (q : Property) (f : Nat → Nat) : Prop where
  here : out.region p = q
  others : ∀ k, k < out.cnt → k ≠ p → f k < rgn.cnt ∧ out.region k = rgn.region (f k)
  order : ∀ j k, j < k → k < out.cnt → j ≠ p → k ≠ p → f j < f k

lemma Placed.wellFormed {p : Nat} {f : Nat → Nat} (placed : Placed rgn out p q f)
    (wf : WellFormed rgn) (cnt_le : out.cnt ≤ maxLmbRegions) (low : q.base + q.size < addrSpace)
    (below : ∀ k, k < p → p < out.cnt → (rgn.region (f k)).base ≤ q.base)
    (above : ∀ k, p < k → k < out.cnt → q.base ≤ (rgn.region (f k)).base)
    (apart : ∀ k, k < out.cnt → k ≠ p → Apart q (rgn.region (f k))) : WellFormed out := by
  refine ⟨cnt_le, ?_, ?_, ?_⟩
  · intro k hk
    by_cases hkp : k = p
    · rw [hkp, placed.here]
      exact low
    · obtain ⟨hfk, hregion⟩ := placed.others k hk hkp
      rw [hregion]
      exact wf.low (f k) hfk
  · intro j k hjk hk
    by_cases hkp : k = p
    · subst hkp
      rw [placed.here, (placed.others j (by omega) (by omega)).2]
      exact below j hjk hk
    obtain ⟨hfk, hregion⟩ := placed.others k hk hkp
    rw [hregion]
    by_cases hjp : j = p
    · subst hjp
      rw [placed.here]
      exact above k hjk hk
    · rw [(placed.others j (by omega) hjp).2]
      exact wf.sorted (f j) (f k) (placed.order j k hjk hk hjp hkp) hfk
  · intro j k hjk hk
    by_cases hkp : k = p
    · subst hkp
      rw [placed.here, (placed.others j (by omega) (by omega)).2]
      exact (apart j (by omega) (by omega)).symm
    obtain ⟨hfk, hregion⟩ := placed.others k hk hkp
    rw [hregion]
    by_cases hjp : j = p
    · subst hjp
      rw [placed.here]
      exact apart k hk hkp
    · rw [(placed.others j (by omega) hjp).2]
      exact wf.apart (f j) (f k) (placed.order j k hjk hk hjp hkp) hfk

lemma Added.wellFormed (wf : WellFormed rgn) (low : base + size < addrSpace)
    (un : Uncovered rgn base size) (inside : NoneInside rgn base size)
    (h : Added rgn base size r out) : WellFormed out := by
  have hcntle := wf.cnt_le
  cases h with
  | first one empty cnt region =>
    refine ⟨by rw [cnt]; decide, ?_, fun i j _ _ => by omega, fun i j _ _ => by omega⟩
    intro i hi
    obtain rfl : i = 0 := by omega
    rw [region]
    exact low
  | same hi region => exact wf
  | refused full far => exact wf
  | @grown _ i hi far grows cnt region =>
    obtain ⟨hlow, hbase⟩ := grows.low (wf.low i hi) low
    have placed : Placed rgn out i (out.region i) (fun k => k) :=
      ⟨rfl, fun k hk hki => ⟨by omega, region k (by omega) hki⟩, fun j k hjk _ _ _ => hjk⟩
    refine placed.wellFormed wf (by omega) hlow ?_ ?_ ?_
    · intro k hki _
      exact grows.above wf un inside hi hki (far k hki)
    · intro k hik hk
      exact le_trans hbase (wf.sorted i k hik (by omega))
    · intro k hk hki
      exact grows.apart (wf.apart_ne hi (by omega) hki.symm) (un k (by omega))
  | @merged _ i p hi far grows touches cnt here below above =>
    obtain ⟨hlow, hbase⟩ := grows.low (wf.low i (by omega)) low
    have hnextLow := wf.low (i + 1) hi
    have horder : p.base ≤ (rgn.region (i + 1)).base :=
      le_trans hbase (wf.sorted i (i + 1) (Nat.lt_succ_self i) hi)
    have placed : Placed rgn out i ⟨p.base, p.size + (rgn.region (i + 1)).size⟩
        (fun k => if k < i then k else k + 1) := by
      refine ⟨here, fun k hk hki => ?_, fun j k hjk hk hji hki => by split_ifs <;> omega⟩
      split_ifs with hlt
      · exact ⟨by omega, below k hlt⟩
      · exact ⟨by omega, above k (by omega) hk⟩
    refine placed.wellFormed wf (by omega) ?_ ?_ ?_ ?_
    · rcases touches with htouch | htouch
      · simp only
        omega
      · simp only
        omega
    · intro k hki _
      have hle : (rgn.region k).base ≤ p.base := grows.above wf un inside (by omega) hki (far k hki)
      rw [if_pos hki]
      exact hle
    · intro k hik hk
      rw [if_neg (by omega)]
      exact le_trans hbase (wf.sorted i (k + 1) (by omega) (by omega))
    · intro k hk hki
      have happart : ∀ k, k < rgn.cnt → k ≠ i → k ≠ i + 1 →
          Apart ⟨p.base, p.size + (rgn.region (i + 1)).size⟩ (rgn.region k) := fun k hk hki hkn =>
        touches.apart horder (grows.apart (wf.apart_ne (by omega) hk hki.symm) (un k hk))
          (wf.apart_ne hi hk hkn.symm)
      split_ifs
      · exact happart k (by omega) (by omega) (by omega)
      · exact happart (k + 1) (by omega) (by omega) (by omega)
  | @inserted _ p room hp far hlow high cnt here below above =>
    have placed : Placed rgn out p ⟨base, size⟩ (fun k => if k < p then k else k - 1) := by
      refine ⟨here, fun k hk hkp => ?_, fun j k hjk hk hjp hkp => by split_ifs <;> omega⟩
      split_ifs with hlt
      · exact ⟨by omega, below k hlt⟩
      · exact ⟨by omega, above k (by omega) hk⟩
    refine placed.wellFormed wf (by omega) low ?_ ?_ ?_
    · intro k hkp _
      rw [if_pos hkp]
      exact hlow k hkp
    · intro k hpk hk
      rw [if_neg (by omega)]
      exact le_of_lt (high (k - 1) (by omega) (by omega))
    · intro k hk hkp
      split_ifs
      · exact un k (by omega)
      · exact un (k - 1) (by omega)

end LmbTable
