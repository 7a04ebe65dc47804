import UBoot.Net.Defrag
import UBoot.Lib.Runs

/-!
# The hole list of `__NetDefragment`

Which list the descriptors represent, what each of the four cases does to it, and
when a call keeps it well formed. Index 0 stands for "none" in the links, and is
also the index of a hole that begins at the first byte.
-/

namespace HoleList

open ByteMemory Defrag Runs

variable {m : Mem} {before after low : Nat}

/-- A hole: the index of its descriptor and the byte behind its last one. -/
structure Gap where
  index : Nat
  last : Nat
  deriving DecidableEq

variable {gs pre post : List Gap} {g : Gap}

def headOr : List Gap → Nat → Nat
  | [], after => after
  | g :: _, _ => g.index

def lastOr : List Gap → Nat → Nat
  | [], before => before
  | g :: rest, _ => lastOr rest g.index

/-- The descriptors in memory form this list, between the links `before` and `after`. -/
def Linked (m : Mem) : Nat → List Gap → Nat → Prop
  | _, [], _ => True
  | before, g :: rest, after =>
    (hole m g.index).lastByte = g.last ∧ (hole m g.index).prevHole = before ∧
      (hole m g.index).nextHole = headOr rest after ∧ Linked m g.index rest after

/-- Strictly increasing and disjoint from `low` on, with every descriptor in the payload array
and inside its own hole. -/
def Ordered : Nat → List Gap → Prop
  | _, [] => True
  | low, g :: rest =>
    low ≤ 8 * g.index ∧ g.index < holeCount ∧ 8 * g.index + 8 ≤ g.last ∧ g.last < 65536 ∧
      (g.last = 0xffff ∨ g.last % 8 = 0) ∧ Ordered g.last rest

@[simp] theorem headOr_nil (after : Nat) : headOr [] after = after := rfl

@[simp] theorem headOr_cons (g : Gap) (gs : List Gap) (after : Nat) :
    headOr (g :: gs) after = g.index := rfl
@[simp] theorem lastOr_nil (before : Nat) : lastOr [] before = before := rfl
@[simp] theorem lastOr_cons (g : Gap) (gs : List Gap) (before : Nat) :
    lastOr (g :: gs) before = lastOr gs g.index := rfl

lemma headOr_append (xs ys : List Gap) (after : Nat) :
    headOr (xs ++ ys) after = headOr xs (headOr ys after) := by
  cases xs <;> rfl

lemma lastOr_mem (some_ : gs ≠ []) (before : Nat) :
    ∃ k ∈ gs, k.index = lastOr gs before := by
  induction gs generalizing before with
  | nil => exact absurd rfl some_
  | cons g gs ih =>
    by_cases hgs : gs = []
    · subst hgs
      exact ⟨g, List.mem_cons_self, rfl⟩
    · obtain ⟨k, hk, hindex⟩ := ih hgs g.index
      exact ⟨k, List.mem_cons_of_mem _ hk, hindex⟩

lemma linked_append {xs ys : List Gap} :
    Linked m before (xs ++ ys) after ↔
      Linked m before xs (headOr ys after) ∧ Linked m (lastOr xs before) ys after := by
  induction xs generalizing before with
  | nil => simp [Linked]
  | cons x xs ih =>
    simp only [List.cons_append, Linked, headOr_append, ih, lastOr_cons, and_assoc]

lemma linked_congr {m' : Mem} (same : ∀ g ∈ gs, hole m' g.index = hole m g.index)
    (h : Linked m before gs after) :
    Linked m' before gs after := by
  induction gs generalizing before with
  | nil => trivial
  | cons g gs ih =>
    obtain ⟨hlast, hprev, hnext, hrest⟩ := h
    refine ⟨?_, ?_, ?_, ih (fun k hk => same k (List.mem_cons_of_mem _ hk)) hrest⟩
    · rw [same g List.mem_cons_self]; exact hlast
    · rw [same g List.mem_cons_self]; exact hprev
    · rw [same g List.mem_cons_self]; exact hnext

lemma ordered_weaken {low' : Nat} (le : low' ≤ low) (h : Ordered low gs) : Ordered low' gs := by
  cases gs with
  | nil => trivial
  | cons g gs => exact ⟨Nat.le_trans le h.1, h.2⟩

lemma ordered_low (h : Ordered low gs) (hg : g ∈ gs) :
    low ≤ 8 * g.index ∧ g.index < holeCount ∧ 8 * g.index + 8 ≤ g.last := by
  induction gs generalizing low with
  | nil => cases hg
  | cons k gs ih =>
    obtain ⟨hlow, hin, hroom, -, -, hrest⟩ := h
    rcases List.mem_cons.mp hg with rfl | hmem
    · exact ⟨hlow, hin, hroom⟩
    · obtain ⟨hlow', hin', hroom'⟩ := ih hrest hmem
      exact ⟨by omega, hin', hroom'⟩

def endOr : List Gap → Nat → Nat
  | [], low => low
  | g :: rest, _ => endOr rest g.last

lemma ordered_append {xs ys : List Gap} :
    Ordered low (xs ++ ys) ↔ Ordered low xs ∧ Ordered (endOr xs low) ys := by
  induction xs generalizing low with
  | nil => simp [Ordered, endOr]
  | cons x xs ih => simp only [List.cons_append, Ordered, endOr, ih, and_assoc]

lemma ordered_end {xs : List Gap} (h : Ordered low xs) (hg : g ∈ xs) :
    g.last ≤ endOr xs low := by
  induction xs generalizing low g with
  | nil => cases hg
  | cons x xs ih =>
    obtain ⟨-, -, -, -, -, hrest⟩ := h
    rcases List.mem_cons.mp hg with rfl | hmem
    · cases xs with
      | nil => exact Nat.le_refl _
      | cons y ys =>
        have hy := ordered_low hrest List.mem_cons_self
        have hend := ih hrest List.mem_cons_self
        simp only [endOr] at hend ⊢
        omega
    · exact ih hrest hmem

lemma ordered_length (h : Ordered low gs) (some_ : gs ≠ []) :
    low + 8 * gs.length ≤ 8 * holeCount := by
  induction gs generalizing low with
  | nil => exact absurd rfl some_
  | cons g gs ih =>
    obtain ⟨hlow, hin, hroom, -, -, hrest⟩ := h
    simp only [List.length_cons]
    by_cases hgs : gs = []
    · subst hgs
      simp only [List.length_nil]
      omega
    · have hlen := ih hrest hgs
      omega

structure Around (pre : List Gap) (g : Gap) (post : List Gap) : Prop where
  inside : g.index < holeCount
  room : 8 * g.index + 8 ≤ g.last
  small : g.last < 65536
  shape : g.last = 0xffff ∨ g.last % 8 = 0
  before : Ordered 0 pre
  below : endOr pre 0 ≤ 8 * g.index
  behind : Ordered g.last post

lemma around_of_ordered (h : Ordered 0 (pre ++ g :: post)) :
    Around pre g post := by
  obtain ⟨hpre, hlow, hin, hroom, hsmall, hshape, hpost⟩ := ordered_append.mp h
  exact ⟨hin, hroom, hsmall, hshape, hpre, hlow, hpost⟩

lemma Around.pre_lt (h : Around pre g post) {k : Gap} (hk : k ∈ pre) :
    k.last ≤ 8 * g.index ∧ k.index < g.index := by
  have hend := ordered_end h.before hk
  have hroom := (ordered_low h.before hk).2.2
  have hbelow := h.below
  constructor
  · omega
  · omega

lemma Around.post_gt (h : Around pre g post) {k : Gap} (hk : k ∈ post) :
    g.last ≤ 8 * k.index ∧ g.index < k.index := by
  have hlow := (ordered_low h.behind hk).1
  have hroom := h.room
  constructor
  · exact hlow
  · omega

/-! ## The search -/

lemma linked_middle (h : Linked m before (pre ++ g :: post) after) :
    (hole m g.index).lastByte = g.last ∧ (hole m g.index).prevHole = lastOr pre before ∧
      (hole m g.index).nextHole = headOr post after ∧ Linked m before pre g.index ∧
      Linked m g.index post after := by
  obtain ⟨hpre, hlast, hprev, hnext, hpost⟩ := linked_append.mp h
  exact ⟨hlast, hprev, hnext, hpre, hpost⟩

lemma search_skips {start fuel : Nat} (ordered : Ordered low (pre ++ g :: post))
    (linked : Linked m before (pre ++ g :: post) 0) (passed : ∀ k ∈ pre, k.last < start) :
    search m start (fuel + pre.length) (headOr (pre ++ g :: post) 0) =
      search m start fuel g.index := by
  induction pre generalizing low before with
  | nil => rfl
  | cons p ps ih =>
    rw [List.cons_append] at linked ordered ⊢
    obtain ⟨hlast, -, hnext, hrest⟩ := linked
    obtain ⟨-, hin, hroom, -, -, hordered⟩ := ordered
    have hskip : p.last < start := passed p List.mem_cons_self
    have hnot : ¬ holeCount ≤ p.index := Nat.not_le.mpr hin
    have hpos : headOr (ps ++ g :: post) 0 ≠ 0 := by
      obtain ⟨k, ks, hk⟩ := List.exists_cons_of_ne_nil (List.append_ne_nil_of_right_ne_nil ps
        (List.cons_ne_nil g post))
      have hlow := (ordered_low (hk ▸ hordered) List.mem_cons_self).1
      rw [hk, headOr_cons]
      omega
    have htail := ih hordered hrest (fun k hk => passed k (List.mem_cons_of_mem _ hk))
    simp only [headOr_cons, List.length_cons, ← add_assoc, search, if_neg hnot, hlast,
      if_pos hskip, hnext, if_neg hpos]
    exact htail

lemma search_finds {start : Nat} (ordered : Ordered low (pre ++ g :: post))
    (linked : Linked m before (pre ++ g :: post) 0) (passed : ∀ k ∈ pre, k.last < start)
    (reach : start ≤ g.last) :
    search m start (holeCount + 1) (headOr (pre ++ g :: post) 0) = some (some g.index) := by
  have hfits := ordered_length ordered (List.append_ne_nil_of_right_ne_nil pre
    (List.cons_ne_nil g post))
  simp only [List.length_append, List.length_cons] at hfits
  obtain ⟨fuel, hfuel⟩ := Nat.exists_eq_add_of_le' (show 1 + pre.length ≤ holeCount + 1 by omega)
  obtain ⟨hlast, -⟩ := linked_middle linked
  have hin := (ordered_append.mp ordered).2.2.1
  rw [hfuel, ← Nat.add_assoc, search_skips ordered linked passed]
  simp only [search, if_neg (Nat.not_le.mpr hin), hlast, if_neg (Nat.not_lt.mpr reach)]

lemma search_passes {start : Nat} (some_ : gs ≠ []) (ordered : Ordered low gs)
    (linked : Linked m before gs 0) (passed : ∀ k ∈ gs, k.last < start) :
    search m start (holeCount + 1) (headOr gs 0) = some none := by
  obtain ⟨pre, g, rfl⟩ : ∃ pre g, gs = pre ++ [g] :=
    ⟨_, _, (List.dropLast_append_getLast some_).symm⟩
  have hfits := ordered_length ordered some_
  simp only [List.length_append, List.length_cons, List.length_nil] at hfits
  obtain ⟨fuel, hfuel⟩ := Nat.exists_eq_add_of_le' (show 1 + pre.length ≤ holeCount + 1 by omega)
  obtain ⟨hlast, -, hnext, -⟩ := linked_middle linked
  have hin := (ordered_append.mp ordered).2.2.1
  have hg : g.last < start := passed g (by simp)
  rw [hfuel, ← Nat.add_assoc, search_skips ordered linked
    (fun k hk => passed k (List.mem_append_left _ hk))]
  simp only [search, if_neg (Nat.not_le.mpr hin), hlast, if_pos hg, hnext, headOr_nil, if_true]

lemma first_reaching (gs : List Gap) (start : Nat) :
    (∀ g ∈ gs, g.last < start) ∨
      ∃ pre g post, gs = pre ++ g :: post ∧ (∀ k ∈ pre, k.last < start) ∧ start ≤ g.last := by
  induction gs with
  | nil => exact .inl (fun g hg => by cases hg)
  | cons g gs ih =>
    by_cases hg : start ≤ g.last
    · exact .inr ⟨[], g, gs, rfl, fun k hk => (by cases hk), hg⟩
    rcases ih with hall | ⟨pre, k, post, rfl, hpre, hk⟩
    · exact .inl (List.forall_mem_cons.mpr ⟨Nat.not_le.mp hg, hall⟩)
    · exact .inr ⟨g :: pre, k, post, rfl,
        List.forall_mem_cons.mpr ⟨Nat.not_le.mp hg, hpre⟩, hk⟩

/-! ## Relinking the neighbours -/

def Clear (gs : List Gap) (x : Nat) : Prop :=
  ∀ k ∈ gs, x < 8 * k.index ∨ 8 * k.index + 8 ≤ x

lemma relink_next {v : Nat} (small : v < 65536) (ordered : Ordered low post) (pos : 0 < low)
    (linked : Linked m before post 0) :
    ∃ m', (if headOr post 0 = 0 then some m
        else inside (headOr post 0) (setPrev m (headOr post 0) v)) = some m' ∧
      Linked m' v post 0 ∧
      (∀ i, (∀ k ∈ post, k.index ≠ i) → hole m' i = hole m i) ∧
      ∀ x, Clear post x → m' x = m x := by
  cases post with
  | nil => exact ⟨m, rfl, trivial, fun _ _ => rfl, fun _ _ => rfl⟩
  | cons p ps =>
    obtain ⟨hlow, hin, hroom, -, -, hps⟩ := ordered
    have hpos : p.index ≠ 0 := by omega
    obtain ⟨hlast, -, hnext, hrest⟩ := linked
    have hcell := fun j => hole_setPrev m p.index j small
    refine ⟨setPrev m p.index v, ?_, ⟨?_, ?_, ?_, ?_⟩, ?_, ?_⟩
    · rw [headOr_cons, if_neg hpos, Defrag.inside, if_pos hin]
    · rw [hcell, if_pos rfl]; exact hlast
    · rw [hcell, if_pos rfl]
    · rw [hcell, if_pos rfl]; exact hnext
    · refine linked_congr (fun k hk => ?_) hrest
      have hk' := (ordered_low hps hk).1
      rw [hcell, if_neg (by omega)]
    · intro i hi
      rw [hcell, if_neg (fun heq => hi p List.mem_cons_self heq.symm)]
    · intro x hx
      exact setPrev_outside m (hx p List.mem_cons_self) v

lemma relink_prev {v : Nat} (small : v < 65536) (ordered : Ordered low pre) (some_ : pre ≠ [])
    (linked : Linked m before pre after) :
    inside (lastOr pre 0) (setNext m (lastOr pre 0) v) = some (setNext m (lastOr pre 0) v) ∧
      Linked (setNext m (lastOr pre 0) v) before pre v := by
  induction pre generalizing before low with
  | nil => exact absurd rfl some_
  | cons p ps ih =>
    obtain ⟨-, hin, hroom, -, -, hps⟩ := ordered
    obtain ⟨hlast, hprev, hnext, hrest⟩ := linked
    by_cases hempty : ps = []
    · subst hempty
      have hcell := fun j => hole_setNext m p.index j small
      refine ⟨if_pos hin, ?_, ?_, ?_, trivial⟩
      · rw [lastOr_cons, lastOr_nil, hcell, if_pos rfl]; exact hlast
      · rw [lastOr_cons, lastOr_nil, hcell, if_pos rfl]; exact hprev
      · rw [lastOr_cons, lastOr_nil, hcell, if_pos rfl]; rfl
    obtain ⟨q, qs, rfl⟩ := List.exists_cons_of_ne_nil hempty
    have hlastEq : lastOr (p :: q :: qs) 0 = lastOr (q :: qs) 0 := rfl
    obtain ⟨hinside, hlinked⟩ := ih hps hempty hrest
    obtain ⟨k, hk, hkindex⟩ := lastOr_mem (List.cons_ne_nil q qs) 0
    have hk' := (ordered_low hps hk).1
    have hcell : hole (setNext m (lastOr (q :: qs) 0) v) p.index = hole m p.index := by
      rw [hole_setNext m _ _ small, if_neg (by omega)]
    rw [hlastEq]
    refine ⟨hinside, ?_, ?_, ?_, hlinked⟩
    · rw [hcell]; exact hlast
    · rw [hcell]; exact hprev
    · rw [hcell]; exact hnext

/-- What precedes the hole that a removal or a move keeps: a predecessor at index 0 reads as "no
predecessor" and is dropped from the list. -/
def kept (pre : List Gap) : List Gap := if lastOr pre 0 = 0 then [] else pre

lemma kept_lastOr (pre : List Gap) : lastOr (kept pre) 0 = lastOr pre 0 := by
  unfold kept
  split_ifs with h
  · rw [h]; rfl
  · rfl

lemma kept_subset {k : Gap} (h : k ∈ kept pre) : k ∈ pre := by
  unfold kept at h
  split_ifs at h with h0
  · cases h
  · exact h

lemma ordered_kept {rest : List Gap} (h : Ordered low (pre ++ rest)) :
    Ordered low (kept pre ++ rest) := by
  unfold kept
  split_ifs with h0
  · obtain ⟨hpre, hrest⟩ := ordered_append.mp h
    refine ordered_weaken ?_ hrest
    clear h h0 hrest
    induction pre generalizing low with
    | nil => exact Nat.le_refl _
    | cons p ps ih =>
      obtain ⟨hlow, -, hroom, -, -, hps⟩ := hpre
      have := ih hps
      simp only [endOr]
      omega
  · exact h

lemma kept_eq (h : Ordered low pre) (hne : kept pre ≠ pre) :
    ∃ last, pre = [⟨0, last⟩] := by
  unfold kept at hne
  split_ifs at hne with h0
  · cases pre with
    | nil => exact absurd rfl hne
    | cons p ps =>
      obtain ⟨-, -, hroom, -, -, hps⟩ := h
      have hps' : ps = [] := by
        by_contra hsome
        obtain ⟨q, hq, hqindex⟩ := lastOr_mem hsome p.index
        have hlow := (ordered_low hps hq).1
        rw [lastOr_cons, ← hqindex] at h0
        omega
      subst hps'
      have hindex : p.index = 0 := h0
      exact ⟨p.last, by rw [← hindex]⟩
  · exact absurd rfl hne

lemma headOr_front (some_ : lastOr pre 0 ≠ 0) (xs ys : List Gap) (after : Nat) :
    headOr (pre ++ xs) after = headOr (pre ++ ys) after := by
  cases pre with
  | nil => exact absurd rfl some_
  | cons p ps => rfl

lemma headOr_kept (pre rest : List Gap) (after : Nat) :
    headOr (kept pre ++ rest) after =
      if lastOr pre 0 = 0 then headOr rest after else headOr (pre ++ rest) after := by
  unfold kept
  split_ifs with h
  · rfl
  · rfl

lemma relink_kept {v : Nat} (small : v < 65536) (ordered : Ordered 0 pre)
    (linked : Linked m 0 pre after) :
    ∃ m', (if lastOr pre 0 = 0 then some m
        else inside (lastOr pre 0) (setNext m (lastOr pre 0) v)) = some m' ∧
      Linked m' 0 (kept pre) v ∧
      (∀ i, (∀ k ∈ pre, k.index ≠ i) → hole m' i = hole m i) ∧
      ∀ x, Clear pre x → m' x = m x := by
  by_cases hnone : lastOr pre 0 = 0
  · refine ⟨m, if_pos hnone, ?_, fun _ _ => rfl, fun _ _ => rfl⟩
    rw [kept, if_pos hnone]
    trivial
  have hsome : pre ≠ [] := by
    rintro rfl
    exact hnone rfl
  obtain ⟨hin, hlinked⟩ := relink_prev small ordered hsome linked
  obtain ⟨k, hk, hindex⟩ := lastOr_mem hsome 0
  refine ⟨setNext m (lastOr pre 0) v, ?_, ?_, fun i hi => ?_, fun x hx => ?_⟩
  · rw [if_neg hnone]
    exact hin
  · rw [kept, if_neg hnone]
    exact hlinked
  · rw [hole_setNext m _ _ small, if_neg (fun heq => hi k hk (hindex.trans heq.symm))]
  · exact setNext_outside m (hindex ▸ hx k hk) v

/-! ## The four cases -/

lemma removeHole_eq {firstHole h prev next : Nat} (hprev : (hole m h).prevHole = prev)
    (hnext : (hole m h).nextHole = next) (more : ¬ (prev = 0 ∧ next = 0)) :
    removeHole m firstHole h =
      ((if next = 0 then some m else inside next (setPrev m next prev)).bind fun m =>
        if prev = 0 then some m else inside prev (setNext m prev next)).map
          (⟨·, if prev = 0 then next else firstHole, false⟩) := by
  by_cases hp : prev = 0
  · have hn : next ≠ 0 := fun hn => more ⟨hp, hn⟩
    simp only [removeHole, hprev, hnext, hp, if_true, hn, and_false, if_false, Option.bind_fun_some]
  · by_cases hn : next = 0
    · simp only [removeHole, hprev, hnext, hp, hn, and_true, if_false, if_true, Option.bind_some]
    · simp only [removeHole, hprev, hnext, hp, hn, and_false, if_false]

lemma removeHole_linked {last : Nat} (around : Around pre g post)
    (linked : Linked m 0 (pre ++ ⟨g.index, last⟩ :: post) 0) (more : kept pre ++ post ≠ []) :
    ∃ m', removeHole m (headOr (pre ++ ⟨g.index, last⟩ :: post) 0) g.index =
        some ⟨m', headOr (kept pre ++ post) 0, false⟩ ∧
      Linked m' 0 (kept pre ++ post) 0 ∧ ∀ x, Clear (pre ++ g :: post) x → m' x = m x := by
  obtain ⟨-, hprev, hnext, hpre, hpost⟩ := linked_middle linked
  have hroom := around.room
  have hcount : holeCount = 2058 := rfl
  have hg := around.inside
  have hnotBoth : ¬ (lastOr pre 0 = 0 ∧ headOr post 0 = 0) := by
    rintro ⟨hp, hn⟩
    cases post with
    | nil => exact more (by rw [kept, if_pos hp]; rfl)
    | cons p ps =>
      have hp' := (around.post_gt List.mem_cons_self).1
      rw [headOr_cons] at hn
      omega
  have hprevSmall : lastOr pre 0 < 65536 := by
    by_cases hempty : pre = []
    · subst hempty
      decide
    · obtain ⟨k, hk, hindex⟩ := lastOr_mem hempty 0
      have hk' := (around.pre_lt hk).2
      omega
  have hnextSmall : headOr post 0 < 65536 := by
    cases post with
    | nil => exact (by decide)
    | cons p ps =>
      have hp := (ordered_low around.behind List.mem_cons_self).2.1
      rw [headOr_cons]
      omega
  obtain ⟨m₁, hm₁, hpost₁, hsame₁, hclear₁⟩ :=
    relink_next hprevSmall around.behind (by omega) hpost
  have hpre₁ : Linked m₁ 0 pre g.index := linked_congr (fun k hk => hsame₁ _ (fun j hj heq => by
    have hj' := (around.post_gt hj).2
    have hk' := (around.pre_lt hk).2
    omega)) hpre
  obtain ⟨m₂, hm₂, hpre₂, hsame₂, hclear₂⟩ := relink_kept hnextSmall around.before hpre₁
  refine ⟨m₂, ?_, ?_, fun x hx => ?_⟩
  · rw [removeHole_eq hprev hnext hnotBoth, hm₁, Option.bind_some, hm₂, Option.map_some, headOr_kept]
    split_ifs with hp
    · rfl
    · rw [headOr_front hp (⟨g.index, last⟩ :: post) post]
  · rw [linked_append, kept_lastOr]
    refine ⟨hpre₂, linked_congr (fun k hk => hsame₂ _ (fun j hj heq => ?_)) hpost₁⟩
    have hj' := (around.pre_lt hj).2
    have hk' := (around.post_gt hk).2
    omega
  · rw [hclear₂ x (fun k hk => hx k (by simp [hk])), hclear₁ x (fun k hk => hx k (by simp [hk]))]

lemma removeHole_done (firstHole : Nat) (linked : Linked m 0 (pre ++ g :: post) 0)
    (none_ : kept pre ++ post = []) :
    removeHole m firstHole g.index = some ⟨m, firstHole, true⟩ := by
  obtain ⟨-, hprev, hnext, -, -⟩ := linked_middle linked
  obtain ⟨hkept, rfl⟩ := List.append_eq_nil_iff.mp none_
  have hprev0 : lastOr pre 0 = 0 := by
    rw [← kept_lastOr, hkept]
    rfl
  simp only [removeHole, hprev, hnext, hprev0, headOr_nil, and_self, if_true]

lemma linked_setLast {last v : Nat} (around : Around pre g post) (small : v < 65536)
    (linked : Linked m 0 (pre ++ ⟨g.index, last⟩ :: post) 0) :
    Linked (setLast m g.index v) 0 (pre ++ ⟨g.index, v⟩ :: post) 0 := by
  obtain ⟨-, hprev, hnext, hpre, hpost⟩ := linked_middle linked
  have hcell := fun j => hole_setLast m g.index j small
  refine linked_append.mpr ⟨linked_congr (fun k hk => ?_) hpre, ?_, ?_, ?_,
    linked_congr (fun k hk => ?_) hpost⟩
  · rw [hcell, if_neg (Nat.ne_of_lt (around.pre_lt hk).2)]
  · rw [hcell, if_pos rfl]
  · rw [hcell, if_pos rfl]
    exact hprev
  · rw [hcell, if_pos rfl]
    exact hnext
  · rw [hcell, if_neg (Nat.ne_of_gt (around.post_gt hk).2)]

lemma setLast_clear (v : Nat) {x : Nat} (clear : Clear (pre ++ g :: post) x) :
    setLast m g.index v x = m x := by
  exact setLast_outside m (clear g (by simp)) v

lemma moveHole_linked {newh : Nat} (around : Around pre g post)
    (linked : Linked m 0 (pre ++ g :: post) 0) (behind : g.index < newh)
    (inside_ : newh < holeCount) (room : 8 * newh + 8 ≤ g.last) :
    ∃ m', moveHole m (headOr (pre ++ g :: post) 0) g.index newh =
        some ⟨m', headOr (kept pre ++ ⟨newh, g.last⟩ :: post) 0, false⟩ ∧
      Linked m' 0 (kept pre ++ ⟨newh, g.last⟩ :: post) 0 ∧
      ∀ x, Clear (pre ++ g :: post) x → (x < 8 * newh ∨ 8 * newh + 8 ≤ x) → m' x = m x := by
  obtain ⟨hlast, hprev, hnext, hpre, hpost⟩ := linked_middle linked
  have hcount : holeCount = 2058 := rfl
  have hsmall : newh < 65536 := by omega
  have hafter : ∀ k ∈ post, newh < k.index := fun k hk => by
    have := (around.post_gt hk).1
    omega
  have hbefore : ∀ k ∈ pre, k.index < newh := fun k hk => by
    have := (around.pre_lt hk).2
    omega
  have hcell := fun j => hole_copyHole m newh g.index j
  have hnew : hole (copyHole m newh g.index) newh = hole m g.index := by rw [hcell, if_pos rfl]
  have hpost₀ : Linked (copyHole m newh g.index) g.index post 0 := linked_congr (fun k hk => by
    rw [hcell, if_neg (Nat.ne_of_gt (hafter k hk))]) hpost
  have hpre₀ : Linked (copyHole m newh g.index) 0 pre g.index := linked_congr (fun k hk => by
    rw [hcell, if_neg (Nat.ne_of_lt (hbefore k hk))]) hpre
  obtain ⟨m₁, hm₁, hpost₁, hsame₁, hclear₁⟩ :=
    relink_next hsmall around.behind (by omega) hpost₀
  have hnew₁ : hole m₁ newh = hole m g.index :=
    (hsame₁ newh (fun k hk => Nat.ne_of_gt (hafter k hk))).trans hnew
  have hpre₁ : Linked m₁ 0 pre g.index := linked_congr (fun k hk => hsame₁ _ (fun j hj heq => by
    have hj' := hafter j hj
    have hk' := hbefore k hk
    omega)) hpre₀
  obtain ⟨m₂, hm₂, hpre₂, hsame₂, hclear₂⟩ := relink_kept hsmall around.before hpre₁
  have hnew₂ : hole m₂ newh = hole m g.index :=
    (hsame₂ newh (fun k hk => Nat.ne_of_lt (hbefore k hk))).trans hnew₁
  refine ⟨m₂, ?_, ?_, fun x hx hout => ?_⟩
  · have hin : ∀ m, Defrag.inside newh m = some m := fun m => if_pos inside_
    simp only [moveHole, hin, Option.bind_some, hnew, hnext, hm₁, hnew₁, hprev, headOr_kept]
    by_cases hp : lastOr pre 0 = 0
    · rw [if_pos hp] at hm₂ ⊢
      rw [if_pos hp, Option.some.inj hm₂]
      rfl
    · rw [if_neg hp] at hm₂ ⊢
      rw [if_neg hp, hm₂, headOr_front hp (g :: post) (⟨newh, g.last⟩ :: post)]
      rfl
  · rw [linked_append, kept_lastOr]
    refine ⟨hpre₂, ?_, ?_, ?_, linked_congr (fun k hk => hsame₂ _ (fun j hj heq => ?_)) hpost₁⟩
    · rw [hnew₂]
      exact hlast
    · rw [hnew₂]
      exact hprev
    · rw [hnew₂]
      exact hnext
    · have hj' := hbefore j hj
      have hk' := hafter k hk
      omega
  · rw [hclear₂ x (fun k hk => hx k (by simp [hk])), hclear₁ x (fun k hk => hx k (by simp [hk])),
      copyHole_outside m hout]

lemma splitHole_linked {newh : Nat} (start : Nat) (around : Around pre g post)
    (linked : Linked m 0 (pre ++ g :: post) 0) (small : start < 65536) (behind : g.index < newh)
    (inside_ : newh < holeCount) (room : 8 * newh + 8 ≤ g.last) :
    ∃ m', splitHole m (headOr (pre ++ g :: post) 0) g.index newh start =
        some ⟨m', headOr (pre ++ ⟨g.index, start⟩ :: ⟨newh, g.last⟩ :: post) 0, false⟩ ∧
      Linked m' 0 (pre ++ ⟨g.index, start⟩ :: ⟨newh, g.last⟩ :: post) 0 ∧
      ∀ x, Clear (pre ++ g :: post) x → (x < 8 * newh ∨ 8 * newh + 8 ≤ x) → m' x = m x := by
  obtain ⟨hlast, hprev, hnext, hpre, hpost⟩ := linked_middle linked
  have hcount : holeCount = 2058 := rfl
  have hsmall : newh < 65536 := by omega
  have hindex : g.index < 65536 := by omega
  have hafter : ∀ k ∈ post, newh < k.index := fun k hk => by
    have := (around.post_gt hk).1
    omega
  have hbefore : ∀ k ∈ pre, k.index < g.index := fun k hk => (around.pre_lt hk).2
  -- the four writes to the two halves
  obtain ⟨m₀, hm₀⟩ : ∃ m₀, m₀ = setPrev (setNext (setLast (copyHole m newh g.index) g.index start)
    g.index newh) newh g.index := ⟨_, rfl⟩
  have hcell : ∀ j, hole m₀ j =
      if j = newh then { hole m g.index with prevHole := g.index }
      else if j = g.index then { hole m g.index with lastByte := start, nextHole := newh }
      else hole m j := by
    intro j
    have hne : g.index ≠ newh := Nat.ne_of_lt behind
    simp only [hm₀, hole_setPrev _ _ _ hindex, hole_setNext _ _ _ hsmall, hole_setLast _ _ _ small,
      hole_copyHole, if_true, if_neg hne, if_neg hne.symm]
    split_ifs with h h
    · rfl
    · rfl
    · rfl
  have hpost₀ : Linked m₀ g.index post 0 := linked_congr (fun k hk => by
    have := hafter k hk
    rw [hcell, if_neg (by omega), if_neg (by omega)]) hpost
  have hpre₀ : Linked m₀ 0 pre g.index := linked_congr (fun k hk => by
    have := hbefore k hk
    rw [hcell, if_neg (by omega), if_neg (by omega)]) hpre
  obtain ⟨m₁, hm₁, hpost₁, hsame₁, hclear₁⟩ :=
    relink_next hsmall around.behind (by omega) hpost₀
  have hnew : hole m₁ newh = { hole m g.index with prevHole := g.index } := by
    rw [hsame₁ newh (fun k hk => Nat.ne_of_gt (hafter k hk)), hcell, if_pos rfl]
  have hold : hole m₁ g.index = { hole m g.index with lastByte := start, nextHole := newh } := by
    rw [hsame₁ g.index (fun k hk => Nat.ne_of_gt (around.post_gt hk).2), hcell,
      if_neg (Nat.ne_of_lt behind), if_pos rfl]
  refine ⟨m₁, ?_, ?_, fun x hx hout => ?_⟩
  · have hin : ∀ m, Defrag.inside newh m = some m := fun m => if_pos inside_
    have hnextAt : (hole m₀ newh).nextHole = headOr post 0 := by
      rw [hcell, if_pos rfl]
      exact hnext
    simp only [splitHole, hin, Option.bind_some, ← hm₀, hnextAt, hm₁, Option.map_some,
      headOr_append, headOr_cons]
  · refine linked_append.mpr ⟨linked_congr (fun k hk => hsame₁ _ (fun j hj heq => ?_)) hpre₀, ?_⟩
    · have hj' := hafter j hj
      have hk' := hbefore k hk
      omega
    · refine ⟨?_, ?_, ?_, ?_, ?_, ?_, hpost₁⟩
      · rw [hold]
      · rw [hold]
        exact hprev
      · rw [hold]
        rfl
      · rw [hnew]
        exact hlast
      · rw [hnew]
      · rw [hnew]
        exact hnext
  · have hg := hx g (by simp)
    rw [hclear₁ x (fun k hk => hx k (by simp [hk])), hm₀, setPrev_outside _ hout,
      setNext_outside _ hg, setLast_outside _ hg, copyHole_outside m hout]

/-! ## One fragment -/

/-- A fragment of `len` bytes that neither leaves the payload array nor touches a descriptor it
does not replace; `g` is the hole the search has found. -/
structure Fits (pre : List Gap) (g : Gap) (post : List Gap) (offset8 len : Nat) (more : Bool) :
    Prop where
  around : Around pre g post
  passed : ∀ k ∈ pre, k.last < 8 * offset8
  reach : 8 * offset8 ≤ g.last
  overlap : g.index < offset8 + len / 8
  bound : 8 * offset8 + len ≤ ipMaxUdp
  aligned : more = true → 8 * offset8 + len < g.last →
    len % 8 = 0 ∧ 8 * offset8 + len + 8 ≤ 8 * holeCount
  apart : ∀ k ∈ post, 8 * offset8 + len ≤ 8 * k.index

/-- The list when the fragment has been taken out of hole `g`. -/
def remaining (pre : List Gap) (g : Gap) (post : List Gap) (offset8 len : Nat) (more : Bool) :
    List Gap :=
  if more = false ∨ g.last ≤ 8 * offset8 + len then
    if offset8 ≤ g.index then kept pre ++ post else pre ++ ⟨g.index, 8 * offset8⟩ :: post
  else if offset8 ≤ g.index then kept pre ++ ⟨offset8 + len / 8, g.last⟩ :: post
  else pre ++ ⟨g.index, 8 * offset8⟩ :: ⟨offset8 + len / 8, g.last⟩ :: post

def Outside (gs : List Gap) (x : Nat) : Prop := ∀ k ∈ gs, x < 8 * k.index ∨ k.last ≤ x

lemma outside_clear {x : Nat} (ordered : Ordered low gs) (h : Outside gs x) : Clear gs x := by
  intro k hk
  have hroom := (ordered_low ordered hk).2.2
  rcases h k hk with hbefore | hafter
  · exact .inl hbefore
  · exact .inr (Nat.le_trans hroom hafter)

section Fit

variable {pre post : List Gap} {g : Gap} {offset8 len : Nat} {more : Bool}

lemma Fits.ordered (fits : Fits pre g post offset8 len more) : Ordered 0 (pre ++ g :: post) :=
  ordered_append.mpr ⟨fits.around.before, fits.around.below, fits.around.inside, fits.around.room,
    fits.around.small, fits.around.shape, fits.around.behind⟩

lemma Fits.newHole (fits : Fits pre g post offset8 len more)
    (left : ¬ (more = false ∨ g.last ≤ 8 * offset8 + len)) :
    g.index < offset8 + len / 8 ∧ offset8 + len / 8 < holeCount ∧
      8 * (offset8 + len / 8) = 8 * offset8 + len ∧ 8 * (offset8 + len / 8) + 8 ≤ g.last := by
  simp only [not_or, Bool.not_eq_false, Nat.not_le] at left
  obtain ⟨hmore, hleft⟩ := left
  obtain ⟨haligned, hin⟩ := fits.aligned hmore hleft
  have hshape := fits.around.shape
  have hcount : holeCount = 2058 := rfl
  refine ⟨fits.overlap, ?_, ?_, ?_⟩
  · omega
  · omega
  · rcases hshape with h | h
    · omega
    · omega

lemma Fits.untouched (fits : Fits pre g post offset8 len more) {k : Gap}
    (hk : k ∈ remaining pre g post offset8 len more) :
    8 * offset8 + len ≤ 8 * k.index ∨ 8 * k.index + 8 ≤ 8 * offset8 := by
  have hpre : ∀ j ∈ pre, 8 * j.index + 8 ≤ 8 * offset8 := fun j hj => by
    have hroom := (ordered_low fits.around.before hj).2.2
    have hpassed := fits.passed j hj
    omega
  unfold remaining at hk
  split_ifs at hk with hall hstart hstart
  · rcases List.mem_append.mp hk with h | h
    · exact .inr (hpre k (kept_subset h))
    · exact .inl (fits.apart k h)
  · rcases List.mem_append.mp hk with h | h
    · exact .inr (hpre k h)
    · rcases List.mem_cons.mp h with rfl | h
      · exact .inr (by simp only; omega)
      · exact .inl (fits.apart k h)
  · rcases List.mem_append.mp hk with h | h
    · exact .inr (hpre k (kept_subset h))
    · rcases List.mem_cons.mp h with rfl | h
      · exact .inl (Nat.le_of_eq (fits.newHole hall).2.2.1.symm)
      · exact .inl (fits.apart k h)
  · rcases List.mem_append.mp hk with h | h
    · exact .inr (hpre k h)
    rcases List.mem_cons.mp h with rfl | h
    · exact .inr (by simp only; omega)
    · rcases List.mem_cons.mp h with rfl | h
      · exact .inl (Nat.le_of_eq (fits.newHole hall).2.2.1.symm)
      · exact .inl (fits.apart k h)

lemma Fits.ordered_remaining (fits : Fits pre g post offset8 len more) :
    Ordered 0 (remaining pre g post offset8 len more) := by
  have hroom := fits.around.room
  have hbound := fits.bound
  have hmax : ipMaxUdp = 16464 := rfl
  have hreach := fits.reach
  have hbelow := fits.around.below
  unfold remaining
  split_ifs with hall hstart hstart
  · refine ordered_kept (ordered_append.mpr ⟨fits.around.before, ?_⟩)
    exact ordered_weaken (by omega) fits.around.behind
  · refine ordered_append.mpr ⟨fits.around.before, hbelow, fits.around.inside, ?_, ?_, ?_, ?_⟩
    · simp only; omega
    · simp only; omega
    · exact .inr (by simp only; omega)
    · exact ordered_weaken hreach fits.around.behind
  · obtain ⟨hbehind, hin, hstop, hfit⟩ := fits.newHole hall
    refine ordered_kept (ordered_append.mpr ⟨fits.around.before, ?_, hin, hfit,
      fits.around.small, fits.around.shape, fits.around.behind⟩)
    simp only
    omega
  · obtain ⟨hbehind, hin, hstop, hfit⟩ := fits.newHole hall
    refine ordered_append.mpr ⟨fits.around.before, hbelow, fits.around.inside, ?_, ?_, ?_, ?_, hin,
      hfit, fits.around.small, fits.around.shape, fits.around.behind⟩
    · simp only; omega
    · simp only; omega
    · exact .inr (by simp only; omega)
    · simp only; omega

lemma fixHoles_linked (fits : Fits pre g post offset8 len more) (linked : Linked m 0
      (pre ++ ⟨g.index, if more then g.last else 8 * offset8 + len⟩ :: post) 0) :
    ∃ l, fixHoles m (headOr (pre ++ g :: post) 0) g.index offset8 len = some l ∧
      l.done = decide (remaining pre g post offset8 len more = []) ∧
      (remaining pre g post offset8 len more ≠ [] →
        l.firstHole = headOr (remaining pre g post offset8 len more) 0) ∧
      Linked l.payload 0 (remaining pre g post offset8 len more) 0 ∧
      ∀ x, Outside (pre ++ g :: post) x → l.payload x = m x := by
  have hfirst : ∀ last, headOr (pre ++ g :: post) 0 = headOr (pre ++ ⟨g.index, last⟩ :: post) 0 :=
    fun last => by rw [headOr_append, headOr_append]; rfl
  have hnewh : ((offset8 : Int) + (len : Int).tdiv 8).toNat = offset8 + len / 8 := by
    have hdiv : (len : Int).tdiv 8 = ((len / 8 : Nat) : Int) := rfl
    rw [hdiv]
    omega
  have hlast := (linked_middle linked).1
  have hclear := fun x => outside_clear (x := x) fits.ordered
  have hlastIff : ((hole m g.index).lastByte : Int) ≤ ((8 * offset8 : Nat) : Int) + (len : Int) ↔
      more = false ∨ g.last ≤ 8 * offset8 + len := by
    rw [hlast]
    cases more with
    | false => simp
    | true => simp only [if_true, Bool.true_eq_false, false_or]; omega
  by_cases hall : more = false ∨ g.last ≤ 8 * offset8 + len
  · by_cases hstart : offset8 ≤ g.index
    · have hfix : fixHoles m (headOr (pre ++ g :: post) 0) g.index offset8 len =
          removeHole m (headOr (pre ++ g :: post) 0) g.index := by
        simp only [fixHoles, hlastIff, hall, hstart, and_self, if_true]
      rw [remaining, if_pos hall, if_pos hstart, hfix]
      by_cases hmore : kept pre ++ post = []
      · have hdone := removeHole_done (headOr (pre ++ g :: post) 0) linked hmore
        refine ⟨_, hdone, by simp [hmore], fun h => absurd hmore h, ?_, fun _ _ => rfl⟩
        rw [hmore]
        trivial
      · obtain ⟨m', hm', hlinked, hsame⟩ := removeHole_linked fits.around linked hmore
        rw [hfirst]
        exact ⟨_, hm', by simp [hmore], fun _ => rfl, hlinked, fun x hx => hsame x (hclear x hx)⟩
    · have hbound := fits.bound
      have hmax : ipMaxUdp = 16464 := rfl
      have hfix : fixHoles m (headOr (pre ++ g :: post) 0) g.index offset8 len =
          some ⟨setLast m g.index (8 * offset8), headOr (pre ++ g :: post) 0, false⟩ := by
        simp only [fixHoles, hlastIff, hall, hstart, false_and, if_false, if_true]
      rw [remaining, if_pos hall, if_neg hstart, hfix]
      exact ⟨_, rfl, by simp, fun _ => hfirst _,
        linked_setLast fits.around (by omega) linked, fun x hx => setLast_clear _ (hclear x hx)⟩
  · obtain ⟨hbehind, hin, -, hfit⟩ := fits.newHole hall
    have hold : Linked m 0 (pre ++ g :: post) 0 := by
      rw [not_or, Bool.not_eq_false] at hall
      rwa [hall.1, if_pos rfl] at linked
    have hnew : ∀ x, Outside (pre ++ g :: post) x →
        x < 8 * (offset8 + len / 8) ∨ 8 * (offset8 + len / 8) + 8 ≤ x := fun x hx => by
      rcases hx g (by simp) with h | h
      · exact .inl (by omega)
      · exact .inr (by omega)
    by_cases hstart : offset8 ≤ g.index
    · have hfix : fixHoles m (headOr (pre ++ g :: post) 0) g.index offset8 len =
          moveHole m (headOr (pre ++ g :: post) 0) g.index (offset8 + len / 8) := by
        simp only [fixHoles, hlastIff, hall, hstart, and_false, if_false, if_true, hnewh]
      obtain ⟨m', hm', hlinked, hsame⟩ := moveHole_linked fits.around hold hbehind hin hfit
      rw [remaining, if_neg hall, if_pos hstart, hfix]
      exact ⟨_, hm', by simp, fun _ => rfl, hlinked, fun x hx => hsame x (hclear x hx) (hnew x hx)⟩
    · have hbound := fits.bound
      have hmax : ipMaxUdp = 16464 := rfl
      have hfix : fixHoles m (headOr (pre ++ g :: post) 0) g.index offset8 len =
          splitHole m (headOr (pre ++ g :: post) 0) g.index (offset8 + len / 8) (8 * offset8) := by
        simp only [fixHoles, hlastIff, hall, hstart, and_false, if_false, hnewh]
      obtain ⟨m', hm', hlinked, hsame⟩ :=
        splitHole_linked (8 * offset8) fits.around hold (by omega) hbehind hin hfit
      rw [remaining, if_neg hall, if_neg hstart, hfix]
      exact ⟨_, hm', by simp, fun _ => rfl, hlinked, fun x hx => hsame x (hclear x hx) (hnew x hx)⟩

end Fit

variable {s : State} {f : Fragment}

def stop (f : Fragment) : Nat := 8 * offset8 f + (fragLen f).toNat

structure Listed (s : State) (gs : List Gap) : Prop where
  first : s.firstHole = headOr gs 0
  linked : Linked s.payload 0 gs 0
  ordered : Ordered 0 gs

lemma insert_linked (listed : Listed s (pre ++ g :: post)) (whole : 0 ≤ fragLen f)
    (fits : Fits pre g post (offset8 f) (fragLen f).toNat (moreFragments f)) :
    ∃ m firstHole, insertFragment s f g.index = some
        (let total := if moreFragments f then s.totalLen else stop f
        if remaining pre g post (offset8 f) (fragLen f).toNat (moreFragments f) = [] then
          ({ localip := { s.localip with ipLen := total }, payload := m, firstHole := firstHole,
             totalLen := total }, some (total + 20))
        else ({ s with payload := m, firstHole := firstHole, totalLen := total }, none)) ∧
      (remaining pre g post (offset8 f) (fragLen f).toNat (moreFragments f) ≠ [] →
        firstHole = headOr (remaining pre g post (offset8 f) (fragLen f).toNat
          (moreFragments f)) 0) ∧
      Linked m 0 (remaining pre g post (offset8 f) (fragLen f).toNat (moreFragments f)) 0 ∧
      (∀ k, k < (fragLen f).toNat → m (8 * offset8 f + k) = f.data k) ∧
      ∀ x, Outside (pre ++ g :: post) x → (x < 8 * offset8 f ∨ stop f ≤ x) →
        m x = s.payload x := by
  obtain ⟨len, hlen⟩ := Int.eq_ofNat_of_zero_le whole
  have hstop : stop f = 8 * offset8 f + len := by simp only [stop, hlen, Int.toNat_natCast]
  have hstop' : (8 * (offset8 f : Int) + (len : Int)).toNat = 8 * offset8 f + len := by omega
  rw [hlen, Int.toNat_natCast] at fits
  simp only [hlen, Int.toNat_natCast]
  have hbound := fits.bound
  have hmax : ipMaxUdp = 16464 := rfl
  have hcut : Linked (if moreFragments f then s.payload else setLast s.payload g.index (stop f)) 0
      (pre ++ ⟨g.index, if moreFragments f then g.last else 8 * offset8 f + len⟩ :: post) 0 := by
    cases moreFragments f with
    | true => exact listed.linked
    | false =>
      simp only [Bool.false_eq_true, if_false, hstop]
      exact linked_setLast fits.around (by omega) listed.linked
  obtain ⟨l, hfix, hdone, hfirst, hlinked, hsame⟩ := fixHoles_linked fits hcut
  refine ⟨blit l.payload (8 * offset8 f) (slice f.data 0 len), l.firstHole, ?_, hfirst, ?_, ?_, ?_⟩
  · have hnot : ¬ (len : Int) < 0 := by omega
    rw [← listed.first] at hfix
    cases hmore : moreFragments f with
    | true =>
      simp only [hmore, if_true] at hfix hdone ⊢
      simp only [insertFragment, hmore, if_true, hlen, hfix, hnot, if_false, Int.toNat_natCast, hdone,
        decide_eq_true_eq]
      split_ifs <;> rfl
    | false =>
      simp only [hmore, Bool.false_eq_true, if_false, hstop] at hfix hdone ⊢
      simp only [insertFragment, hmore, Bool.false_eq_true, if_false, hlen, hstop', hfix, hnot,
        Int.toNat_natCast, hdone, decide_eq_true_eq]
      split_ifs <;> rfl
  · refine linked_congr (fun k hk => hole_blit_outside _ _ ?_) hlinked
    rw [slice_length]
    exact fits.untouched hk
  · intro k hk
    rw [blit_slice _ _ (Nat.le_add_right _ _) (Nat.add_lt_add_left hk _), zero_add,
      Nat.add_sub_cancel_left]
  · intro x hx hout
    rw [blit_outside _ _ (by rw [slice_length, ← hstop]; exact hout), hsame x hx]
    cases moreFragments f with
    | true => rfl
    | false => exact setLast_clear _ (outside_clear fits.ordered hx)

lemma reassemble_passes (listed : Listed s gs) (some_ : gs ≠ [])
    (passed : ∀ k ∈ gs, k.last < 8 * offset8 f) :
    reassemble s f = some (s, none) := by
  rw [reassemble, listed.first, search_passes some_ listed.ordered listed.linked passed]

lemma reassemble_finds (listed : Listed s (pre ++ g :: post))
    (passed : ∀ k ∈ pre, k.last < 8 * offset8 f) (reach : 8 * offset8 f ≤ g.last) :
    reassemble s f = if offset8 f + (fragLen f).tdiv 8 ≤ g.index then some (s, none)
      else insertFragment s f g.index := by
  rw [reassemble, listed.first, search_finds listed.ordered listed.linked passed reach]

lemma fits_reassemble (listed : Listed s (pre ++ g :: post)) (whole : 0 ≤ fragLen f)
    (fits : Fits pre g post (offset8 f) (fragLen f).toNat (moreFragments f)) :
    reassemble s f = insertFragment s f g.index := by
  obtain ⟨len, hlen⟩ := Int.eq_ofNat_of_zero_le whole
  have hdiv : (fragLen f).tdiv 8 = ((len / 8 : Nat) : Int) := by rw [hlen]; rfl
  have hover := fits.overlap
  rw [hlen, Int.toNat_natCast] at hover
  rw [reassemble_finds listed fits.passed fits.reach, if_neg]
  rw [hdiv]
  omega

/-! ## Every call -/

def WellFormed (s : State) : Prop := s.totalLen ≠ 0 → ∃ gs, gs ≠ [] ∧ Listed s gs

/-- What a fragment that overlaps hole `h` must be for the list to survive it. -/
structure Clean (m : Mem) (f : Fragment) (h : Nat) : Prop where
  whole : 0 ≤ fragLen f
  apart : (hole m h).nextHole = 0 ∨ stop f ≤ 8 * (hole m h).nextHole
  aligned : moreFragments f = true → stop f < (hole m h).lastByte →
    fragLen f % 8 = 0 ∧ stop f + 8 ≤ 8 * holeCount
  unfinished : ¬ ((offset8 f ≤ h ∧ (moreFragments f = false ∨ (hole m h).lastByte ≤ stop f)) ∧
    (hole m h).prevHole = 0 ∧ (hole m h).nextHole = 0)

def Sound (s : State) (f : Fragment) : Prop :=
  TooFar f ∨ ∀ h, search (reset s f).payload (8 * offset8 f) (holeCount + 1) (reset s f).firstHole =
      some (some h) →
    offset8 f + (fragLen f).tdiv 8 ≤ h ∨ Clean (reset s f).payload f h

lemma reset_new (new : s.totalLen = 0 ∨ s.localip.ipId ≠ f.header.ipId) :
    (reset s f).localip = f.header ∧ (reset s f).totalLen = 0xffff ∧
      Listed (reset s f) [⟨0, 0xffff⟩] := by
  rw [reset, if_pos new]
  refine ⟨rfl, rfl, rfl, ⟨?_, ?_, ?_, trivial⟩, ?_⟩
  · simp only [hole_setPrev _ _ _ (show 0 < 65536 by decide),
      hole_setNext _ _ _ (show 0 < 65536 by decide),
      hole_setLast _ _ _ (show 0xffff < 65536 by decide), if_true]
  · simp only [hole_setPrev _ _ _ (show 0 < 65536 by decide), if_true]
  · simp only [hole_setPrev _ _ _ (show 0 < 65536 by decide),
      hole_setNext _ _ _ (show 0 < 65536 by decide), if_true, headOr_nil]
  · exact ⟨by decide, by decide, by decide, by decide, .inl rfl, trivial⟩

lemma reset_listed (h : WellFormed s) (f : Fragment) :
    ∃ gs, gs ≠ [] ∧ Listed (reset s f) gs := by
  by_cases hnew : s.totalLen = 0 ∨ s.localip.ipId ≠ f.header.ipId
  · exact ⟨_, List.cons_ne_nil _ _, (reset_new hnew).2.2⟩
  · rw [reset, if_neg hnew]
    exact h (fun hzero => hnew (.inl hzero))

lemma clean_fits (listed : Listed s (pre ++ g :: post)) (near : ¬ TooFar f)
    (passed : ∀ k ∈ pre, k.last < 8 * offset8 f) (reach : 8 * offset8 f ≤ g.last)
    (overlap : ¬ offset8 f + (fragLen f).tdiv 8 ≤ g.index) (clean : Clean s.payload f g.index) :
    Fits pre g post (offset8 f) (fragLen f).toNat (moreFragments f) ∧
      remaining pre g post (offset8 f) (fragLen f).toNat (moreFragments f) ≠ [] := by
  obtain ⟨hlast, hprev, hnext, -, -⟩ := linked_middle listed.linked
  have haround := around_of_ordered listed.ordered
  obtain ⟨hwhole, hapart, haligned, hunfinished⟩ := clean
  rw [hlast] at haligned hunfinished
  rw [hnext] at hapart hunfinished
  rw [hprev] at hunfinished
  obtain ⟨len, hlen⟩ := Int.eq_ofNat_of_zero_le hwhole
  have hstop : stop f = 8 * offset8 f + len := by simp only [stop, hlen, Int.toNat_natCast]
  have hdiv : (fragLen f).tdiv 8 = ((len / 8 : Nat) : Int) := by rw [hlen]; rfl
  rw [TooFar, not_or, hlen] at near
  rw [hdiv] at overlap
  rw [hstop, hlen] at haligned
  rw [hstop] at hapart hunfinished
  rw [hlen, Int.toNat_natCast]
  constructor
  · refine ⟨haround, passed, reach, by omega, by omega, fun hmore hleft => ?_, fun k hk => ?_⟩
    · obtain ⟨heven, hin⟩ := haligned hmore hleft
      exact ⟨by omega, hin⟩
    · cases post with
      | nil => cases hk
      | cons p ps =>
        have hp := (haround.post_gt List.mem_cons_self).2
        have hstart := hapart.resolve_left (show p.index ≠ 0 by omega)
        rw [headOr_cons] at hstart
        rcases List.mem_cons.mp hk with rfl | hmem
        · exact hstart
        · have hbehind := ordered_low haround.behind.2.2.2.2.2 hmem
          have hroom := haround.behind.2.2.1
          omega
  · unfold remaining
    split_ifs with hall hstart hstart
    · intro hnil
      obtain ⟨hkept, hpost⟩ := List.append_eq_nil_iff.mp hnil
      refine hunfinished ⟨⟨hstart, hall⟩, ?_, ?_⟩
      · rw [← kept_lastOr, hkept]
        rfl
      · rw [hpost]
        rfl
    · exact List.append_ne_nil_of_right_ne_nil _ (List.cons_ne_nil _ _)
    · exact List.append_ne_nil_of_right_ne_nil _ (List.cons_ne_nil _ _)
    · exact List.append_ne_nil_of_right_ne_nil _ (List.cons_ne_nil _ _)

lemma netDefragment_wellFormed (h : WellFormed s) (sound : Sound s f) :
    ∃ t, (netDefragment s f).map Prod.fst = some t ∧ WellFormed t := by
  by_cases hfar : TooFar f
  · rw [netDefragment, if_pos hfar]
    exact ⟨s, rfl, h⟩
  obtain ⟨gs, hsome, hlisted⟩ := reset_listed h f
  have hkept : WellFormed (reset s f) := fun _ => ⟨gs, hsome, hlisted⟩
  have hfound := sound.resolve_left hfar
  rw [netDefragment, if_neg hfar]
  rcases first_reaching gs (8 * offset8 f) with hall | ⟨pre, g, post, rfl, hpassed, hreach⟩
  · rw [reassemble_passes hlisted hsome hall]
    exact ⟨_, rfl, hkept⟩
  rw [reassemble_finds hlisted hpassed hreach]
  by_cases hover : (offset8 f : Int) + (fragLen f).tdiv 8 ≤ g.index
  · rw [if_pos hover]
    exact ⟨_, rfl, hkept⟩
  have hsearch := search_finds hlisted.ordered hlisted.linked hpassed hreach
  rw [← hlisted.first] at hsearch
  have hclean := (hfound g.index hsearch).resolve_left hover
  obtain ⟨hfits, hleft⟩ := clean_fits hlisted hfar hpassed hreach hover hclean
  obtain ⟨m, first, hinsert, hfirst, hlinked, -⟩ := insert_linked hlisted hclean.whole hfits
  rw [if_neg hover, hinsert, if_neg hleft]
  exact ⟨_, rfl, fun _ => ⟨_, hleft, hfirst hleft, hlinked, hfits.ordered_remaining⟩⟩

/-- One call of `__NetDefragment`, whatever it returns. -/
def receive (s : State) (f : Fragment) : Option State := (netDefragment s f).map Prod.fst

/-- No sequence of sound fragments leaves `pkt_buff` or breaks the list, after any of its calls. -/
theorem list_stays_wellFormed {s : State} (fresh : s.totalLen = 0) {frags : List Fragment}
    (meet : StepsMeet receive Sound s frags) (done todo : List Fragment)
    (split : frags = done ++ todo) : ∃ t, runFrom receive s done = some t ∧ WellFormed t := by
  subst split
  exact invariant_of_run (fun _ _ h sound => netDefragment_wellFormed h sound)
    (fun h => absurd fresh h) (stepsMeet_append.mp meet).1

def powerOn : State := ⟨⟨0, 0, 0, 0, 0, 0, 0, 0, 0, 0⟩, fun _ => 0, 0, 0⟩

/-- A fragment of datagram 1 with the header's total length, flags and offset, and checksum. -/
def part (size frag sum : Nat) : Fragment :=
  ⟨⟨0x45, 0, size, 1, frag, 64, 17, sum, 0x0a000001, 0x0a00010a⟩, fun i => UInt8.ofNat i⟩

def middlePart : Fragment := part 28 0x2002 0x45c4
def firstPart : Fragment := part 36 0x2000 0x45be

/-- The fragment at 16 splits the hole, and the one before it closes what is left in front. -/
theorem list_stays_wellFormed_split :
    ∃ t, runFrom receive powerOn [middlePart, firstPart] = some t ∧ WellFormed t := by
  have sound {s : State} {f : Fragment} (found : search (reset s f).payload (8 * offset8 f)
      (holeCount + 1) (reset s f).firstHole = some (some 0)) (clean : Clean (reset s f).payload f 0) :
      Sound s f := by
    refine Or.inr fun h at_h => Or.inr ?_
    obtain rfl : 0 = h := Option.some.inj (Option.some.inj (found.symm.trans at_h))
    exact clean
  have meet : StepsMeet receive Sound powerOn [middlePart, firstPart] := by
    refine ⟨sound (by decide) ⟨by decide, by decide, by decide, by decide⟩, fun t split => ?_⟩
    obtain rfl := Option.some.inj split
    exact ⟨sound (by decide +kernel) ⟨by decide +kernel, by decide +kernel, by decide +kernel,
      by decide +kernel⟩, fun _ _ => trivial⟩
  exact list_stays_wellFormed rfl meet _ [] rfl

/-- A header that declares fewer bytes than it has itself: the middle of the hole list is split
for it, and then `memcpy` gets the length -4. -/
def shortPart : Fragment := part 16 0x2001 0x45d1

theorem short_header_leaves_buffer : runFrom receive powerOn [shortPart] = none := by
  rfl

end HoleList
