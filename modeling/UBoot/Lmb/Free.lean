import UBoot.Lmb.Table

/-!
# Freeing a range

A range is cut out of the entry that contains it. What is left behind the range may
become an entry of its own.
-/

namespace LmbFree

open LogicalMemory LmbTable

variable {i : Nat} {rgn : LmbRegion}

def put (rgn : LmbRegion) (i : Nat) (p : Property) : LmbRegion :=
  { rgn with region := setRegion rgn.region i p }

@[simp] theorem put_cnt (rgn : LmbRegion) (i : Nat) (p : Property) : (put rgn i p).cnt = rgn.cnt :=
  rfl

@[simp] theorem put_same (rgn : LmbRegion) (i : Nat) (p : Property) :
    (put rgn i p).region i = p := setRegion_same rgn.region i p

lemma put_other (rgn : LmbRegion) {k : Nat} (p : Property) (h : k ≠ i) :
    (put rgn i p).region k = rgn.region k := setRegion_other _ _ h

def CoveredElse (rgn : LmbRegion) (i a : Nat) : Prop :=
  ∃ k, k < rgn.cnt ∧ k ≠ i ∧ InRange (rgn.region k).base (rgn.region k).size a

lemma covered_iff (hi : i < rgn.cnt) (a : Nat) :
    Covered rgn a ↔
      InRange (rgn.region i).base (rgn.region i).size a ∨ CoveredElse rgn i a := by
  constructor
  · rintro ⟨k, hk, ha⟩
    by_cases hki : k = i
    · exact .inl (hki ▸ ha)
    · exact .inr ⟨k, hk, hki, ha⟩
  · rintro (ha | ⟨k, hk, -, ha⟩)
    · exact ⟨i, hi, ha⟩
    · exact ⟨k, hk, ha⟩

lemma covered_put (hi : i < rgn.cnt) (p : Property) (a : Nat) :
    Covered (put rgn i p) a ↔ InRange p.base p.size a ∨ CoveredElse rgn i a := by
  have hput : i < (put rgn i p).cnt := hi
  rw [covered_iff hput, put_same]
  refine or_congr_right ⟨?_, ?_⟩
  · rintro ⟨k, hk, hki, ha⟩
    rw [put_other rgn p hki] at ha
    exact ⟨k, hk, hki, ha⟩
  · rintro ⟨k, hk, hki, ha⟩
    refine ⟨k, hk, hki, ?_⟩
    rw [put_other rgn p hki]
    exact ha

lemma not_coveredElse (wf : WellFormed rgn) {a : Nat} (hi : i < rgn.cnt)
    (ha : InRange (rgn.region i).base (rgn.region i).size a) : ¬ CoveredElse rgn i a := by
  rintro ⟨k, hk, hki, hka⟩
  have hapart := wf.apart_ne hi hk hki.symm
  unfold Apart at hapart
  unfold InRange at ha hka
  omega

lemma wellFormed_put {p : Property} (wf : WellFormed rgn) (hi : i < rgn.cnt)
    (begins : (rgn.region i).base ≤ p.base)
    (ends : p.base + p.size ≤ (rgn.region i).base + (rgn.region i).size)
    (order : ∀ k, i < k → k < rgn.cnt → p.base ≤ (rgn.region k).base) :
    WellFormed (put rgn i p) := by
  have happart : ∀ k, k < rgn.cnt → k ≠ i → Apart p (rgn.region k) := by
    intro k hk hki
    have := wf.apart_ne hi hk hki.symm
    unfold Apart at this ⊢
    omega
  refine ⟨wf.cnt_le, ?_, ?_, ?_⟩
  · intro k hk
    by_cases hki : k = i
    · subst hki
      have := wf.low k hk
      rw [put_same]
      omega
    · rw [put_other rgn p hki]
      exact wf.low k hk
  · intro j k hjk hk
    by_cases hji : j = i
    · subst hji
      rw [put_same, put_other rgn p (by omega)]
      exact order k hjk hk
    rw [put_other rgn p hji]
    have hsorted := wf.sorted j k hjk hk
    by_cases hki : k = i
    · subst hki
      rw [put_same]
      omega
    · rw [put_other rgn p hki]
      exact hsorted
  · intro j k hjk hk
    rw [put_cnt] at hk
    by_cases hji : j = i
    · subst hji
      rw [put_same, put_other rgn p (by omega)]
      exact happart k hk (by omega)
    rw [put_other rgn p hji]
    by_cases hki : k = i
    · subst hki
      rw [put_same]
      exact (happart j (lt_trans hjk hk) hji).symm
    · rw [put_other rgn p hki]
      exact wf.apart j k hjk hk

lemma lmbRemoveRegion_removes (wf : WellFormed rgn) (hi : i < rgn.cnt) :
    ∃ out, lmbRemoveRegion rgn i = some out ∧ WellFormed out ∧
      ∀ a, Covered out a ↔ CoveredElse rgn i a := by
  obtain ⟨out, hout, hcnt, hregion⟩ := lmbRemoveRegion_eq rgn hi
  have hcntle := wf.cnt_le
  refine ⟨out, hout, ⟨by omega, ?_, ?_, ?_⟩, ?_⟩
  · intro k hk
    rw [hregion k hk]
    exact wf.low _ (by split_ifs <;> omega)
  · intro j k hjk hk
    rw [hregion j (by omega), hregion k hk]
    exact wf.sorted _ _ (by split_ifs <;> omega) (by split_ifs <;> omega)
  · intro j k hjk hk
    rw [hregion j (by omega), hregion k hk]
    exact wf.apart _ _ (by split_ifs <;> omega) (by split_ifs <;> omega)
  · intro a
    constructor
    · rintro ⟨k, hk, ha⟩
      rw [hregion k hk] at ha
      exact ⟨_, by split_ifs <;> omega, by split_ifs <;> omega, ha⟩
    · rintro ⟨k, hk, hki, ha⟩
      by_cases hlt : k < i
      · refine ⟨k, by omega, ?_⟩
        rw [hregion k (by omega), if_pos hlt]
        exact ha
      · have hpred : k - 1 + 1 = k := by omega
        refine ⟨k - 1, by omega, ?_⟩
        rw [hregion (k - 1) (by omega), if_neg (by omega), hpred]
        exact ha

def Contains (rgn : LmbRegion) (i base size : Nat) : Prop :=
  i < rgn.cnt ∧ (rgn.region i).base ≤ base ∧
    base + size ≤ (rgn.region i).base + (rgn.region i).size

def NoneWithin (rgn : LmbRegion) (base size : Nat) : Prop :=
  ∀ i k, Contains rgn i base size → k < rgn.cnt → k ≠ i → (rgn.region k).size = 0 →
    (rgn.region k).base < (rgn.region i).base ∨
      (rgn.region i).base + (rgn.region i).size ≤ (rgn.region k).base

lemma findContaining_contains {base size : Nat} (wf : WellFormed rgn)
    (low : base + size < addrSpace) (n j : Nat) (hn : j + n = rgn.cnt)
    (h : findContaining rgn.region base ((base + size) % addrSpace) n j = some i) :
    Contains rgn i base size := by
  induction n generalizing j with
  | zero => exact nomatch h
  | succ n ih =>
    unfold findContaining at h
    by_cases hin : (rgn.region j).base ≤ base ∧ (base + size) % addrSpace ≤
        ((rgn.region j).base + (rgn.region j).size) % addrSpace
    · rw [if_pos hin] at h
      have hji : j = i := Option.some.inj h
      rw [← hji]
      have hlow := wf.low j (by omega)
      rw [Nat.mod_eq_of_lt low, Nat.mod_eq_of_lt hlow] at hin
      exact ⟨by omega, hin.1, hin.2⟩
    · rw [if_neg hin] at h
      exact ih (j + 1) (by omega) h

structure Freed (rgn : LmbRegion) (base size : Nat) (out : LmbRegion) : Prop where
  wellFormed : WellFormed out
  covers : ∀ a, Covered out a ↔ Covered rgn a ∧ ¬ InRange base size a

lemma cut_covers {base size : Nat} (wf : WellFormed rgn) (inside : Contains rgn i base size)
    {out : LmbRegion} (left : Nat → Prop) (hleft : ∀ a, left a ↔
      InRange (rgn.region i).base (rgn.region i).size a ∧ ¬ InRange base size a)
    (hout : ∀ a, Covered out a ↔ left a ∨ CoveredElse rgn i a) (a : Nat) :
    Covered out a ↔ Covered rgn a ∧ ¬ InRange base size a := by
  obtain ⟨hi, hbegin, hend⟩ := inside
  rw [hout, hleft, covered_iff hi]
  constructor
  · rintro (⟨hin, hnot⟩ | helse)
    · exact ⟨.inl hin, hnot⟩
    · refine ⟨.inr helse, fun hin => not_coveredElse wf hi ?_ helse⟩
      unfold InRange at hin ⊢
      omega
  · rintro ⟨hin | helse, hnot⟩
    · exact .inl ⟨hin, hnot⟩
    · exact .inr helse

lemma freeRegion_freed {base size : Nat} (wf : WellFormed rgn) (low : base + size < addrSpace)
    (none_within : NoneWithin rgn base size) :
    ∃ r out, freeRegion rgn base size = some (r, out) ∧ (0 ≤ r → Freed rgn base size out) := by
  unfold freeRegion
  dsimp only
  cases hfind : findContaining rgn.region base ((base + size) % addrSpace) rgn.cnt 0 with
  | none => exact ⟨-1, rgn, rfl, fun h => absurd h (by decide)⟩
  | some i =>
    have hinside := findContaining_contains wf low rgn.cnt 0 (zero_add _) hfind
    have ⟨hi, hbegin, hend⟩ := hinside
    have hilow := wf.low i hi
    have hsub : ∀ m n : Nat, n ≤ m → m < addrSpace → (m + addrSpace - n) % addrSpace = m - n := by
      intro m n hnm hm
      have hmove : m + addrSpace - n = m - n + addrSpace := by omega
      rw [hmove, Nat.add_mod_right, Nat.mod_eq_of_lt (by omega)]
    dsimp only
    rw [Nat.mod_eq_of_lt low, Nat.mod_eq_of_lt hilow]
    by_cases hwhole : (rgn.region i).base = base ∧
        (rgn.region i).base + (rgn.region i).size = base + size
    · rw [if_pos hwhole]
      obtain ⟨out, hout, hwf, hcovers⟩ := lmbRemoveRegion_removes wf hi
      refine ⟨0, out, by rw [hout]; rfl, fun _ => ⟨hwf, ?_⟩⟩
      refine cut_covers wf hinside (fun _ => False) (fun a => ?_) (fun a => ?_)
      · refine ⟨False.elim, ?_⟩
        rintro ⟨hin, hnot⟩
        unfold InRange at hin hnot
        omega
      · rw [hcovers, false_or]
    rw [if_neg hwhole]
    by_cases hfront : (rgn.region i).base = base
    · rw [if_pos hfront, hsub _ _ (by omega) (by omega)]
      refine ⟨0, put rgn i ⟨base + size, (rgn.region i).size - size⟩, rfl, fun _ => ⟨?_, ?_⟩⟩
      · refine wellFormed_put wf hi (by simp only; omega) (by simp only; omega) ?_
        intro k hik hk
        have hsorted := wf.sorted i k hik hk
        have hapart := wf.apart i k hik hk
        unfold Apart at hapart
        dsimp only
        by_cases hempty : (rgn.region k).size = 0
        · have := none_within i k hinside hk (by omega) hempty
          omega
        · omega
      · refine cut_covers wf hinside _ (fun a => ?_) (covered_put hi _)
        unfold InRange
        simp only
        omega
    rw [if_neg hfront]
    by_cases hback : (rgn.region i).base + (rgn.region i).size = base + size
    · rw [if_pos hback, hsub _ _ (by omega) (by omega)]
      refine ⟨0, put rgn i ⟨(rgn.region i).base, (rgn.region i).size - size⟩, rfl,
        fun _ => ⟨?_, ?_⟩⟩
      · refine wellFormed_put wf hi le_rfl (by simp only; omega) ?_
        exact fun k hik hk => wf.sorted i k hik hk
      · refine cut_covers wf hinside _ (fun a => ?_) (covered_put hi _)
        unfold InRange
        simp only
        omega
    rw [if_neg hback, hsub _ _ hbegin (by omega), hsub _ _ hend hilow]
    -- the entry is split: its end becomes a range to add
    have hwf : WellFormed (put rgn i ⟨(rgn.region i).base, base - (rgn.region i).base⟩) :=
      wellFormed_put wf hi le_rfl (by simp only; omega)
        (fun k hik hk => wf.sorted i k hik hk)
    have hapart : Uncovered (put rgn i ⟨(rgn.region i).base, base - (rgn.region i).base⟩)
        (base + size) ((rgn.region i).base + (rgn.region i).size - (base + size)) := by
      intro k hk
      by_cases hki : k = i
      · subst hki
        rw [put_same]
        unfold Apart
        simp only
        omega
      · rw [put_other _ _ hki]
        have := wf.apart_ne hi hk (Ne.symm hki)
        unfold Apart at this ⊢
        simp only
        omega
    have hinsideNone : NoneInside (put rgn i ⟨(rgn.region i).base, base - (rgn.region i).base⟩)
        (base + size) ((rgn.region i).base + (rgn.region i).size - (base + size)) := by
      intro j k hjk hk hempty _
      by_cases hji : j = i
      · subst hji
        rw [put_same] at hempty
        simp only at hempty
        omega
      · rw [put_other _ _ hji] at hempty ⊢
        have := none_within i j hinside (lt_trans hjk hk) hji hempty
        omega
    have hfresh : FreshStart (put rgn i ⟨(rgn.region i).base, base - (rgn.region i).base⟩)
        (base + size) ((rgn.region i).base + (rgn.region i).size - (base + size)) := by
      intro hcnt
      rw [put_cnt] at hcnt
      omega
    obtain ⟨r, out, hout, hadded⟩ := lmbAddRegion_added hwf (by omega) hfresh
    refine ⟨r, out, hout, fun hr => ⟨hadded.wellFormed hwf (by omega) hapart hinsideNone, ?_⟩⟩
    refine cut_covers wf hinside (fun a =>
      InRange (rgn.region i).base (base - (rgn.region i).base) a ∨
        InRange (base + size) ((rgn.region i).base + (rgn.region i).size - (base + size)) a)
      (fun a => ?_) (fun a => ?_)
    · unfold InRange
      omega
    · rw [hadded.covers hwf hr, covered_put hi]
      exact or_right_comm

end LmbFree
