import Mathlib.Data.List.Basic

/-!
# Sets of numbers as lists of intervals

Half-open intervals in increasing order, each followed by at least one number
outside. Taking one number out of such a set shortens, splits or removes the
interval around it.
-/

namespace Intervals

variable {low : Nat}

/-- The interval of the numbers `lo`, ..., `hi - 1`. -/
abbrev Interval := Nat × Nat

variable {ps : List Interval} {p : Interval}

/-- Nonempty, increasing from `low` on, with a number between any two. -/
def Separated : Nat → List Interval → Prop
  | _, [] => True
  | low, p :: rest => low ≤ p.1 ∧ p.1 < p.2 ∧ Separated (p.2 + 1) rest

def Covers (ps : List Interval) (x : Nat) : Prop := ∃ p ∈ ps, p.1 ≤ x ∧ x < p.2

/-- The intervals when `x` has been taken out of `p`. -/
def without (pre : List Interval) (p : Interval) (post : List Interval) (x : Nat) :
    List Interval :=
  if x + 1 = p.2 then if x = p.1 then pre ++ post else pre ++ (p.1, x) :: post
  else if x = p.1 then pre ++ (x + 1, p.2) :: post
  else pre ++ (p.1, x) :: (x + 1, p.2) :: post

lemma separated_weaken {low' : Nat} (le : low' ≤ low) (h : Separated low ps) :
    Separated low' ps := by
  cases ps with
  | nil => trivial
  | cons p ps => exact ⟨Nat.le_trans le h.1, h.2⟩

lemma separated_low (h : Separated low ps) (hp : p ∈ ps) : low ≤ p.1 ∧ p.1 < p.2 := by
  induction ps generalizing low with
  | nil => cases hp
  | cons q ps ih =>
    obtain ⟨hlow, hne, hrest⟩ := h
    rcases List.mem_cons.mp hp with rfl | hmem
    · exact ⟨hlow, hne⟩
    · obtain ⟨hlow', hne'⟩ := ih hrest hmem
      exact ⟨by omega, hne'⟩

lemma separated_middle {pre post : List Interval} :
    Separated low (pre ++ p :: post) ↔ Separated low pre ∧ (∀ q ∈ pre, q.2 < p.1) ∧ low ≤ p.1 ∧
      p.1 < p.2 ∧ Separated (p.2 + 1) post := by
  induction pre generalizing low with
  | nil => simp [Separated]
  | cons q pre ih =>
    simp only [List.cons_append, Separated, ih, List.forall_mem_cons]
    constructor
    · rintro ⟨hlow, hne, hpre, hbefore, hp, hpost⟩
      exact ⟨⟨hlow, hne, hpre⟩, ⟨by omega, hbefore⟩, by omega, hpost⟩
    · rintro ⟨⟨hlow, hne, hpre⟩, ⟨hq, hbefore⟩, hp, hpost⟩
      exact ⟨hlow, hne, hpre, hbefore, by omega, hpost⟩

lemma covers_append {qs : List Interval} {x : Nat} :
    Covers (ps ++ qs) x ↔ Covers ps x ∨ Covers qs x := by
  simp only [Covers, List.mem_append, or_and_right, exists_or]

lemma covers_cons {x : Nat} :
    Covers (p :: ps) x ↔ (p.1 ≤ x ∧ x < p.2) ∨ Covers ps x := by
  simp only [Covers, List.mem_cons, or_and_right, exists_or, exists_eq_left]

lemma covers_split {x : Nat} (h : Covers ps x) :
    ∃ pre p post, ps = pre ++ p :: post ∧ p.1 ≤ x ∧ x < p.2 := by
  obtain ⟨p, hp, hlow, hhigh⟩ := h
  obtain ⟨pre, post, rfl⟩ := List.append_of_mem hp
  exact ⟨pre, p, post, rfl, hlow, hhigh⟩

lemma eq_nil_of_covers_none (h : Separated low ps) (none_ : ∀ x, ¬ Covers ps x) : ps = [] := by
  cases ps with
  | nil => rfl
  | cons p ps => exact absurd ⟨p, List.mem_cons_self, Nat.le_refl _, h.2.1⟩ (none_ p.1)

lemma not_covers_edge {x : Nat} {pre post : List Interval} (h : Separated low (pre ++ p :: post))
    (edge : x + 1 = p.1 ∨ x = p.2) :
    ¬ Covers (pre ++ p :: post) x := by
  obtain ⟨-, hbefore, -, hne, hpost⟩ := separated_middle.mp h
  intro hcov
  rcases covers_append.mp hcov with ⟨q, hq, hlow, hhigh⟩ | hcov
  · have := hbefore q hq
    omega
  rcases covers_cons.mp hcov with hp | ⟨q, hq, hlow, hhigh⟩
  · omega
  · have := (separated_low hpost hq).1
    omega

section Without

variable {low x : Nat} {pre post : List Interval} {p : Interval}

lemma separated_without (h : Separated low (pre ++ p :: post)) (hlow : p.1 ≤ x)
    (hhigh : x < p.2) : Separated low (without pre p post x) := by
  obtain ⟨hpre, hbefore, hp, -, hpost⟩ := separated_middle.mp h
  have hpre' : ∀ q ∈ pre, q.2 < x + 1 := fun q hq => by
    have := hbefore q hq
    omega
  unfold without
  split_ifs with hend hstart hstart
  · cases post with
    | nil => simpa using hpre
    | cons r post =>
      obtain ⟨hr, hne, hrest⟩ := hpost
      refine separated_middle.mpr ⟨hpre, fun q hq => ?_, by omega, hne, hrest⟩
      have := hbefore q hq
      omega
  · refine separated_middle.mpr ⟨hpre, hbefore, hp, ?_, separated_weaken ?_ hpost⟩
    · simp only
      omega
    · simp only
      omega
  · refine separated_middle.mpr ⟨hpre, hpre', ?_, ?_, hpost⟩
    · simp only
      omega
    · simp only
      omega
  · refine separated_middle.mpr ⟨hpre, hbefore, hp, ?_, ?_, ?_, hpost⟩
    · simp only
      omega
    · exact Nat.le_refl _
    · simp only
      omega

lemma covers_without (h : Separated low (pre ++ p :: post)) (hlow : p.1 ≤ x)
    (hhigh : x < p.2) (y : Nat) :
    Covers (without pre p post x) y ↔ Covers (pre ++ p :: post) y ∧ y ≠ x := by
  obtain ⟨-, hbefore, -, -, hpost⟩ := separated_middle.mp h
  have hpre : Covers pre y → y < p.1 := by
    rintro ⟨q, hq, -, hy⟩
    have := hbefore q hq
    omega
  have hpost' : Covers post y → p.2 < y := by
    rintro ⟨q, hq, hy, -⟩
    have := (separated_low hpost hq).1
    omega
  unfold without
  split_ifs with hend hstart hstart
  all_goals
    simp only [covers_append, covers_cons]
    grind

end Without

end Intervals
