import Mathlib.Data.List.Basic
import Mathlib.Data.List.Infix
import Mathlib.Data.List.TakeWhile

/-!
# Prefixes of lists

## The longest common prefix
-/

namespace CommonPrefix

variable {α : Type*}

structure Longest (p : List α) (lists : List (List α)) : Prop where
  common : ∀ l ∈ lists, p <+: l
  longest : ∀ q, (∀ l ∈ lists, q <+: l) → q <+: p

lemma longest_singleton (l : List α) : Longest l [l] where
  common _ member := List.mem_singleton.mp member ▸ List.prefix_rfl
  longest _ all := all l List.mem_cons_self

lemma Longest.unique {p p' : List α} {lists : List (List α)} (first : Longest p lists)
    (second : Longest p' lists) : p = p' := by
  have le := second.longest p first.common
  have ge := first.longest p' second.common
  exact le.eq_of_length (le_antisymm le.length_le ge.length_le)

end CommonPrefix

/-!
## The occurrences of a word

A text is searched from the left, and each search goes on behind the occurrence that was found
before it.
-/

namespace Occurrences

universe u
variable {α : Type u} [DecidableEq α]

def OccursAt (word text : List α) (i : Nat) : Prop := word <+: text.drop i

def first (word : List α) : List α → Option Nat
  | [] => if word = [] then some 0 else none
  | a :: text => if word <+: a :: text then some 0 else (first word text).map (· + 1)

structure Hit where
  place : Nat
  touches : Bool

def hits (word text : List α) : (fuel : Nat) → (start : Nat) → List Hit
  | 0, _ => []
  | fuel + 1, start =>
    match first word (text.drop start) with
    | none => []
    | some d => ⟨start + d, d = 0⟩ :: hits word text fuel (start + d + word.length)

variable {word text : List α}

omit [DecidableEq α] in
lemma occursAt_drop {start i : Nat} :
    OccursAt word (text.drop start) i ↔ OccursAt word text (start + i) := by
  rw [OccursAt, OccursAt, List.drop_drop]

omit [DecidableEq α] in
/-- The letters of an occurrence. -/
lemma OccursAt.getElem? {i k : Nat} (occurs : OccursAt word text i) (inside : k < word.length) :
    text[i + k]? = word[k]? := by
  obtain ⟨rest, whole⟩ := occurs
  rw [← List.getElem?_drop, ← whole, List.getElem?_append_left inside]

omit [DecidableEq α] in
lemma OccursAt.end_le {i : Nat} (occurs : OccursAt word text i) (nonempty : word ≠ []) :
    i + word.length ≤ text.length := by
  have length := occurs.length_le
  have pos := List.length_pos_iff.mpr nonempty
  rw [List.length_drop] at length
  omega

lemma first_some {i : Nat} (found : first word text = some i) :
    OccursAt word text i ∧ ∀ j < i, ¬ OccursAt word text j := by
  induction text generalizing i with
  | nil =>
    rw [first] at found
    split at found
    · rename_i empty
      cases found
      exact ⟨empty ▸ List.nil_prefix, fun j less => absurd less (Nat.not_lt_zero j)⟩
    · cases found
  | cons a text ih =>
    rw [first] at found
    split at found
    · rename_i here
      cases found
      exact ⟨here, fun j less => absurd less (Nat.not_lt_zero j)⟩
    rename_i other
    obtain ⟨i, later, rfl⟩ := Option.map_eq_some_iff.mp found
    obtain ⟨occurs, least⟩ := ih later
    refine ⟨occurs, fun j less => ?_⟩
    cases j with
    | zero => exact other
    | succ j => exact least j (Nat.lt_of_succ_lt_succ less)

lemma first_none (none_found : first word text = none) (i : Nat) (inside : i ≤ text.length) :
    ¬ OccursAt word text i := by
  induction text generalizing i with
  | nil =>
    rw [first] at none_found
    split at none_found
    · cases none_found
    rename_i some_word
    rintro ⟨rest, whole⟩
    rw [List.drop_nil] at whole
    exact some_word (List.append_eq_nil_iff.mp whole).1
  | cons a text ih =>
    rw [first] at none_found
    split at none_found
    · cases none_found
    rename_i other
    cases i with
    | zero => exact other
    | succ i =>
      exact ih (Option.map_eq_none_iff.mp none_found) i (Nat.le_of_succ_le_succ inside)

lemma hits_occurs {fuel start : Nat} {h : Hit} (member : h ∈ hits word text fuel start) :
    start ≤ h.place ∧ OccursAt word text h.place ∧ (h.place = start → h.touches) := by
  induction fuel generalizing start with
  | zero => exact absurd member List.not_mem_nil
  | succ fuel ih =>
    rw [hits] at member
    cases found : first word (text.drop start) with
    | none =>
      rw [found] at member
      exact absurd member List.not_mem_nil
    | some d =>
      rw [found] at member
      rcases List.mem_cons.mp member with rfl | later
      · refine ⟨Nat.le_add_right _ _, occursAt_drop.mp (first_some found).1, fun same => ?_⟩
        dsimp only at same
        exact decide_eq_true (by omega)
      · obtain ⟨behind, occurs, touches⟩ := ih later
        refine ⟨by omega, occurs, fun same => touches (by omega)⟩

lemma hits_pairwise (fuel start : Nat) :
    (hits word text fuel start).Pairwise fun h h' => h.place + word.length ≤ h'.place := by
  induction fuel generalizing start with
  | zero => exact List.Pairwise.nil
  | succ fuel ih =>
    rw [hits]
    cases first word (text.drop start) with
    | none => exact List.Pairwise.nil
    | some d => exact List.pairwise_cons.mpr ⟨fun h member => (hits_occurs member).1, ih _⟩

lemma exists_hit {fuel start q : Nat} (enough : text.length < start + fuel) (le : start ≤ q)
    (nonempty : word ≠ []) (occurs : OccursAt word text q)
    (free : ∀ p < q, q < p + word.length → ¬ OccursAt word text p) :
    ∃ h ∈ hits word text fuel start, h.place = q := by
  have pos := List.length_pos_iff.mpr nonempty
  have inside := occurs.end_le nonempty
  induction fuel generalizing start with
  | zero => omega
  | succ fuel ih =>
    rw [hits]
    have there : OccursAt word (text.drop start) (q - start) := by
      rw [occursAt_drop, Nat.add_sub_of_le le]
      exact occurs
    cases found : first word (text.drop start) with
    | none =>
      refine absurd there (first_none found _ ?_)
      rw [List.length_drop]
      omega
    | some d =>
      obtain ⟨here, least⟩ := first_some found
      rw [occursAt_drop] at here
      have before : d ≤ q - start := not_lt.mp fun less => least _ less there
      by_cases same : start + d = q
      · exact ⟨_, List.mem_cons_self, same⟩
      have apart : start + d + word.length ≤ q :=
        not_lt.mp fun reaches => free (start + d) (by omega) reaches here
      obtain ⟨h, member, place⟩ := ih (by omega) apart
      exact ⟨h, List.mem_cons_of_mem _ member, place⟩

variable {l : List Hit}

lemma find?_eq_some_iff (ordered : l.Pairwise fun h h' => h.place < h'.place) {p : Hit → Bool}
    {h : Hit} :
    l.find? p = some h ↔ h ∈ l ∧ p h ∧ ∀ h' ∈ l, p h' → h.place ≤ h'.place := by
  induction l with
  | nil => exact iff_of_false (by simp) (by simp)
  | cons a l ih =>
    obtain ⟨behind, rest⟩ := List.pairwise_cons.mp ordered
    by_cases here : p a
    · rw [List.find?_cons_of_pos here]
      constructor
      · rintro same
        cases same
        refine ⟨List.mem_cons_self, here, fun h' member _ => ?_⟩
        rcases List.mem_cons.mp member with rfl | later
        · exact le_rfl
        · exact le_of_lt (behind h' later)
      · rintro ⟨member, -, least⟩
        rcases List.mem_cons.mp member with rfl | later
        · rfl
        · have := behind h later
          have := least a List.mem_cons_self here
          omega
    · rw [List.find?_cons_of_neg here, ih rest]
      constructor
      · rintro ⟨member, kind, least⟩
        refine ⟨List.mem_cons_of_mem a member, kind, fun h' member' kind' => ?_⟩
        rcases List.mem_cons.mp member' with rfl | later
        · exact absurd kind' here
        · exact least h' later kind'
      · rintro ⟨member, kind, least⟩
        rcases List.mem_cons.mp member with rfl | later
        · exact absurd kind here
        · exact ⟨later, kind, fun h' inside => least h' (List.mem_cons_of_mem a inside)⟩

lemma mem_takeWhile_iff (ordered : l.Pairwise fun h h' => h.place < h'.place) {n bound : Nat}
    {h : Hit} : h ∈ l.takeWhile (·.place + n ≤ bound) ↔ h ∈ l ∧ h.place + n ≤ bound := by
  induction l with
  | nil => exact iff_of_false List.not_mem_nil fun ⟨member, _⟩ => List.not_mem_nil member
  | cons a l ih =>
    obtain ⟨behind, rest⟩ := List.pairwise_cons.mp ordered
    by_cases inside : a.place + n ≤ bound
    · rw [List.takeWhile_cons_of_pos (by simpa using inside), List.mem_cons, List.mem_cons, ih rest]
      constructor
      · rintro (rfl | ⟨later, le⟩)
        · exact ⟨.inl rfl, inside⟩
        · exact ⟨.inr later, le⟩
      · rintro ⟨rfl | later, le⟩
        · exact .inl rfl
        · exact .inr ⟨later, le⟩
    · rw [List.takeWhile_cons_of_neg (by simpa using inside)]
      refine iff_of_false List.not_mem_nil fun ⟨member, le⟩ => ?_
      rcases List.mem_cons.mp member with rfl | later
      · exact inside le
      · have := behind h later
        omega

end Occurrences
