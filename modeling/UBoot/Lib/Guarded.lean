import Mathlib.Logic.Basic

/-!
# Reads that are guarded by a bound

A read outside its bound is `none`, and so is everything that goes on from it. A chain of such
reads is there if and only if all its bounds are met.
-/

namespace Guarded

variable {α β : Type} {c : Prop} [Decidable c]

lemma bind_ne_none {x : α} {f : α → Option β} :
    (if c then some x else none).bind f ≠ none ↔ c ∧ f x ≠ none := by
  by_cases inside : c
  · rw [if_pos inside, Option.bind_some]
    exact ⟨fun found => ⟨inside, found⟩, fun both => both.2⟩
  · rw [if_neg inside]
    exact ⟨fun found => absurd rfl found, fun both => absurd both.1 inside⟩

lemma map_ne_none {x : α} {f : α → β} : (if c then some x else none).map f ≠ none ↔ c := by
  by_cases inside : c
  · rw [if_pos inside]
    exact ⟨fun _ => inside, fun _ => Option.some_ne_none _⟩
  · rw [if_neg inside]
    exact ⟨fun found => absurd rfl found, fun here => absurd here inside⟩

lemma check_ne_none {rest : Option α} : (if c then none else rest) ≠ none ↔ ¬ c ∧ rest ≠ none := by
  by_cases outside : c
  · rw [if_pos outside]
    exact ⟨fun found => absurd rfl found, fun both => absurd outside both.1⟩
  · rw [if_neg outside]
    exact ⟨fun found => ⟨outside, found⟩, fun both => both.2⟩

lemma check_some_ne_none {x : α} : (if c then none else some x) ≠ none ↔ ¬ c := by
  rw [check_ne_none]
  exact and_iff_left (Option.some_ne_none x)

lemma exists_of_bind {x : Option α} {f : α → Option β} :
    x.bind f ≠ none ↔ ∃ v, x = some v ∧ f v ≠ none := by
  cases x with
  | none => simp
  | some v => simp

lemma mapM_ne_none (f : α → Option β) (as : List α) :
    as.mapM f ≠ none ↔ ∀ a ∈ as, f a ≠ none := by
  induction as with
  | nil => simp
  | cons a as ih =>
    rw [List.forall_mem_cons, ← ih, List.mapM_cons]
    cases f a with
    | none => simp
    | some b => cases as.mapM f <;> simp

lemma mapM_some_of_some {f g : α → Option β} (as : List α) (bs : List β)
    (same : ∀ a b, f a = some b → g a = some b) (found : as.mapM f = some bs) :
    as.mapM g = some bs := by
  induction as generalizing bs with
  | nil => exact found
  | cons a as ih =>
    rw [List.mapM_cons] at found ⊢
    obtain ⟨b, first, found⟩ := Option.bind_eq_some_iff.mp found
    obtain ⟨bs', rest, all⟩ := Option.bind_eq_some_iff.mp found
    rw [same a b first, Option.bind_eq_bind, Option.bind_some, ih bs' rest]
    exact all

end Guarded
