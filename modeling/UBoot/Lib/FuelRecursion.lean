import Mathlib.Data.Fintype.Card
import Mathlib.Data.Fintype.EquivFin
import Mathlib.Logic.Relation

/-!
# Recursions that are run on fuel

A recursion is given by the calls each of its arguments makes. It returns exactly for the accessible
arguments; over a finite type these are the arguments from which no call leads back to itself.
-/

namespace FuelRecursion

open Relation

variable {α β γ : Type}

def Calls (next : α → List α) (a b : α) : Prop := b ∈ next a

def Ends (next : α → List α) (a : α) : Prop := Acc (fun b a => Calls next a b) a

/-- No argument that is reached from `a` is called again below itself. -/
def NoReturn (next : α → List α) (a : α) : Prop :=
  ∀ b, ReflTransGen (Calls next) a b → ¬ TransGen (Calls next) b b

variable {next : α → List α}

lemma ends_iff (a : α) : Ends next a ↔ ∀ b ∈ next a, Ends next b := by
  constructor
  · intro ends b mem
    exact ends.inv mem
  · exact fun below => Acc.intro a below

variable {run : Nat → α → Option β} {a : α}

/-- With fuel for its own call an argument returns if those it calls do with the fuel that is
left. -/
structure Runs (next : α → List α) (run : Nat → α → Option β) : Prop where
  empty : ∀ a, run 0 a = none
  call : ∀ fuel a, run (fuel + 1) a ≠ none ↔ ∀ b ∈ next a, run fuel b ≠ none

lemma Runs.succ (runs : Runs next run) {fuel : Nat} (returns : run fuel a ≠ none) :
    run (fuel + 1) a ≠ none := by
  induction fuel generalizing a with
  | zero => exact absurd (runs.empty a) returns
  | succ fuel ih =>
    rw [runs.call] at returns ⊢
    exact fun b mem => ih (returns b mem)

lemma Runs.mono (runs : Runs next run) {fuel fuel' : Nat} (more : fuel ≤ fuel')
    (returns : run fuel a ≠ none) : run fuel' a ≠ none := by
  induction more with
  | refl => exact returns
  | step _ ih => exact runs.succ ih

lemma Runs.common (runs : Runs next run) (as : List α) (each : ∀ a ∈ as, ∃ fuel, run fuel a ≠ none)
    : ∃ fuel, ∀ a ∈ as, run fuel a ≠ none := by
  induction as with
  | nil => exact ⟨0, fun a mem => (List.not_mem_nil mem).elim⟩
  | cons a as ih =>
    obtain ⟨first, head⟩ := each a List.mem_cons_self
    obtain ⟨rest, tail⟩ := ih (fun b mem => each b (List.mem_cons_of_mem a mem))
    refine ⟨max first rest, fun b mem => ?_⟩
    rcases List.mem_cons.mp mem with rfl | mem
    · exact runs.mono (Nat.le_max_left first rest) head
    · exact runs.mono (Nat.le_max_right first rest) (tail b mem)

lemma Runs.returns_iff (runs : Runs next run) (a : α) :
    (∃ fuel, run fuel a ≠ none) ↔ Ends next a := by
  constructor
  · rintro ⟨fuel, returns⟩
    induction fuel generalizing a with
    | zero => exact absurd (runs.empty a) returns
    | succ fuel ih => exact (ends_iff a).mpr fun b mem => ih b ((runs.call fuel a).mp returns b mem)
  · intro ends
    induction ends with
    | intro a _ ih =>
      obtain ⟨fuel, all⟩ := runs.common (next a) ih
      exact ⟨fuel + 1, (runs.call fuel a).mpr all⟩

/-- If no result changes with one more unit of fuel, there is only one. -/
lemma result_unique (more : ∀ fuel a b, run fuel a = some b → run (fuel + 1) a = some b)
    {fuel fuel' : Nat} {b b' : β} (first : run fuel a = some b) (second : run fuel' a = some b') :
    b = b' := by
  have kept {fuel fuel' : Nat} {b : β} (le : fuel ≤ fuel') (result : run fuel a = some b) :
      run fuel' a = some b := by
    induction le with
    | refl => exact result
    | step _ ih => exact more _ _ _ ih
  rcases Nat.le_total fuel fuel' with le | le
  · exact Option.some.inj ((kept le first).symm.trans second)
  · exact Option.some.inj (first.symm.trans (kept le second))

lemma Ends.simulated {next' : γ → List γ} {R : α → γ → Prop}
    (step : ∀ a c, R a c → ∀ c' ∈ next' c, ∃ a' ∈ next a, R a' c') {c : γ} (related : R a c)
    (ends : Ends next a) : Ends next' c := by
  induction ends generalizing c with
  | intro a _ ih =>
    refine (ends_iff c).mpr fun c' mem => ?_
    obtain ⟨a', called, related'⟩ := step a c related c' mem
    exact ih a' called related'

lemma Ends.reached {b : α} (ends : Ends next a) (path : ReflTransGen (Calls next) a b) :
    Ends next b := by
  induction path with
  | refl => exact ends
  | tail _ last ih => exact ih.inv last

lemma Ends.not_called_again (ends : Ends next a) : ¬ TransGen (Calls next) a a := by
  induction ends with
  | intro a _ ih =>
    intro cycle
    obtain ⟨b, first, path⟩ := TransGen.head'_iff.mp cycle
    exact ih b first (TransGen.tail' path first)

lemma not_ends_of_loop {b : α} (first : b ∈ next a) (again : b ∈ next b) : ¬ Ends next a := by
  intro ends
  exact ((ends_iff a).mp ends b first).not_called_again (TransGen.single again)

abbrev Reached (next : α → List α) (a : α) : Type := { b // ReflTransGen (Calls next) a b }

def Below (next : α → List α) (a : α) (c b : Reached next a) : Prop :=
  TransGen (Calls next) b.val c.val

lemma ends_iff_noReturn [Finite α] (a : α) : Ends next a ↔ NoReturn next a := by
  constructor
  · exact fun ends b path => (ends.reached path).not_called_again
  · intro fresh
    have transitive : IsTrans (Reached next a) (Below next a) :=
      ⟨fun _ _ _ later sooner => TransGen.trans sooner later⟩
    have irreflexive : Std.Irrefl (Below next a) := ⟨fun b => fresh b.val b.property⟩
    have founded : WellFounded (Below next a) := Finite.wellFounded_of_trans_of_irrefl _
    have each (b : Reached next a) : Ends next b.val := by
      induction b using founded.induction with
      | _ b ih =>
        refine (ends_iff b.val).mpr fun c mem => ?_
        exact ih ⟨c, b.property.tail mem⟩ (TransGen.single mem)
    exact each ⟨a, .refl⟩

end FuelRecursion
