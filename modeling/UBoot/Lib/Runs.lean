import Mathlib.Data.List.Basic

/-!
# Runs of a fallible step function

A step that returns `none` has left the behaviour the model describes. A
condition on steps is always read in the state before the step, along the run
that actually reaches that state.
-/

namespace Runs

universe u v
variable {σ : Type u} {ι : Type v}

variable {step : σ → ι → Option σ} {s : σ} {is : List ι} {ok : σ → ι → Prop} {inv : σ → Prop}

def runFrom (step : σ → ι → Option σ) : σ → List ι → Option σ
  | s, [] => some s
  | s, i :: rest => match step s i with
    | none => none
    | some t => runFrom step t rest

/-- Every step of the run is taken in a state in which `ok` holds of it. -/
def StepsMeet (step : σ → ι → Option σ) (ok : σ → ι → Prop) : σ → List ι → Prop
  | _, [] => True
  | s, i :: rest => ok s i ∧ ∀ t, step s i = some t → StepsMeet step ok t rest

@[simp] theorem runFrom_nil (step : σ → ι → Option σ) (s : σ) :
    runFrom step s [] = some s := rfl

lemma runFrom_cons {t : σ} {i : ι} (h : step s i = some t) (rest : List ι) :
    runFrom step s (i :: rest) = runFrom step t rest := by
  simp only [runFrom, h]

lemma runFrom_total (step : σ → ι → σ) (s : σ) (is : List ι) :
    runFrom (fun s i => some (step s i)) s is = some (is.foldl step s) := by
  induction is generalizing s with
  | nil => rfl
  | cons i rest ih => exact ih (step s i)

lemma runFrom_append (step : σ → ι → Option σ) (s : σ) (is js : List ι) :
    runFrom step s (is ++ js) = (runFrom step s is).bind (fun t => runFrom step t js) := by
  induction is generalizing s with
  | nil => rfl
  | cons i rest ih =>
    cases h : step s i with
    | none => simp [runFrom, h]
    | some t => simpa [runFrom, h] using ih t

lemma runFrom_concat {t : σ} {i : ι} :
    runFrom step s (is ++ [i]) = some t ↔ ∃ r, runFrom step s is = some r ∧ step r i = some t := by
  rw [runFrom_append, Option.bind_eq_some_iff]
  refine exists_congr fun r => and_congr_right fun _ => ?_
  cases h : step r i with
  | none => simp [runFrom, h]
  | some q => simp [runFrom, h]

@[simp] theorem stepsMeet_nil (step : σ → ι → Option σ) (ok : σ → ι → Prop) (s : σ) :
    StepsMeet step ok s [] := trivial

lemma stepsMeet_cons {t : σ} {i : ι} (h : step s i = some t) (rest : List ι) :
    StepsMeet step ok s (i :: rest) ↔ ok s i ∧ StepsMeet step ok t rest := by
  simp [StepsMeet, h]

instance decidableStepsMeet {step : σ → ι → Option σ} {ok : σ → ι → Prop}
    [∀ s i, Decidable (ok s i)] : ∀ s is, Decidable (StepsMeet step ok s is)
  | _, [] => isTrue trivial
  | s, i :: rest => match h : step s i with
    | none => decidable_of_iff (ok s i) (by simp [StepsMeet, h])
    | some t =>
      have : Decidable (StepsMeet step ok t rest) := decidableStepsMeet t rest
      decidable_of_iff _ (stepsMeet_cons h rest).symm

lemma stepsMeet_of_forall (h : ∀ s i, ok s i) (s : σ) (is : List ι) : StepsMeet step ok s is := by
  induction is generalizing s with
  | nil => trivial
  | cons i rest ih => exact ⟨h s i, fun t _ => ih t⟩

lemma stepsMeet_and {p q : σ → ι → Prop} (hp : StepsMeet step p s is) (hq : StepsMeet step q s is)
    :
    StepsMeet step (fun s i => p s i ∧ q s i) s is := by
  induction is generalizing s with
  | nil => trivial
  | cons i rest ih => exact ⟨⟨hp.1, hq.1⟩, fun t ht => ih (hp.2 t ht) (hq.2 t ht)⟩

lemma stepsMeet_append {js : List ι} :
    StepsMeet step ok s (is ++ js) ↔ StepsMeet step ok s is ∧
      ∀ t, runFrom step s is = some t → StepsMeet step ok t js := by
  induction is generalizing s with
  | nil => simp
  | cons i rest ih =>
    cases h : step s i with
    | none => simp [StepsMeet, runFrom, h]
    | some t => simp [StepsMeet, runFrom, h, ih, and_assoc]

lemma invariant_of_run (preserved : ∀ s i, inv s → ok s i → ∃ t, step s i = some t ∧ inv t)
    (start : inv s) (meet : StepsMeet step ok s is) :
    ∃ t, runFrom step s is = some t ∧ inv t := by
  induction is generalizing s with
  | nil => exact ⟨s, rfl, start⟩
  | cons i rest ih =>
    obtain ⟨t, ht, hinv⟩ := preserved s i start meet.1
    rw [runFrom_cons ht]
    exact ih hinv (meet.2 t ht)

lemma invariant_of_total (preserved : ∀ s i, inv s → ∃ t, step s i = some t ∧ inv t)
    (start : inv s) (is : List ι) : ∃ t, runFrom step s is = some t ∧ inv t :=
  invariant_of_run (fun s i hinv _ => preserved s i hinv) start
    (stepsMeet_of_forall (fun _ _ => trivial) s is : StepsMeet step (fun _ _ => True) s is)

lemma stepsMeet_iff {good : σ → Prop} (inv : σ → Prop)
    (stuck : ∀ s i, inv s → step s i = none → ok s i)
    (exact_ : ∀ s i t, inv s → good s → step s i = some t → (ok s i ↔ good t))
    (kept : ∀ s i t, inv s → good s → step s i = some t → inv t) (hinv : inv s) (hgood : good s)
    (is : List ι) :
    StepsMeet step ok s is ↔
      ∀ done todo, is = done ++ todo → ∀ t, runFrom step s done = some t → good t := by
  induction is generalizing s with
  | nil =>
    refine ⟨fun _ done todo split t hrun => ?_, fun _ => trivial⟩
    obtain ⟨rfl, -⟩ := List.append_eq_nil_iff.mp split.symm
    obtain rfl : s = t := Option.some.inj hrun
    exact hgood
  | cons i rest ih =>
    cases hstep : step s i with
    | none =>
      constructor
      · rintro - done todo split t hrun
        cases done with
        | nil =>
          obtain rfl : s = t := Option.some.inj hrun
          exact hgood
        | cons j done =>
          obtain ⟨rfl, -⟩ := List.cons.inj split
          simp [runFrom, hstep] at hrun
      · intro _
        exact ⟨stuck s i hinv hstep, fun t ht => by simp [hstep] at ht⟩
    | some u =>
      have hok := exact_ s i u hinv hgood hstep
      rw [stepsMeet_cons hstep]
      constructor
      · rintro ⟨hmeet, hrest⟩ done todo split t hrun
        cases done with
        | nil =>
          obtain rfl : s = t := Option.some.inj hrun
          exact hgood
        | cons j done =>
          obtain ⟨rfl, hsplit⟩ := List.cons.inj split
          rw [runFrom_cons hstep] at hrun
          exact (ih (kept s i u hinv hgood hstep) (hok.mp hmeet)).mp hrest done todo hsplit t hrun
      · intro all
        have hu : good u := all [i] rest rfl u (by rw [runFrom_cons hstep]; rfl)
        refine ⟨hok.mpr hu, (ih (kept s i u hinv hgood hstep) hu).mpr ?_⟩
        intro done todo split t hrun
        exact all (i :: done) todo (by rw [split]; rfl) t (by rw [runFrom_cons hstep]; exact hrun)

lemma stepsMeet_congr {step : σ → ι → Option σ} {p q : σ → ι → Prop} {inv : σ → Prop}
    (kept : ∀ s i t, inv s → step s i = some t → inv t)
    (same : ∀ s i, inv s → (p s i ↔ q s i)) {s : σ} (start : inv s) (is : List ι) :
    StepsMeet step p s is ↔ StepsMeet step q s is := by
  induction is generalizing s with
  | nil => exact Iff.rfl
  | cons i rest ih =>
    constructor
    · rintro ⟨head, tail⟩
      exact ⟨(same s i start).mp head, fun t ht => (ih (kept s i t start ht)).mp (tail t ht)⟩
    · rintro ⟨head, tail⟩
      exact ⟨(same s i start).mpr head, fun t ht => (ih (kept s i t start ht)).mpr (tail t ht)⟩

lemma stepsMeet_of_invariant {step : σ → ι → Option σ} {p q : σ → ι → Prop} {inv : σ → Prop}
    (kept : ∀ s i t, inv s → p s i → step s i = some t → inv t)
    (implied : ∀ s i, inv s → p s i → q s i) {s : σ} (start : inv s) {is : List ι}
    (meet : StepsMeet step p s is) : StepsMeet step q s is := by
  induction is generalizing s with
  | nil => trivial
  | cons i rest ih =>
    exact ⟨implied s i start meet.1,
      fun t ht => ih (kept s i t start meet.1 ht) (meet.2 t ht)⟩

lemma arrives_iff (preserved : ∀ s i, inv s → ok s i → ∃ t, step s i = some t ∧ inv t)
    (leaves : ∀ s i, inv s → ¬ ok s i → step s i = none) (start : inv s) (is : List ι) :
    (∃ t, runFrom step s is = some t) ↔ StepsMeet step ok s is := by
  constructor
  · intro arrives
    induction is generalizing s with
    | nil => trivial
    | cons i rest ih =>
      have good : ok s i := by
        apply Classical.byContradiction
        intro bad
        obtain ⟨t, ht⟩ := arrives
        simp [runFrom, leaves s i start bad] at ht
      obtain ⟨t, ht, hinv⟩ := preserved s i start good
      rw [runFrom_cons ht] at arrives
      exact (stepsMeet_cons ht rest).mpr ⟨good, ih hinv arrives⟩
  · intro meet
    obtain ⟨t, ht, -⟩ := invariant_of_run preserved start meet
    exact ⟨t, ht⟩

lemma invariant_of_arrival (preserved : ∀ s i t, inv s → ok s i → step s i = some t → inv t)
    {t : σ} (start : inv s) (meet : StepsMeet step ok s is) (arrives : runFrom step s is = some t) :
    inv t := by
  induction is generalizing s with
  | nil => exact Option.some.inj arrives ▸ start
  | cons i rest ih =>
    cases h : step s i with
    | none => simp [runFrom, h] at arrives
    | some r =>
      rw [runFrom_cons h] at arrives
      exact ih (preserved s i r start meet.1 h) (meet.2 r h) arrives

end Runs
