import UBoot.Lib.Runs

/-!
# Programs that ask

A program asks its environment and goes on with the reply; it ends with a result or at a fault.
A condition on replies is exact if the faults come with the replies that do not meet it, and with
no others.
-/

namespace Dialogue

open Runs

/-- `κ` are the questions, `ρ` the replies, `ε` the faults. -/
inductive Prog (κ ρ ε α : Type) where
  | done (a : α)
  | fault (e : ε)
  | ask (q : κ) (next : ρ → Prog κ ρ ε α)

variable {κ ρ ε α β : Type}

namespace Prog

def bind : Prog κ ρ ε α → (α → Prog κ ρ ε β) → Prog κ ρ ε β
  | .done a, f => f a
  | .fault e, _ => .fault e
  | .ask q next, f => .ask q fun r => (next r).bind f

instance : Monad (Prog κ ρ ε) where
  pure := .done
  bind := Prog.bind

@[simp] lemma done_bind (a : α) (f : α → Prog κ ρ ε β) : Prog.done a >>= f = f a := rfl

@[simp] lemma fault_bind (e : ε) (f : α → Prog κ ρ ε β) : Prog.fault e >>= f = .fault e := rfl

@[simp] lemma ask_bind (q : κ) (next : ρ → Prog κ ρ ε α) (f : α → Prog κ ρ ε β) :
    Prog.ask q next >>= f = .ask q fun r => next r >>= f := rfl

def step : Prog κ ρ ε α → ρ → Option (Prog κ ρ ε α)
  | .ask _ next, r => some (next r)
  | .done _, _ => none
  | .fault _, _ => none

def Meets (ok : κ → ρ → Prop) : Prog κ ρ ε α → ρ → Prop
  | .ask q _, r => ok q r
  | .done _, _ => True
  | .fault _, _ => True

def Exact (ok : κ → ρ → Prop) (post : α → Prop) : Prog κ ρ ε α → Prop
  | .done a => post a
  | .fault _ => False
  | .ask q next => ∀ r, (ok q r → Exact ok post (next r)) ∧ (¬ok q r → ∃ e, next r = .fault e)

def first (replies : Nat → ρ) (n : Nat) : List ρ := (List.range n).map replies

lemma first_succ (replies : Nat → ρ) (n : Nat) :
    first replies (n + 1) = replies 0 :: first (fun i => replies (i + 1)) n := by
  rw [first, List.range_succ_eq_map, List.map_cons, List.map_map]
  rfl

def Returns (p : Prog κ ρ ε α) (replies : Nat → ρ) : Prop :=
  ∃ n a, runFrom step p (first replies n) = some (.done a)

variable {ok : κ → ρ → Prop} {post : α → Prop}

variable {p : Prog κ ρ ε α}

variable {replies : Nat → ρ}

lemma Exact.mono {post' : α → Prop} (exact : Exact ok post p) (weaker : ∀ a, post a → post' a) :
    Exact ok post' p := by
  induction p with
  | done a => exact weaker a exact
  | fault e => exact exact.elim
  | ask q next ih => exact fun r => ⟨fun meets => ih r ((exact r).1 meets), (exact r).2⟩

lemma Exact.bind {post' : β → Prop} {f : α → Prog κ ρ ε β} (exact : Exact ok post p)
    (rest : ∀ a, post a → Exact ok post' (f a)) :
    Exact ok post' (p >>= f) := by
  induction p with
  | done a => exact rest a exact
  | fault e => exact exact.elim
  | ask q next ih =>
    intro r
    refine ⟨fun meets => ih r ((exact r).1 meets), fun fails => ?_⟩
    obtain ⟨e, stopped⟩ := (exact r).2 fails
    refine ⟨e, ?_⟩
    change next r >>= f = .fault e
    rw [stopped]
    rfl

lemma exact_ask {q : κ} {next : ρ → Prog κ ρ ε α} (all : ∀ r, ok q r)
    (exact : ∀ r, Exact ok post (next r)) : Exact ok post (.ask q next) :=
  fun r => ⟨fun _ => exact r, fun fails => absurd (all r) fails⟩

lemma returns_ask {q : κ} {next : ρ → Prog κ ρ ε α} :
    Returns (.ask q next) replies ↔ Returns (next (replies 0)) fun i => replies (i + 1) := by
  constructor
  · rintro ⟨n, a, run⟩
    cases n with
    | zero => cases run
    | succ n =>
      rw [first_succ, runFrom_cons (rfl : step (.ask q next) (replies 0) = _)] at run
      exact ⟨n, a, run⟩
  · rintro ⟨n, a, run⟩
    refine ⟨n + 1, a, ?_⟩
    rw [first_succ, runFrom_cons (rfl : step (.ask q next) (replies 0) = _)]
    exact run

lemma not_returns_fault {e : ε} :
    ¬Returns (.fault e : Prog κ ρ ε α) replies := by
  rintro ⟨n, a, run⟩
  cases n with
  | zero => cases run
  | succ n =>
    rw [first_succ] at run
    cases run

lemma returns_iff (exact : Exact ok post p) (replies : Nat → ρ) :
    Returns p replies ↔ ∀ n, StepsMeet step (Meets ok) p (first replies n) := by
  induction p generalizing replies with
  | done a =>
    refine iff_of_true ⟨0, a, rfl⟩ fun n => ?_
    cases n with
    | zero => trivial
    | succ n =>
      rw [first_succ]
      exact ⟨trivial, nofun⟩
  | fault e => exact exact.elim
  | ask q next ih =>
    rw [returns_ask]
    by_cases meets : ok q (replies 0)
    · rw [ih _ ((exact (replies 0)).1 meets)]
      constructor
      · intro later n
        cases n with
        | zero => trivial
        | succ n =>
          rw [first_succ]
          refine ⟨meets, ?_⟩
          rintro _ ⟨⟩
          exact later n
      · intro all n
        have now := all (n + 1)
        rw [first_succ] at now
        exact now.2 _ rfl
    · obtain ⟨e, stopped⟩ := (exact (replies 0)).2 meets
      rw [stopped]
      refine iff_of_false not_returns_fault fun all => ?_
      have now := all 1
      rw [first_succ] at now
      exact meets now.1

lemma not_returns_of_fault {n : Nat} {e : ε}
    (run : runFrom step p (first replies n) = some (.fault e)) : ¬Returns p replies := by
  induction n generalizing p replies with
  | zero =>
    cases run
    exact not_returns_fault
  | succ n ih =>
    rw [first_succ] at run
    cases p with
    | done a => cases run
    | fault e' => cases run
    | ask q next => exact fun returns => ih run (returns_ask.mp returns)

/-! ## Results

What a program that asks comes to, when its environment keeps to some rules. -/

variable {allows kind : κ → ρ → Prop}

variable {replies : Nat → κ → ρ}

def Ensures (allows : κ → ρ → Prop) (post : α → Prop) : Prog κ ρ ε α → Prop
  | .done a => post a
  | .fault _ => False
  | .ask q next => ∀ r, allows q r → Ensures allows post (next r)

lemma Ensures.mono {post' : α → Prop} (ensures : Ensures allows post p)
    (weaker : ∀ a, post a → post' a) : Ensures allows post' p := by
  induction p with
  | done a => exact weaker a ensures
  | fault e => exact ensures.elim
  | ask q next ih => exact fun r allowed => ih r (ensures r allowed)

lemma Ensures.bind {post' : β → Prop} {f : α → Prog κ ρ ε β} (ensures : Ensures allows post p)
    (rest : ∀ a, post a → Ensures allows post' (f a)) :
    Ensures allows post' (p >>= f) := by
  induction p with
  | done a => exact rest a ensures
  | fault e => exact ensures.elim
  | ask q next ih => exact fun r allowed => ih r (ensures r allowed)

lemma ensures_true (p : Prog κ ρ Empty α) : Ensures allows (fun _ => True) p := by
  induction p with
  | done a => trivial
  | fault e => exact e.elim
  | ask q next ih => exact fun r _ => ih r

def Obeys (kind : κ → ρ → Prop) : Prog κ ρ ε α → (Nat → κ → ρ) → Prop
  | .done _, _ => True
  | .fault _, _ => True
  | .ask q next, replies =>
    kind q (replies 0 q) ∧ Obeys kind (next (replies 0 q)) fun i => replies (i + 1)

lemma Obeys.of_forall (all : ∀ i q, kind q (replies i q)) : Obeys kind p replies := by
  induction p generalizing replies with
  | done a => trivial
  | fault e => trivial
  | ask q next ih => exact ⟨all 0 q, ih _ fun i q' => all (i + 1) q'⟩

lemma Obeys.mono {kind' : κ → ρ → Prop} (obeys : Obeys kind p replies)
    (weaker : ∀ q r, kind q r → kind' q r) :
    Obeys kind' p replies := by
  induction p generalizing replies with
  | done a => trivial
  | fault e => trivial
  | ask q next ih => exact ⟨weaker q _ obeys.1, ih _ obeys.2⟩

lemma Obeys.and {kind' : κ → ρ → Prop} (one : Obeys kind p replies) (other : Obeys kind' p replies)
    :
    Obeys (fun q r => kind q r ∧ kind' q r) p replies := by
  induction p generalizing replies with
  | done a => trivial
  | fault e => trivial
  | ask q next ih => exact ⟨⟨one.1, other.1⟩, ih _ one.2 other.2⟩

def result : Prog κ ρ Empty α → (Nat → κ → ρ) → α
  | .done a, _ => a
  | .fault e, _ => e.elim
  | .ask q next, replies => result (next (replies 0 q)) fun i => replies (i + 1)

lemma Ensures.result {p : Prog κ ρ Empty α} (ensures : Ensures allows post p)
    (obeys : Obeys allows p replies) :
    post (p.result replies) := by
  induction p generalizing replies with
  | done a => exact ensures
  | fault e => exact e.elim
  | ask q next ih => exact ih _ (ensures _ obeys.1) obeys.2

def outcome : Prog κ ρ ε α → (Nat → κ → ρ) → Except ε α
  | .done a, _ => .ok a
  | .fault e, _ => .error e
  | .ask q next, replies => outcome (next (replies 0 q)) fun i => replies (i + 1)

lemma Ensures.outcome (ensures : Ensures allows post p) (obeys : Obeys allows p replies) :
    ∃ a, p.outcome replies = .ok a ∧ post a := by
  induction p generalizing replies with
  | done a => exact ⟨a, rfl, ensures⟩
  | fault e => exact ensures.elim
  | ask q next ih => exact ih _ (ensures _ obeys.1) obeys.2

end Prog

end Dialogue
