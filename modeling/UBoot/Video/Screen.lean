import UBoot.Lib.ByteOrder

/-!
# The frame buffer (include/video_fb.h)

The screen is memory behind the first byte of the frame buffer. What is stored and loaded is kept,
so that it can be said where it is.
-/

namespace Video

inductive Format where
  | index8
  | rgb555
  | rgb565
  | x888
  | rgb888
  | rgb332
  deriving DecidableEq

def Format.bytesPP : Format → Nat
  | .index8 => 1
  | .rgb555 => 2
  | .rgb565 => 2
  | .x888 => 4
  | .rgb888 => 3
  | .rgb332 => 1

/-- The frame buffer, and each range of bytes that was looked at or written. -/
structure Screen where
  frame : Int → UInt8
  touched : List (Int × Nat)

def Screen.store (s : Screen) (p : Int) (n w : Nat) : Screen where
  frame a := if p ≤ a ∧ a < p + n then LittleEndian.byte w (a - p).toNat else s.frame a
  touched := s.touched ++ [(p, n)]

def Screen.word (s : Screen) (p : Int) : Nat := LittleEndian.word 4 fun i => s.frame (p + i)

def Screen.looked (s : Screen) (p : Int) : Screen := { s with touched := s.touched ++ [(p, 4)] }

/-- From one screen to another nothing is touched but from `low` to `high`. -/
structure Within (low high : Int) (s s' : Screen) : Prop where
  touched : ∀ r ∈ s'.touched, r ∈ s.touched ∨ low ≤ r.1 ∧ r.1 + r.2 ≤ high
  frame : ∀ a, a < low ∨ high ≤ a → s'.frame a = s.frame a

variable {low high : Int} {s s' s'' : Screen}

lemma Within.refl (s : Screen) : Within low high s s := ⟨fun _ here => .inl here, fun _ _ => rfl⟩

lemma Within.trans (first : Within low high s s') (second : Within low high s' s'') :
    Within low high s s'' := by
  constructor
  · intro r here
    rcases second.touched r here with before | inside
    · exact first.touched r before
    · exact .inr inside
  · intro a outside
    rw [second.frame a outside, first.frame a outside]

lemma Within.store (s : Screen) {p : Int} {n : Nat} (w : Nat) (above : low ≤ p)
    (below : p + n ≤ high) : Within low high s (s.store p n w) := by
  constructor
  · intro r here
    rcases List.mem_append.mp here with before | now
    · exact .inl before
    · rw [List.mem_singleton.mp now]
      exact .inr ⟨above, below⟩
  · intro a outside
    exact if_neg (by omega)

lemma Within.looked (s : Screen) {p : Int} (above : low ≤ p) (below : p + 4 ≤ high) :
    Within low high s (s.looked p) := by
  refine ⟨fun r here => ?_, fun a _ => rfl⟩
  rcases List.mem_append.mp here with before | now
  · exact .inl before
  · rw [List.mem_singleton.mp now]
    exact .inr ⟨above, below⟩

end Video
