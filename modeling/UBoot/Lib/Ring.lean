import Mathlib.Data.List.DropRight

/-!
# Queues in a ring of cells

A queue of bounded length that drops its oldest elements, and cells that are used round and round
for one.
-/

namespace Ring

universe u
variable {α : Type u} {n top k : Nat} {held xs : List α} {x : α}

/-- A queue of at most `n` elements behind new ones: the last that fit. -/
def push (n : Nat) (held xs : List α) : List α := (held ++ xs).rtake n

lemma rtake_of_length_le (short : xs.length ≤ n) : xs.rtake n = xs := by
  rw [List.rtake, Nat.sub_eq_zero_of_le short, List.drop_zero]

lemma push_nil (short : held.length ≤ n) : push n held [] = held := by
  rw [push, List.append_nil, rtake_of_length_le short]

lemma rtake_append (l xs : List α) : (l.rtake n ++ xs).rtake n = (l ++ xs).rtake n := by
  by_cases short : l.length ≤ n
  · rw [rtake_of_length_le short]
  have front : l.length - n ≤ l.length := Nat.sub_le _ _
  rw [List.rtake, List.rtake, List.rtake, ← List.drop_append_of_le_length front, List.drop_drop]
  congr 1
  rw [List.length_drop, List.length_append]
  omega

lemma push_cons : push n held (x :: xs) = push n (push n held [x]) xs := by
  rw [push, push, push, rtake_append, List.append_assoc]
  rfl

lemma push_room (room : held.length < n) : push n held [x] = held ++ [x] :=
  rtake_of_length_le (by rw [List.length_append]; exact room)

lemma push_full (some : 0 < n) (full : held.length = n) : push n held [x] = held.drop 1 ++ [x] := by
  have one : held.length + 1 - n = 1 := by omega
  rw [push, List.rtake, List.length_append, List.length_singleton, one,
    List.drop_append_of_le_length (by omega)]

def next (n p : Nat) : Nat := if p + 1 = n then 0 else p + 1

/-- From cell `top` on are the elements of a queue. -/
structure Holds (cells : Nat → α) (n top : Nat) (xs : List α) : Prop where
  room : xs.length ≤ n
  inside : top < n
  cell : ∀ i (low : i < xs.length), cells ((top + i) % n) = xs[i]

lemma place_eq (inside : top < n) (once : k ≤ n) :
    (top + k) % n = if top + k < n then top + k else top + k - n := by
  split_ifs with before
  · exact Nat.mod_eq_of_lt before
  · rw [Nat.mod_eq_sub_mod (Nat.le_of_not_lt before), Nat.mod_eq_of_lt (by omega)]

lemma next_eq (inside : top < n) : next n top = (top + 1) % n := by
  rw [place_eq inside (by omega), next]
  split_ifs <;> omega

lemma next_place (some : 0 < n) : next n ((top + k) % n) = (top + (k + 1)) % n := by
  rw [next_eq (Nat.mod_lt _ some), Nat.mod_add_mod, Nat.add_assoc]

variable {cells cells' : Nat → α}

lemma Holds.drop (holds : Holds cells n top xs) (k : Nat) :
    Holds cells n ((top + k) % n) (xs.drop k) where
  room := by
    rw [List.length_drop]
    exact Nat.le_trans (Nat.sub_le _ _) holds.room
  inside := Nat.mod_lt _ (Nat.zero_lt_of_lt holds.inside)
  cell i low := by
    rw [List.length_drop] at low
    rw [Nat.mod_add_mod, Nat.add_assoc, List.getElem_drop]
    exact holds.cell (k + i) (by omega)

lemma Holds.put (holds : Holds cells n top xs) (room : xs.length < n)
    (new : cells' ((top + xs.length) % n) = x)
    (others : ∀ p, p ≠ (top + xs.length) % n → cells' p = cells p) :
    Holds cells' n top (xs ++ [x]) where
  room := by
    rw [List.length_append]
    exact room
  inside := holds.inside
  cell i low := by
    rw [List.length_append, List.length_singleton] at low
    rcases Nat.lt_or_eq_of_le (Nat.le_of_lt_succ low) with before | rfl
    · have apart : (top + i) % n ≠ (top + xs.length) % n := by
        rw [place_eq holds.inside (by omega), place_eq holds.inside (by omega)]
        split_ifs <;> omega
      rw [others _ apart, List.getElem_append_left before]
      exact holds.cell i before
    · rw [new, List.getElem_append_right le_rfl]
      simp

lemma Holds.turn (holds : Holds cells n top xs) (full : xs.length = n) (new : cells' top = x)
    (others : ∀ p, p ≠ top → cells' p = cells p) :
    Holds cells' n ((top + 1) % n) (xs.drop 1 ++ [x]) := by
  have inside := holds.inside
  have place : ((top + 1) % n + (xs.drop 1).length) % n = top := by
    rw [List.length_drop, full, Nat.mod_add_mod, show top + 1 + (n - 1) = top + n by omega,
      Nat.add_mod_right, Nat.mod_eq_of_lt inside]
  refine (holds.drop 1).put ?_ ?_ ?_
  · rw [List.length_drop]
    omega
  · rw [place]
    exact new
  · rw [place]
    exact others

end Ring
