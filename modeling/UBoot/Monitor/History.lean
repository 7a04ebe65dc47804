import UBoot.Monitor.LineBounds

/-!
# The history is a ring

The lines that were stored lie in a ring of 20 slots, of which 19 can be reached from the slot
where the next line goes.
-/

namespace LineEdit

open ByteMemory

def reach (n : Nat) : Nat := min 19 n

/-- The slot `k` lines back, of `n` lines stored. -/
def slot (n k : Nat) : Nat := (n + 20 - k) % 20

structure History.Holds (h : History) (lines : List Text) : Prop where
  addIdx : h.addIdx = slot lines.length 0
  max : h.max = reach lines.length
  slots : ∀ k (low : k < lines.length), k < 20 → h.lines (slot lines.length (k + 1)) = lines[k]

variable {h : History} {lines : List Text} {k : Nat}

lemma holds_init : histInit.Holds [] :=
  ⟨rfl, rfl, fun k low => absurd low (Nat.not_lt_zero k)⟩

lemma addToHist_holds (holds : h.Holds lines) {line : Text} {h' : History}
    (added : addToHist h line = some h') : h'.Holds (line :: lines) ∧ line.length < 256 := by
  rw [addToHist] at added
  by_cases short : line.length + 1 ≤ histSize
  · rw [if_pos short] at added
    cases added
    have addIdx := holds.addIdx
    have max := holds.max
    unfold slot at addIdx
    unfold reach at max
    refine ⟨⟨?_, ?_, ?_⟩, short⟩
    · dsimp only
      rw [List.length_cons]
      unfold slot histMax
      split
      · omega
      · omega
    · dsimp only
      rw [List.length_cons]
      unfold reach histMax
      split
      · split
        · omega
        · omega
      · split
        · omega
        · omega
    · intro k low near
      dsimp only
      cases k with
      | zero =>
        have here : slot (line :: lines).length (0 + 1) = h.addIdx := by
          rw [List.length_cons, addIdx]
          unfold slot
          omega
        rw [here, Function.update_self]
        rfl
      | succ k =>
        have low : k < lines.length := Nat.lt_of_succ_lt_succ low
        have same : slot (line :: lines).length (k + 1 + 1) = slot lines.length (k + 1) := by
          rw [List.length_cons]
          unfold slot
          omega
        have other : slot lines.length (k + 1) ≠ h.addIdx := by
          rw [addIdx]
          unfold slot
          omega
        rw [same, Function.update_of_ne other, holds.slots k low (by omega)]
        rfl
  · rw [if_neg short] at added
    cases added

lemma History.Holds.line (holds : h.Holds lines) (low : k < reach lines.length) :
    h.lines (slot lines.length (k + 1)) = lines.getD k [] := by
  unfold reach at low
  rw [holds.slots k (by omega) (by omega), List.getD_eq_getElem?_getD,
    List.getElem?_eq_getElem (by omega)]
  rfl

lemma histPrev_eq (holds : h.Holds lines) (cur : h.cur = some (slot lines.length k))
    (low : k < reach lines.length) : histPrev h =
      (some (lines.getD k []), { h with cur := some (slot lines.length (k + 1)) }) := by
  have max := holds.max
  have addIdx := holds.addIdx
  have line := holds.line low
  unfold reach at max low
  have next : (if slot lines.length k = 0 then h.max else slot lines.length k - 1) =
      slot lines.length (k + 1) := by
    rw [max]
    unfold slot
    split
    · omega
    · omega
  have inside : slot lines.length (k + 1) ≠ h.addIdx := by
    rw [addIdx]
    unfold slot
    omega
  unfold histPrev
  rw [cur]
  dsimp only
  rw [next, if_neg inside, line]

lemma histPrev_oldest (holds : h.Holds lines)
    (cur : h.cur = some (slot lines.length (reach lines.length))) : histPrev h = (none, h) := by
  have max := holds.max
  have addIdx := holds.addIdx
  have last : (if slot lines.length (reach lines.length) = 0 then h.max
      else slot lines.length (reach lines.length) - 1) = h.addIdx := by
    rw [max, addIdx]
    unfold slot reach
    split
    · omega
    · omega
  unfold histPrev
  rw [cur]
  dsimp only
  rw [last, if_pos rfl]

lemma histNext_eq (holds : h.Holds lines) (cur : h.cur = some (slot lines.length (k + 1)))
    (low : k + 1 ≤ reach lines.length) : histNext h =
      (some (if k = 0 then [] else lines.getD (k - 1) []),
        { h with cur := some (slot lines.length k) }) := by
  have max := holds.max
  have addIdx := holds.addIdx
  have reached := low
  unfold reach at max low
  have inside : slot lines.length (k + 1) ≠ h.addIdx := by
    rw [addIdx]
    unfold slot
    omega
  have next : (if slot lines.length (k + 1) + 1 > h.max then 0 else slot lines.length (k + 1) + 1) =
      slot lines.length k := by
    rw [max]
    unfold slot
    split
    · omega
    · omega
  unfold histNext
  rw [cur]
  dsimp only
  rw [if_neg inside, next]
  cases k with
  | zero => rw [addIdx, if_pos rfl, if_pos rfl]
  | succ k =>
    have not_first : slot lines.length (k + 1) ≠ h.addIdx := by
      rw [addIdx]
      unfold slot
      omega
    rw [if_neg not_first, holds.line (Nat.lt_of_succ_lt reached), if_neg (Nat.succ_ne_zero k)]
    rfl

lemma histNext_newest (holds : h.Holds lines) (cur : h.cur = some (slot lines.length 0)) :
    histNext h = (none, h) := by
  unfold histNext
  rw [cur]
  dsimp only
  rw [if_pos holds.addIdx.symm]

def History.Back (h : History) (n k : Nat) : Prop := k ≤ reach n ∧ h.cur = some (slot n k)

def History.Synced (h : History) : Prop := h.cur = none ∨ h.cur = some h.addIdx

instance (h : History) : Decidable h.Synced := inferInstanceAs (Decidable (_ ∨ _))

structure History.Tracks (h : History) (lines : List Text) : Prop where
  holds : h.Holds lines
  plain : ∀ line ∈ lines, 0 ∉ line ∧ line.length < 256
  cur : (h.cur = none ∧ lines = []) ∨ ∃ k, h.Back lines.length k

lemma tracks_init : histInit.Tracks [] :=
  ⟨holds_init, fun _ there => absurd there List.not_mem_nil, .inl ⟨rfl, rfl⟩⟩

lemma histPrev_tracks (tracks : h.Tracks lines) : (histPrev h).2.Tracks lines := by
  rcases tracks.cur with ⟨none_yet, -⟩ | ⟨k, low, cur⟩
  · have same : histPrev h = (none, h) := by
      unfold histPrev
      rw [none_yet]
    rw [same]
    exact tracks
  · rcases Nat.lt_or_eq_of_le low with further | rfl
    · rw [histPrev_eq tracks.holds cur further]
      exact ⟨⟨tracks.holds.addIdx, tracks.holds.max, tracks.holds.slots⟩, tracks.plain,
        .inr ⟨k + 1, further, rfl⟩⟩
    · rw [histPrev_oldest tracks.holds cur]
      exact tracks

lemma histNext_tracks (tracks : h.Tracks lines) : (histNext h).2.Tracks lines := by
  rcases tracks.cur with ⟨none_yet, -⟩ | ⟨k, low, cur⟩
  · have same : histNext h = (none, h) := by
      unfold histNext
      rw [none_yet]
    rw [same]
    exact tracks
  · cases k with
    | zero =>
      rw [histNext_newest tracks.holds cur]
      exact tracks
    | succ k =>
      rw [histNext_eq tracks.holds cur low]
      exact ⟨⟨tracks.holds.addIdx, tracks.holds.max, tracks.holds.slots⟩, tracks.plain,
        .inr ⟨k, Nat.le_of_succ_le low, rfl⟩⟩

end LineEdit
