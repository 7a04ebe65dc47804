import UBoot.Monitor.RunCommand

/-!
# Quoting for `process_macros`

A character is quoted by a backslash. The scanner takes a backslash for an escape unless the
character before it was one, and does not ask whether that one had been escaped itself: after a
backslash in the text the next escape is copied.
-/

namespace Monitor

def Special (c : Char) : Prop := c = backslash ∨ c = '$' ∨ c = singleQuote

instance (c : Char) : Decidable (Special c) := inferInstanceAs (Decidable (_ ∨ _ ∨ _))

def quote : Text → Text
  | [] => []
  | c :: w => if Special c then backslash :: c :: quote w else c :: quote w

/-- `output` after `process_macros`: the NUL goes behind the characters if there is room, else
over the last one. -/
def macrosInto (getenv : Text → Option Text) (input : Text) (output : Nat → Char) : Nat → Char :=
  let out := macros getenv ⟨.dollar, [], cbSize⟩ nul false input
  let stored : Nat → Char := fun i => out.getD i (output i)
  Function.update stored (if out.length < cbSize then out.length else out.length - 1) nul

/-- The string at `i` in a buffer with so many characters left; without a NUL, all of them. -/
def stringAt (output : Nat → Char) : (left i : Nat) → Text
  | 0, _ => []
  | left + 1, i => if output i = nul then [] else output i :: stringAt output left (i + 1)

variable {m : Macros}

lemma put_length (room : m.output.length + m.outputcnt ≤ cbSize) (state : MacroState) (cs : Text) :
    (m.put state cs).output.length + (m.put state cs).outputcnt ≤ cbSize := by
  simp only [Macros.put, List.length_append, List.length_reverse, List.length_take]
  omega

lemma char_length (getenv : Text → Option Text) (room : m.output.length + m.outputcnt ≤ cbSize)
    (prev c : Char) :
    (m.char getenv prev c).output.length + (m.char getenv prev c).outputcnt ≤ cbSize := by
  unfold Macros.char
  split
  · split_ifs
    · exact room
    · exact room
    · exact put_length room _ _
  · split_ifs
    · exact room
    · exact put_length room _ _
  · split_ifs
    · exact put_length room _ _
    · exact room
  · split_ifs
    · exact room
    · exact put_length room _ _

lemma escape_length (room : m.output.length + m.outputcnt ≤ cbSize) :
    m.escape.output.length + m.escape.outputcnt ≤ cbSize := by
  unfold Macros.escape
  split
  · exact room
  · exact room

lemma macros_length (getenv : Text → Option Text) (room : m.output.length + m.outputcnt ≤ cbSize)
    (prev : Char) (escaped : Bool) (input : Text) :
    (macros getenv m prev escaped input).length ≤ cbSize := by
  induction input generalizing m prev escaped with
  | nil =>
    rw [macros, List.length_reverse]
    omega
  | cons c cs ih =>
    rw [macros]
    split_ifs
    · rw [List.length_reverse]
      omega
    · exact ih (escape_length room) c true
    · exact ih (char_length getenv room prev c) c false

lemma output_length (getenv : Text → Option Text) (input : Text) :
    (macros getenv ⟨.dollar, [], cbSize⟩ nul false input).length ≤ cbSize := by
  have room : ([] : Text).length + cbSize ≤ cbSize := Nat.le_of_eq (Nat.zero_add cbSize)
  exact macros_length getenv room nul false input

lemma macrosInto_terminated (getenv : Text → Option Text) (input : Text) (output : Nat → Char) :
    (∃ i < cbSize, macrosInto getenv input output i = nul) ∧
      ∀ i, cbSize ≤ i → macrosInto getenv input output i = output i := by
  have room := output_length getenv input
  unfold macrosInto
  set out := macros getenv ⟨.dollar, [], cbSize⟩ nul false input
  have size : 0 < cbSize := Nat.zero_lt_succ 255
  have inside : (if out.length < cbSize then out.length else out.length - 1) < cbSize := by
    split
    · assumption
    · omega
  constructor
  · exact ⟨_, inside, Function.update_self _ _ _⟩
  · intro i outside
    rw [Function.update_of_ne (by omega)]
    rw [List.getD_eq_getElem?_getD, List.getElem?_eq_none (by omega)]
    rfl

lemma stringAt_eq {output : Nat → Char} {w : Text} (plain : nul ∉ w) {left i : Nat}
    (room : w.length < left) (chars : ∀ k (low : k < w.length), output (i + k) = w[k])
    (stop : output (i + w.length) = nul) : stringAt output left i = w := by
  induction w generalizing left i with
  | nil =>
    obtain ⟨n, rfl⟩ := Nat.exists_eq_succ_of_ne_zero (Nat.ne_of_gt room)
    exact if_pos stop
  | cons c w ih =>
    obtain ⟨n, rfl⟩ := Nat.exists_eq_succ_of_ne_zero (Nat.ne_of_gt (Nat.zero_lt_of_lt room))
    obtain ⟨first, rest⟩ := not_or.mp (mt List.mem_cons.mpr plain)
    have here : output i = c := chars 0 (Nat.succ_pos _)
    have tail : stringAt output n (i + 1) = w := by
      apply ih rest (Nat.lt_of_succ_lt_succ room)
      · intro k low
        rw [Nat.add_right_comm]
        exact chars (k + 1) (Nat.succ_lt_succ low)
      · rw [Nat.add_right_comm]
        exact stop
    rw [stringAt, here, if_neg (Ne.symm first), tail]

lemma stringAt_macrosInto {getenv : Text → Option Text} {input out : Text}
    (scanned : macros getenv ⟨.dollar, [], cbSize⟩ nul false input = out) (plain : nul ∉ out)
    (room : out.length < cbSize) (output : Nat → Char) :
    stringAt (macrosInto getenv input output) cbSize 0 = out := by
  unfold macrosInto
  dsimp only
  rw [scanned, if_pos room]
  apply stringAt_eq plain room
  · intro k low
    rw [Nat.zero_add, Function.update_of_ne (Nat.ne_of_lt low), List.getD_eq_getElem?_getD,
      List.getElem?_eq_getElem low]
    rfl
  · rw [Nat.zero_add]
    exact Function.update_self _ _ _

def spelled (prev : Char) : Text → Text
  | [] => []
  | c :: w =>
    if Special c ∧ prev = backslash then backslash :: c :: spelled c w else c :: spelled c w

def Clean : Text → Prop := List.IsChain fun c d => ¬(Special d ∧ c = backslash)

lemma macros_char (getenv : Text → Option Text) (output : Text) (outputcnt : Nat) {prev c : Char}
    (escaped : Bool) (cs : Text) (plain : prev = backslash ∨ ¬Special c) :
    macros getenv ⟨.dollar, output, outputcnt + 1⟩ prev escaped (c :: cs) =
      macros getenv ⟨.dollar, c :: output, outputcnt⟩ c false cs := by
  have copied : ¬((c = singleQuote ∨ c = '$' ∨ c = backslash) ∧ prev ≠ backslash) := by
    rintro ⟨special, other⟩
    rcases plain with same | plain
    · exact other same
    apply plain
    rcases special with quote | dollar | escape
    · exact .inr (.inr quote)
    · exact .inr (.inl dollar)
    · exact .inl escape
  have kept : ¬(escaped = false ∧ MacroState.dollar ≠ .quoted ∧ c = backslash ∧
      prev ≠ backslash) := fun h => copied ⟨.inr (.inr h.2.2.1), h.2.2.2⟩
  have quote : ¬(c = singleQuote ∧ prev ≠ backslash) := fun h => copied ⟨.inl h.1, h.2⟩
  have dollar : ¬(c = '$' ∧ prev ≠ backslash) := fun h => copied ⟨.inr (.inl h.1), h.2⟩
  have stored : Macros.char getenv ⟨.dollar, output, outputcnt + 1⟩ prev c =
      ⟨.dollar, c :: output, outputcnt⟩ := by
    simp only [Macros.char, if_neg quote, if_neg dollar]
    simp [Macros.put]
  rw [macros, if_neg (Nat.succ_ne_zero outputcnt), if_neg kept, stored]

lemma macros_escape (getenv : Text → Option Text) (output : Text) (outputcnt : Nat) {prev : Char}
    (cs : Text) (other : prev ≠ backslash) :
    macros getenv ⟨.dollar, output, outputcnt + 1⟩ prev false (backslash :: cs) =
      macros getenv ⟨.dollar, output, outputcnt + 1⟩ backslash true cs := by
  have waiting : MacroState.dollar ≠ .quoted := MacroState.noConfusion
  rw [macros, if_neg (Nat.succ_ne_zero outputcnt), if_pos ⟨rfl, waiting, rfl, other⟩]
  rfl

lemma macros_quote (getenv : Text → Option Text) (w : Text) (prev : Char) (output : Text)
    {outputcnt : Nat} (room : (quote w).length < outputcnt) :
    macros getenv ⟨.dollar, output, outputcnt⟩ prev false (quote w) =
      output.reverse ++ spelled prev w := by
  induction w generalizing prev output outputcnt with
  | nil =>
    rw [quote, macros, spelled, List.append_nil]
  | cons c w ih =>
    rw [quote] at room ⊢
    by_cases special : Special c
    · rw [if_pos special] at room ⊢
      rw [List.length_cons, List.length_cons] at room
      obtain ⟨n, rfl⟩ := Nat.exists_eq_add_of_lt room
      by_cases after : prev = backslash
      · -- the escape is copied, and makes the character plain again
        have size : (quote w).length + 1 + 1 + n + 1 = (quote w).length + n + 1 + 1 + 1 := by omega
        rw [size, macros_char getenv _ _ false _ (.inl after),
          macros_char getenv _ _ false _ (.inl rfl),
          ih _ _ (by omega), spelled, if_pos ⟨special, after⟩]
        simp
      · rw [macros_escape getenv _ _ _ after, macros_char getenv _ _ true _ (.inl rfl),
          ih _ _ (by omega), spelled, if_neg fun h => after h.2]
        simp
    · rw [if_neg special] at room ⊢
      rw [List.length_cons] at room
      obtain ⟨n, rfl⟩ := Nat.exists_eq_add_of_lt room
      rw [macros_char getenv _ _ false _ (.inr special), ih _ _ (by omega), spelled,
        if_neg fun h => special h.1]
      simp

lemma length_spelled (prev : Char) (w : Text) :
    w.length ≤ (spelled prev w).length ∧ (spelled prev w).length ≤ (quote w).length := by
  induction w generalizing prev with
  | nil => exact ⟨Nat.le_refl 0, Nat.le_refl 0⟩
  | cons c w ih =>
    obtain ⟨low, high⟩ := ih c
    rw [spelled, quote]
    by_cases special : Special c
    · rw [if_pos special]
      split
      · simp only [List.length_cons]
        omega
      · simp only [List.length_cons]
        omega
    · rw [if_neg special, if_neg fun h => special h.1]
      simp only [List.length_cons]
      omega

lemma spelled_plain {prev : Char} {w : Text} (plain : nul ∉ w) : nul ∉ spelled prev w := by
  induction w generalizing prev with
  | nil => exact plain
  | cons c w ih =>
    obtain ⟨first, rest⟩ := not_or.mp (mt List.mem_cons.mpr plain)
    have tail : nul ∉ spelled c w := ih rest
    have escape : nul ≠ backslash := by decide
    rw [spelled]
    split
    · simp [first, tail, escape]
    · simp [first, tail]

lemma spelled_eq_iff (prev : Char) (w : Text) : spelled prev w = w ↔ Clean (prev :: w) := by
  induction w generalizing prev with
  | nil => exact iff_of_true rfl (.singleton prev)
  | cons c w ih =>
    rw [Clean, List.isChain_cons_cons, spelled]
    by_cases copied : Special c ∧ prev = backslash
    · rw [if_pos copied]
      refine iff_of_false ?_ fun h => h.1 copied
      intro same
      have longer := congrArg List.length same
      have := (length_spelled c w).1
      simp only [List.length_cons] at longer
      omega
    · rw [if_neg copied, List.cons_inj_right, ih c]
      exact (and_iff_right copied).symm

/-- Quoted text comes out as it was exactly if it has no backslash in front of a character that is
quoted; and the output always ends in the buffer. -/
theorem quoting_law (getenv : Text → Option Text) (output : Nat → Char) (input : Text) {w : Text}
    (plain : nul ∉ w) (short : (quote w).length < cbSize) :
    (stringAt (macrosInto getenv (quote w) output) cbSize 0 = w ↔ Clean w) ∧
      (∃ i < cbSize, macrosInto getenv input output i = nul) ∧
      ∀ i, cbSize ≤ i → macrosInto getenv input output i = output i := by
  refine ⟨?_, macrosInto_terminated getenv input output⟩
  have scanned := macros_quote getenv w nul [] short
  have room := (length_spelled nul w).2
  rw [stringAt_macrosInto scanned (spelled_plain plain) (Nat.lt_of_le_of_lt room short) output]
  have start : Clean (nul :: w) ↔ Clean w := by
    cases w with
    | nil => exact iff_of_true (.singleton nul) .nil
    | cons c w =>
      rw [Clean, List.isChain_cons_cons]
      refine and_iff_right ?_
      rintro ⟨-, same⟩
      exact absurd same (by decide)
  exact (spelled_eq_iff nul w).trans start

theorem dollar_quoted : stringAt (macrosInto (fun _ => none) (quote ['$', 'a']) fun _ => nul)
    cbSize 0 = ['$', 'a'] := by
  have plain : nul ∉ ['$', 'a'] := by decide
  have short : (quote ['$', 'a']).length < cbSize := by decide
  have clean : Clean ['$', 'a'] := List.isChain_cons_cons.mpr ⟨by decide, .singleton 'a'⟩
  exact (quoting_law (fun _ => none) (fun _ => nul) [] plain short).1.mpr clean

/-- A backslash and a dollar sign come out as two backslashes and a dollar sign. -/
theorem escape_copied :
    nul ∉ [backslash, '$'] ∧ (quote [backslash, '$']).length < cbSize ∧
      stringAt (macrosInto (fun _ => none) (quote [backslash, '$']) fun _ => nul) cbSize 0 =
        [backslash, backslash, '$'] := by
  decide +kernel

end Monitor
