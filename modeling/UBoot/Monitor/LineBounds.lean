import UBoot.Monitor.LineEdit

/-!
# The line stays in its buffer

Every key keeps the cursor on the line and the line in the buffer, up to its last byte. Two
keys store a NUL behind the line: there a line that fills the buffer is one character too long.
-/

namespace LineEdit

open ByteMemory Runs

lemma put_inside (buf : Mem) {i : Nat} {bs : List UInt8} (bound : i + bs.length ≤ 256) :
    put buf i bs = some (blit buf i bs) := by
  rw [put]
  exact if_pos bound

lemma put_outside (buf : Mem) {i : Nat} {bs : List UInt8} (past : 256 < i + bs.length) :
    put buf i bs = none := by
  rw [put]
  exact if_neg (Nat.not_le.mpr past)

lemma text_length_le {buf : Mem} {i : Nat} (inside : i < 256) (nul : buf i = 0) :
    (text buf).length ≤ i := by
  have split : slice buf 0 cbSize = slice buf 0 i ++ 0 :: slice buf (i + 1) (255 - i) := by
    have parts : cbSize = i + (255 - i + 1) := by
      simp only [cbSize]
      omega
    rw [parts, slice_append, slice, zero_add, nul]
  rw [text, split]
  have stop : (slice buf 0 i ++ 0 :: slice buf (i + 1) (255 - i)).takeWhile (· ≠ 0) =
      (slice buf 0 i).takeWhile (· ≠ 0) := by
    induction slice buf 0 i with
    | nil => rfl
    | cons b bs ih =>
      by_cases zero : b = 0
      · simp [zero]
      · simpa [zero] using ih
  rw [stop]
  exact Nat.le_trans (List.takeWhile_sublist _).length_le (Nat.le_of_eq (slice_length buf 0 i))

structure Line.Inside (l : Line) : Prop where
  cursor : l.num ≤ l.eol
  room : l.eol ≤ 256

variable {l : Line}

lemma addChar_inside (h : l.Inside) (c : UInt8) (insert : Bool) :
    ∃ r, addChar c insert l = some r ∧ r.Inside := by
  have cursor := h.cursor
  have room := h.room
  simp only [addChar, cbSize]
  split
  · split
    · exact ⟨l, rfl, h⟩
    rename_i full
    split
    · split
      · rw [put_inside _ (by rw [slice_length]; omega)]
        simp only [Option.bind_eq_bind, Option.bind_some]
        rw [put_inside _ (by rw [List.length_singleton]; omega)]
        exact ⟨_, rfl, Nat.succ_le_succ cursor, by dsimp only; omega⟩
      · simp only [Option.bind_eq_bind, Option.bind_some]
        rw [put_inside _ (by rw [List.length_singleton]; omega)]
        exact ⟨_, rfl, Nat.succ_le_succ cursor, by dsimp only; omega⟩
    · rw [put_inside _ (by rw [List.length_singleton]; omega)]
      exact ⟨_, rfl, Nat.succ_le_succ cursor, by dsimp only; omega⟩
  · rename_i inner
    rw [put_inside _ (by rw [List.length_singleton]; omega)]
    exact ⟨_, rfl, by dsimp only; omega, room⟩

lemma addStr_inside (h : l.Inside) (cs : List UInt8) (insert : Bool) :
    ∃ r, addStr cs insert l = some r ∧ r.Inside := by
  induction cs generalizing l with
  | nil => exact ⟨l, rfl, h⟩
  | cons c cs ih =>
    obtain ⟨m, hm, inside⟩ := addChar_inside h c insert
    rw [addStr, hm]
    exact ih inside

lemma deleteChar_inside (h : l.Inside) : ∃ r, deleteChar l = some r ∧ r.Inside := by
  have room := h.room
  simp only [deleteChar]
  split
  · rename_i before
    split
    · rw [put_inside _ (by rw [slice_length]; omega)]
      exact ⟨_, rfl, by dsimp only; omega, by dsimp only; omega⟩
    · exact ⟨_, rfl, by dsimp only; omega, by dsimp only; omega⟩
  · exact ⟨l, rfl, h⟩

lemma backspace_inside (h : l.Inside) : ∃ r, backspace l = some r ∧ r.Inside := by
  have cursor := h.cursor
  have room := h.room
  simp only [backspace]
  split
  · rw [put_inside _ (by rw [slice_length]; omega)]
    exact ⟨_, rfl, by dsimp only; omega, by dsimp only; omega⟩
  · exact ⟨l, rfl, h⟩

lemma home_inside (h : l.Inside) : ({ l with num := 0 } : Line).Inside :=
  ⟨Nat.zero_le _, h.room⟩

lemma eraseToEol_inside (h : l.Inside) : (eraseToEol l).Inside := by
  rw [eraseToEol]
  split
  · exact ⟨Nat.le_refl _, Nat.le_trans h.cursor h.room⟩
  · exact h

lemma refreshToEol_inside (h : l.Inside) : (refreshToEol l).Inside := by
  rw [refreshToEol]
  split
  · exact ⟨Nat.le_refl _, h.room⟩
  · exact h

lemma recallLine_inside {hline : Text} (short : hline.length < 256) (l : Line) :
    ∃ r, recallLine hline l = some r ∧ r.Inside := by
  have fits : 0 + (hline ++ [0]).length ≤ 256 := by
    rw [List.length_append, List.length_singleton]
    omega
  simp only [recallLine]
  rw [put_inside _ fits]
  refine ⟨_, rfl, refreshToEol_inside ⟨?_, ?_⟩⟩
  · -- the cursor went home
    rw [eraseToEol]
    split
    · exact Nat.zero_le _
    · exact Nat.zero_le _
  · have nul : blit (eraseToEol { l with num := 0 }).buf 0 (hline ++ [0]) hline.length = 0 := by
      have last := blit_inside (eraseToEol { l with num := 0 }).buf (a := 0)
        (hline ++ [0]) (j := hline.length) (by simp)
      rw [zero_add] at last
      rw [last]
      simp
    exact Nat.le_trans (text_length_le short nul) (Nat.le_of_lt short)

lemma cmdAutoComplete_inside (t : Table) {buf : Mem} {n : Nat} (inside : n < 256)
    (nul : buf n = 0) :
    ∃ b m, cmdAutoComplete t buf n = some (b, m) ∧ n ≤ m ∧ (n < m → m < 256) := by
  have short := text_length_le inside nul
  rw [cmdAutoComplete]
  split
  · dsimp only
    split
    · exact ⟨_, _, rfl, Nat.le_refl n, fun h => absurd h (Nat.lt_irrefl n)⟩
    rename_i s sep _
    generalize (if sep then s ++ [32] else s) = added
    split
    · exact ⟨_, _, rfl, Nat.le_refl n, fun h => absurd h (Nat.lt_irrefl n)⟩
    rename_i fits
    simp only [cbSize] at fits
    rw [put_inside _ (by rw [List.length_append, List.length_singleton]; omega)]
    exact ⟨_, _, rfl, Nat.le_add_right _ _, fun _ => by omega⟩
  · exact ⟨_, _, rfl, Nat.le_refl n, fun h => absurd h (Nat.lt_irrefl n)⟩

lemma complete_inside (h : l.Inside) (room : l.num < 256) (t : Table) :
    ∃ r, complete t l = some r ∧ r.Inside := by
  have cursor := h.cursor
  rw [complete]
  split
  · exact ⟨l, rfl, h⟩
  have stored : put l.buf l.num [0] = some (blit l.buf l.num [0]) :=
    put_inside _ (by rw [List.length_singleton]; omega)
  have nul : blit l.buf l.num [0] l.num = 0 := blit_inside l.buf [0] (j := 0) (by simp)
  obtain ⟨b, m, hm, low, high⟩ := cmdAutoComplete_inside t room nul
  simp only [stored, hm, Option.bind_eq_bind, Option.bind_some]
  refine ⟨_, rfl, by dsimp only; omega, ?_⟩
  dsimp only
  rcases Nat.eq_or_lt_of_le low with same | more
  · omega
  · have := high more
    omega

variable {h : History}

/-- A line of the history, with its NUL, fits a slot. -/
def History.Fits (h : History) : Prop := ∀ i, (h.lines i).length < 256

lemma addToHist_fits (fits : h.Fits) {line : Text} (short : line.length < 256) :
    ∃ r, addToHist h line = some r ∧ r.Fits := by
  rw [addToHist, if_pos (show line.length + 1 ≤ histSize from short)]
  refine ⟨_, rfl, fun i => ?_⟩
  dsimp only
  by_cases slot : i = h.addIdx
  · rw [slot, Function.update_self]
    exact short
  · rw [Function.update_of_ne slot]
    exact fits i

lemma histPrev_fits (fits : h.Fits) : (histPrev h).2.Fits ∧
    ∀ line, (histPrev h).1 = some line → line.length < 256 := by
  rw [histPrev]
  split
  · exact ⟨fits, fun _ found => by cases found⟩
  rename_i old _
  dsimp only
  generalize (if old = 0 then h.max else old - 1) = cur
  split
  · exact ⟨fits, fun _ found => by cases found⟩
  · refine ⟨fits, fun line found => ?_⟩
    cases found
    exact fits _

lemma histNext_fits (fits : h.Fits) : (histNext h).2.Fits ∧
    ∀ line, (histNext h).1 = some line → line.length < 256 := by
  rw [histNext]
  split
  · exact ⟨fits, fun _ found => by cases found⟩
  split
  · exact ⟨fits, fun _ found => by cases found⟩
  rename_i old _ _
  generalize (if old + 1 > h.max then 0 else old + 1) = cur
  refine ⟨fits, fun line found => ?_⟩
  cases found
  split
  · exact Nat.zero_lt_succ 255
  · exact fits _

structure Ready (s : State) : Prop where
  line : s.line.Inside
  hist : s.hist.Fits

variable {s : State}

lemma ready_init : Ready init :=
  ⟨⟨Nat.le_refl 0, Nat.zero_le 256⟩, fun _ => Nat.zero_lt_succ 255⟩

lemma ready_start (buf : Mem) (fits : h.Fits) : Ready (start buf h) :=
  ⟨⟨Nat.le_refl 0, Nat.zero_le 256⟩, fits⟩

lemma edit_ready (h : Ready s) {edited : Option Line}
    (inside : ∃ r, edited = some r ∧ r.Inside) : ∃ t, s.edit edited = some t ∧ Ready t := by
  obtain ⟨r, rfl, inside⟩ := inside
  exact ⟨_, rfl, inside, h.hist⟩

lemma browse_ready (h : Ready s) {found : Option Text × History} (fits : found.2.Fits)
    (short : ∀ line, found.1 = some line → line.length < 256) :
    ∃ t, browse found s = some t ∧ Ready t := by
  rw [browse]
  split
  · exact ⟨_, rfl, h.line, fits⟩
  rename_i hline taken
  obtain ⟨r, hr, inside⟩ := recallLine_inside (short hline taken) s.line
  rw [hr]
  exact ⟨_, rfl, inside, fits⟩

lemma finish_ready (h : Ready s) (room : s.line.eol < 256) :
    ∃ t, finish s = some t ∧ Ready t := by
  have stored : put s.line.buf s.line.eol [0] = some (blit s.line.buf s.line.eol [0]) :=
    put_inside _ (by rw [List.length_singleton]; omega)
  have nul : blit s.line.buf s.line.eol [0] s.line.eol = 0 :=
    blit_inside s.line.buf [0] (j := 0) (by simp)
  have short := text_length_le room nul
  simp only [finish, stored, Option.bind_eq_bind, Option.bind_some]
  split
  · obtain ⟨hist, hadd, fits⟩ := addToHist_fits h.hist (Nat.lt_of_le_of_lt short room)
    rw [hadd]
    exact ⟨_, rfl, ready_start _ fits⟩
  · exact ⟨_, rfl, ready_start _ h.hist⟩

/-- There is room for a NUL where one is stored: on Enter behind the line, and on Tab at the
cursor. -/
def RoomForNul (s : State) (c : UInt8) : Prop :=
  ¬ ((c = 10 ∨ c = 13) ∧ s.line.eol = 256) ∧ ¬ (c = 9 ∧ s.esc = [] ∧ s.line.num = 256)

/-- What a key other than Enter does: it moves the cursor or sets a flag, it edits the line, or it
recalls another one. -/
inductive Handled (s : State) (c : UInt8) : Option State → Prop where
  | moved (v : State) (hist : v.hist = s.hist) (inside : s.line.Inside → v.line.Inside) :
      Handled s c (some v)
  | edited (l : Option Line)
      (inside : s.line.Inside → (c = 9 → s.line.num < 256) → ∃ r, l = some r ∧ r.Inside) :
      Handled s c (s.edit l)
  | prev : Handled s c (browse (histPrev s.hist) s)
  | next : Handled s c (browse (histNext s.hist) s)

lemma handled (t : Table) (s : State) (c : UInt8) : Handled s c (handleKey t s c) := by
  rw [handleKey]
  by_cases esc : c = 0x1b
  · rw [if_pos esc]
    exact .moved _ rfl id
  rw [if_neg esc]
  by_cases home : c = 1
  · rw [if_pos home]
    exact .moved _ rfl home_inside
  rw [if_neg home]
  by_cases interrupt : c = 3
  · rw [if_pos interrupt]
    exact .moved _ rfl fun _ => ⟨Nat.le_refl 0, Nat.zero_le 256⟩
  rw [if_neg interrupt]
  by_cases forward : c = 6
  · rw [if_pos forward]
    refine .edited _ fun inside _ => ⟨_, rfl, ?_⟩
    split
    · rename_i before
      exact ⟨before, inside.room⟩
    · exact inside
  rw [if_neg forward]
  by_cases back : c = 2
  · rw [if_pos back]
    refine .edited _ fun inside _ => ⟨_, rfl, ?_⟩
    split
    · exact ⟨Nat.le_trans (Nat.sub_le _ _) inside.cursor, inside.room⟩
    · exact inside
  rw [if_neg back]
  by_cases delete : c = 4
  · rw [if_pos delete]
    exact .edited _ fun inside _ => deleteChar_inside inside
  rw [if_neg delete]
  by_cases kill : c = 11
  · rw [if_pos kill]
    exact .edited _ fun inside _ => ⟨_, rfl, eraseToEol_inside inside⟩
  rw [if_neg kill]
  by_cases last : c = 5
  · rw [if_pos last]
    exact .edited _ fun inside _ => ⟨_, rfl, refreshToEol_inside inside⟩
  rw [if_neg last]
  by_cases toggle : c = 15
  · rw [if_pos toggle]
    exact .moved _ rfl id
  rw [if_neg toggle]
  by_cases clear : c = 24 ∨ c = 21
  · rw [if_pos clear]
    exact .edited _ fun inside _ => ⟨_, rfl, eraseToEol_inside (home_inside inside)⟩
  rw [if_neg clear]
  by_cases rub : c = 255 ∨ c = 127 ∨ c = 8
  · rw [if_pos rub]
    exact .edited _ fun inside _ => backspace_inside inside
  rw [if_neg rub]
  by_cases prev : c = 16
  · rw [if_pos prev]
    exact .prev
  rw [if_neg prev]
  by_cases next : c = 14
  · rw [if_pos next]
    exact .next
  rw [if_neg next]
  by_cases tab : c = 9
  · rw [if_pos tab]
    exact .edited _ fun inside room => complete_inside inside (room tab) t
  rw [if_neg tab]
  exact .edited _ fun inside _ => addChar_inside inside c s.insert

lemma handleKey_ready (t : Table) (h : Ready s) (c : UInt8)
    (room : c = 9 → s.line.num < 256) : ∃ u, handleKey t s c = some u ∧ Ready u := by
  have does := handled t s c
  generalize handleKey t s c = pressed at does ⊢
  cases does with
  | moved v hist inside => exact ⟨v, rfl, inside h.line, hist ▸ h.hist⟩
  | edited l inside => exact edit_ready h (inside h.line room)
  | prev => exact browse_ready h (histPrev_fits h.hist).1 (histPrev_fits h.hist).2
  | next => exact browse_ready h (histNext_fits h.hist).1 (histNext_fits h.hist).2

lemma arrow_ne_tab {c k : UInt8} (key : arrow c = some k) : k ≠ 9 := by
  rw [arrow] at key
  split_ifs at key <;> (obtain rfl := Option.some.inj key; decide)

lemma press_ready (t : Table) (h : Ready s) {c : UInt8} (room : RoomForNul s c) :
    ∃ u, press t s c = some u ∧ Ready u := by
  have bound := h.line.room
  have cursor := h.line.cursor
  rw [press]
  split
  · rename_i enter
    apply finish_ready h
    have short : s.line.eol ≠ 256 := fun full => room.1 ⟨enter, full⟩
    omega
  split
  · rename_i plain
    apply handleKey_ready t h
    intro tab
    have short : s.line.num ≠ 256 := fun full => room.2 ⟨tab, plain, full⟩
    omega
  split
  · split
    · exact ⟨_, rfl, h.line, h.hist⟩
    · obtain ⟨r, hr, inside⟩ := addStr_inside h.line s.esc s.insert
      rw [hr]
      exact ⟨_, rfl, inside, h.hist⟩
  · split
    · rename_i key
      have ready : Ready { s with esc := [] } := ⟨h.line, h.hist⟩
      exact handleKey_ready t ready _ (fun tab => absurd tab (arrow_ne_tab key))
    · obtain ⟨r, hr, inside⟩ := addStr_inside h.line (s.esc ++ [c]) s.insert
      rw [hr]
      exact ⟨_, rfl, inside, h.hist⟩

lemma press_leaves (t : Table) (h : Ready s) {c : UInt8} (full : ¬ RoomForNul s c) :
    press t s c = none := by
  have bound := h.line.room
  have last : ((c = 10 ∨ c = 13) ∧ s.line.eol = 256) ∨
      (c = 9 ∧ s.esc = [] ∧ s.line.num = 256) := by
    apply Classical.byContradiction
    intro neither
    exact full ⟨fun h => neither (.inl h), fun h => neither (.inr h)⟩
  rcases last with ⟨enter, full⟩ | ⟨rfl, plain, full⟩
  · have stored : put s.line.buf s.line.eol [0] = none :=
      put_outside _ (by rw [full]; decide)
    rw [press, if_pos enter, finish, stored]
    rfl
  have stored : put s.line.buf s.line.num [0] = none :=
    put_outside _ (by rw [full]; decide)
  have last : ¬ s.line.num < s.line.eol := by omega
  have completed : complete t s.line = none := by
    rw [complete, if_neg last, stored]
    rfl
  have key : handleKey t s 9 = s.edit (complete t s.line) := rfl
  have tab : press t s 9 = handleKey t s 9 := by
    rw [press, if_neg (by decide), if_pos plain]
  rw [tab, key, completed]
  rfl

/-- Over any sequence of keys, from the first line on: all stores are in the buffer, the cursor
is on the line and the history fits its slots, if and only if no NUL is stored behind a line of
256 characters. -/
theorem line_stays_inside_iff (t : Table) (keys : List UInt8) :
    (∀ done todo, keys = done ++ todo → ∃ s, runFrom (press t) init done = some s ∧
      s.line.num ≤ s.line.eol ∧ ∀ i, (s.hist.lines i).length < histSize) ↔
      StepsMeet (press t) RoomForNul init keys := by
  constructor
  · intro inside
    obtain ⟨s, arrives, -⟩ := inside keys [] (List.append_nil keys).symm
    exact (arrives_iff (fun s c h room => press_ready t h room)
      (fun s c h full => press_leaves t h full) ready_init keys).mp ⟨s, arrives⟩
  · rintro meet done todo rfl
    obtain ⟨s, arrives, ready⟩ := invariant_of_run (fun s c h room => press_ready t h room)
      ready_init (stepsMeet_append.mp meet).1
    exact ⟨s, arrives, ready.line.cursor, ready.hist⟩

def noNames : Table := ⟨[], fun _ => none, fun _ _ => [], [], true⟩

/-- 256 characters are taken; the NUL that Enter stores behind them is outside the buffer. -/
theorem full_line_overruns :
    (runFrom (press noNames) init (List.replicate 256 97)).map
        (fun s => (s.line.num, s.line.eol)) = some (256, 256) ∧
      (runFrom (press noNames) init (List.replicate 256 97 ++ [13])).isNone = true := by
  constructor
  · decide +kernel
  · decide +kernel

-- "ab", back, "c", Enter and ^P
example : (runFrom (press noNames) init [97, 98, 2, 99, 13, 16]).map (fun s => text s.line.buf) =
    some [97, 99, 98] := by decide +kernel

end LineEdit
