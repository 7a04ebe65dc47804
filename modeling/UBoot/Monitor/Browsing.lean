import UBoot.Monitor.History

/-!
# Browsing the history

Over a whole run of keys, Up and Down show the lines that were stored. Enter puts the history back
to where lines are added, ^C leaves it where it is.
-/

namespace LineEdit

open ByteMemory Runs

def State.entered (s : State) : Text := text (blit s.line.buf s.line.eol [0])

def EndsLine (s : State) (c : UInt8) : Prop := (c = 10 ∨ c = 13) ∨ (c = 3 ∧ s.esc = [])

instance (s : State) (c : UInt8) : Decidable (EndsLine s c) := inferInstanceAs (Decidable (_ ∨ _))

structure Log where
  state : State
  lines : List Text
  prompt : Bool                -- the last key ended a line

def Log.start : Log := ⟨init, [], true⟩

def Log.kept (g : Log) (c : UInt8) : List Text :=
  let line := g.state.entered
  if (c = 10 ∨ c = 13) ∧ line ≠ [] ∧ line.head? ≠ some 33 then line :: g.lines else g.lines

def Log.press (t : Table) (g : Log) (c : UInt8) : Option Log :=
  (LineEdit.press t g.state c).map fun s => ⟨s, g.kept c, decide (EndsLine g.state c)⟩

variable {h : History} {lines : List Text} {k : Nat} {s u : State} {c : UInt8}

lemma edit_hist {l : Option Line} (edited : s.edit l = some u) : u.hist = s.hist := by
  obtain ⟨r, -, rfl⟩ := Option.map_eq_some_iff.mp edited
  rfl

lemma browse_hist {found : Option Text × History} (browsed : browse found s = some u) :
    u.hist = found.2 := by
  unfold browse at browsed
  split at browsed
  · cases browsed
    rfl
  · obtain ⟨r, -, rfl⟩ := Option.map_eq_some_iff.mp browsed
    rfl

lemma handleKey_hist (t : Table) (pressed : handleKey t s c = some u) :
    u.hist = s.hist ∨ u.hist = (histPrev s.hist).2 ∨ u.hist = (histNext s.hist).2 := by
  have does := handled t s c
  generalize handleKey t s c = after at does pressed
  cases does with
  | moved v hist _ =>
    cases pressed
    exact .inl hist
  | edited l _ => exact .inl (edit_hist pressed)
  | prev => exact .inr (.inl (browse_hist pressed))
  | next => exact .inr (.inr (browse_hist pressed))

lemma press_hist (t : Table) (pressed : press t s c = some u) (going_on : ¬(c = 10 ∨ c = 13)) :
    u.hist = s.hist ∨ u.hist = (histPrev s.hist).2 ∨ u.hist = (histNext s.hist).2 := by
  rw [press, if_neg going_on] at pressed
  by_cases plain : s.esc = []
  · rw [if_pos plain] at pressed
    exact handleKey_hist t pressed
  rw [if_neg plain] at pressed
  by_cases first : s.esc.length = 1
  · rw [if_pos first] at pressed
    by_cases bracket : c = 91
    · rw [if_pos bracket] at pressed
      cases pressed
      exact .inl rfl
    · rw [if_neg bracket] at pressed
      obtain ⟨l, -, rfl⟩ := Option.map_eq_some_iff.mp pressed
      exact .inl rfl
  · rw [if_neg first] at pressed
    cases key : arrow c with
    | some k =>
      rw [key] at pressed
      exact handleKey_hist t (s := { s with esc := [] }) pressed
    | none =>
      rw [key] at pressed
      obtain ⟨l, -, rfl⟩ := Option.map_eq_some_iff.mp pressed
      exact .inl rfl

lemma entered_plain (s : State) : 0 ∉ s.entered := by
  intro nul
  have kept := List.all_eq_true.mp List.all_takeWhile 0 nul
  exact absurd rfl (of_decide_eq_true kept)

lemma finish_tracks (tracks : s.hist.Tracks lines) (finished : finish s = some u) :
    u.hist.Tracks (if s.entered ≠ [] ∧ s.entered.head? ≠ some 33 then s.entered :: lines
      else lines) ∧ u.hist.Synced ∧ u.esc = [] := by
  unfold finish at finished
  obtain ⟨buf, stored, rest⟩ := Option.bind_eq_some_iff.mp finished
  have buf_eq : text buf = s.entered := by
    unfold put at stored
    split at stored
    · cases stored
      rfl
    · cases stored
  rw [buf_eq] at rest
  by_cases keep : s.entered ≠ [] ∧ s.entered.head? ≠ some 33
  · rw [if_pos keep] at rest
    obtain ⟨hist, added, result⟩ := Option.bind_eq_some_iff.mp rest
    cases result
    obtain ⟨holds, short⟩ := addToHist_holds tracks.holds added
    rw [if_pos keep]
    refine ⟨⟨⟨holds.addIdx, holds.max, holds.slots⟩, ?_, .inr ⟨0, Nat.zero_le _, ?_⟩⟩, .inr rfl,
      rfl⟩
    · intro line there
      rcases List.mem_cons.mp there with rfl | there
      · exact ⟨entered_plain s, short⟩
      · exact tracks.plain line there
    · exact congrArg some holds.addIdx
  · rw [if_neg keep] at rest
    cases rest
    have holds := tracks.holds
    rw [if_neg keep]
    exact ⟨⟨⟨holds.addIdx, holds.max, holds.slots⟩, tracks.plain,
      .inr ⟨0, Nat.zero_le _, congrArg some holds.addIdx⟩⟩, .inr rfl, rfl⟩

def Resumes (g : Log) (c : UInt8) : Prop :=
  c = 3 → g.state.esc = [] → g.state.hist.Synced

instance (g : Log) (c : UInt8) : Decidable (Resumes g c) := inferInstanceAs (Decidable (_ → _))

structure Log.Kept (g : Log) : Prop where
  tracks : g.state.hist.Tracks g.lines
  prompt : g.prompt = true → g.state.hist.Synced ∧ g.state.esc = []

lemma kept_start : Log.start.Kept := ⟨tracks_init, fun _ => ⟨.inl rfl, rfl⟩⟩

lemma press_kept (t : Table) {g g' : Log} (kept : g.Kept) (resumes : Resumes g c)
    (pressed : g.press t c = some g') : g'.Kept := by
  obtain ⟨u, stepped, rfl⟩ := Option.map_eq_some_iff.mp pressed
  by_cases enter : c = 10 ∨ c = 13
  · rw [LineEdit.press, if_pos enter] at stepped
    obtain ⟨tracks, synced, esc⟩ := finish_tracks kept.tracks stepped
    refine ⟨?_, fun _ => ⟨synced, esc⟩⟩
    have lines : g.kept c = if g.state.entered ≠ [] ∧ g.state.entered.head? ≠ some 33 then
        g.state.entered :: g.lines else g.lines := by
      simp only [Log.kept, enter, true_and]
    rw [lines]
    exact tracks
  have lines : g.kept c = g.lines := if_neg fun h => enter h.1
  have hist := press_hist t stepped enter
  refine ⟨?_, fun ended => ?_⟩
  · dsimp only
    rw [lines]
    rcases hist with same | prev | next
    · rw [same]
      exact kept.tracks
    · rw [prev]
      exact histPrev_tracks kept.tracks
    · rw [next]
      exact histNext_tracks kept.tracks
  · have interrupt := (of_decide_eq_true ended).resolve_left enter
    have handled : handleKey t g.state 3 = some (start g.state.line.buf g.state.hist) := rfl
    rw [LineEdit.press, if_neg enter, if_pos interrupt.2, interrupt.1, handled] at stepped
    cases stepped
    exact ⟨resumes interrupt.1 interrupt.2, rfl⟩

def up : List UInt8 := [0x1b, 91, 65]

def down : List UInt8 := [0x1b, 91, 66]

def ups (k : Nat) : List UInt8 := (List.replicate k up).flatten

def Shows (line : Text) (s : State) : Prop :=
  text s.line.buf = line ∧ s.line.eol = line.length ∧ s.line.num = line.length

structure Browses (t : Table) (lines : List Text) (s : State) : Prop where
  shows_up : ∀ k (low : k < lines.length), k < 19 →
    ∃ r, runFrom (press t) s (ups (k + 1)) = some r ∧ Shows lines[k] r
  shows_down : ∀ k (low : k + 1 < lines.length), k + 1 < 19 →
    ∃ r, runFrom (press t) s (ups (k + 2) ++ down) = some r ∧ Shows lines[k] r
  oldest : ∀ k, reach lines.length ≤ k →
    ∃ r r', runFrom (press t) s (ups (reach lines.length)) = some r ∧
      runFrom (press t) s (ups k) = some r' ∧ r'.line = r.line

lemma text_blit (buf : Mem) {line : Text} (plain : 0 ∉ line) (short : line.length < 256) :
    text (blit buf 0 (line ++ [0])) = line := by
  have parts : cbSize = (line ++ [0]).length + (255 - line.length) := by
    rw [List.length_append, List.length_singleton]
    unfold cbSize
    omega
  have all : ∀ b ∈ line, decide (b ≠ 0) = true := fun b there =>
    decide_eq_true fun zero => plain (zero ▸ there)
  unfold text
  rw [parts, slice_append, slice_of_holds (holds_blit buf 0 _), List.append_assoc,
    List.takeWhile_append_of_pos all, List.singleton_append, List.takeWhile_cons_of_neg (by decide),
    List.append_nil]

lemma recallLine_shows {line : Text} (plain : 0 ∉ line) (short : line.length < 256) (l : Line) :
    ∃ r, recallLine line l = some r ∧ text r.buf = line ∧ r.eol = line.length ∧
      r.num = line.length := by
  have fits : 0 + (line ++ [0]).length ≤ 256 := by
    rw [List.length_append, List.length_singleton]
    omega
  have shown := text_blit l.buf plain short
  have buf : (eraseToEol { l with num := 0 }).buf = l.buf := by
    unfold eraseToEol
    split
    · rfl
    · rfl
  have num : (eraseToEol { l with num := 0 }).num = 0 := by
    unfold eraseToEol
    split
    · rfl
    · rfl
  unfold recallLine
  dsimp only
  rw [buf, num, put_inside _ fits]
  refine ⟨_, rfl, ?_⟩
  dsimp only
  rw [shown]
  unfold refreshToEol
  dsimp only
  split
  · exact ⟨shown, rfl, rfl⟩
  · exact ⟨shown, rfl, by dsimp only; omega⟩

lemma run_arrow (t : Table) (esc : s.esc = []) (key c : UInt8) (arrow_key : arrow key = some c)
    (plain : key ≠ 10 ∧ key ≠ 13) :
    runFrom (press t) s [0x1b, 91, key] = handleKey t s c := by
  obtain ⟨line, insert, keys, hist⟩ := s
  obtain rfl : keys = [] := esc
  have first : press t ⟨line, insert, [], hist⟩ 0x1b = some ⟨line, insert, [0x1b], hist⟩ := rfl
  have second : press t ⟨line, insert, [0x1b], hist⟩ 91 =
      some ⟨line, insert, [0x1b, 91], hist⟩ := rfl
  have third : press t ⟨line, insert, [0x1b, 91], hist⟩ key =
      handleKey t ⟨line, insert, [], hist⟩ c := by
    have going_on : ¬(key = 10 ∨ key = 13) := fun h => h.elim plain.1 plain.2
    have some_keys : ([0x1b, 91] : List UInt8) ≠ [] := List.cons_ne_nil _ _
    have two_keys : ([0x1b, 91] : List UInt8).length ≠ 1 := Nat.succ_ne_self 1
    rw [press, if_neg going_on, if_neg some_keys, if_neg two_keys, arrow_key]
  rw [runFrom_cons first, runFrom_cons second, runFrom, third]
  cases handleKey t ⟨line, insert, [], hist⟩ c with
  | none => rfl
  | some u => rfl

lemma run_up (t : Table) (esc : s.esc = []) :
    runFrom (press t) s up = browse (histPrev s.hist) s :=
  run_arrow t esc 65 16 rfl ⟨by decide, by decide⟩

lemma run_down (t : Table) (esc : s.esc = []) :
    runFrom (press t) s down = browse (histNext s.hist) s :=
  run_arrow t esc 66 14 rfl ⟨by decide, by decide⟩

/-- A state in which the history is `k` lines back. -/
structure BackAt (lines : List Text) (k : Nat) (s : State) : Prop where
  holds : s.hist.Holds lines
  back : s.hist.Back lines.length k
  esc : s.esc = []

lemma browse_shows {line : Text} (plain : 0 ∉ line) (short : line.length < 256) (s : State)
    (hist : History) : ∃ r, browse (some line, hist) s = some r ∧ Shows line r ∧ r.hist = hist ∧
      r.esc = [] := by
  obtain ⟨l, recalled, shown⟩ := recallLine_shows plain short s.line
  refine ⟨{ s with line := l, esc := [], hist := hist }, ?_, shown, rfl, rfl⟩
  unfold browse
  dsimp only
  rw [recalled]
  rfl

lemma up_shows (t : Table) (plain : ∀ line ∈ lines, 0 ∉ line ∧ line.length < 256)
    (at_k : BackAt lines k s) (low : k < lines.length) (near : k < 19) :
    ∃ r, runFrom (press t) s up = some r ∧ Shows lines[k] r ∧ BackAt lines (k + 1) r := by
  have further : k < reach lines.length := Nat.lt_min.mpr ⟨near, low⟩
  have prev := histPrev_eq at_k.holds at_k.back.2 further
  have line : lines.getD k [] = lines[k] := by
    rw [List.getD_eq_getElem?_getD, List.getElem?_eq_getElem low]
    rfl
  obtain ⟨no_nul, short⟩ := plain lines[k] (List.getElem_mem low)
  rw [line] at prev
  obtain ⟨r, browsed, shown, hist, esc⟩ := browse_shows no_nul short s
    { s.hist with cur := some (slot lines.length (k + 1)) }
  refine ⟨r, ?_, shown, ?_⟩
  · rw [run_up t at_k.esc, prev]
    exact browsed
  · have holds := at_k.holds
    refine ⟨?_, ?_, esc⟩
    · rw [hist]
      exact ⟨holds.addIdx, holds.max, holds.slots⟩
    · rw [hist]
      exact ⟨further, rfl⟩

lemma down_shows (t : Table) (plain : ∀ line ∈ lines, 0 ∉ line ∧ line.length < 256)
    (at_k : BackAt lines (k + 2) s) (low : k < lines.length) :
    ∃ r, runFrom (press t) s down = some r ∧ Shows lines[k] r := by
  have next := histNext_eq at_k.holds at_k.back.2 at_k.back.1
  have line : (if k + 1 = 0 then [] else lines.getD (k + 1 - 1) []) = lines[k] := by
    rw [if_neg (Nat.succ_ne_zero k), Nat.add_sub_cancel, List.getD_eq_getElem?_getD,
      List.getElem?_eq_getElem low]
    rfl
  obtain ⟨no_nul, short⟩ := plain lines[k] (List.getElem_mem low)
  rw [line] at next
  obtain ⟨r, browsed, shown, -, -⟩ := browse_shows no_nul short s
    { s.hist with cur := some (slot lines.length (k + 1)) }
  refine ⟨r, ?_, shown⟩
  rw [run_down t at_k.esc, next]
  exact browsed

lemma up_stays (t : Table) (esc : s.esc = []) (last : histPrev s.hist = (none, s.hist)) :
    runFrom (press t) s up = some s := by
  obtain ⟨line, insert, keys, hist⟩ := s
  obtain rfl : keys = [] := esc
  rw [run_up t rfl, last]
  rfl

lemma ups_succ (k : Nat) : ups (k + 1) = ups k ++ up := by
  unfold ups
  rw [List.replicate_succ', List.flatten_append, List.flatten_singleton]

lemma run_ups (t : Table) (plain : ∀ line ∈ lines, 0 ∉ line ∧ line.length < 256)
    (start : BackAt lines 0 s) (low : k ≤ reach lines.length) :
    ∃ r, runFrom (press t) s (ups k) = some r ∧ BackAt lines k r := by
  induction k with
  | zero => exact ⟨s, rfl, start⟩
  | succ k ih =>
    obtain ⟨r, run, at_k⟩ := ih (Nat.le_of_succ_le low)
    obtain ⟨near, inside⟩ := Nat.lt_min.mp (Nat.lt_of_succ_le low)
    obtain ⟨r', more, -, at_k'⟩ := up_shows t plain at_k inside near
    refine ⟨r', ?_, at_k'⟩
    rw [ups_succ, runFrom_append, run]
    exact more

lemma run_ups_oldest (t : Table) {r : State} (last : runFrom (press t) s (ups k) = some r)
    (stays : runFrom (press t) r up = some r) (more : Nat) :
    runFrom (press t) s (ups (k + more)) = some r := by
  induction more with
  | zero => exact last
  | succ more ih =>
    rw [Nat.add_succ, ups_succ, runFrom_append, ih]
    exact stays

lemma browses_of_synced (t : Table) (tracks : s.hist.Tracks lines) (synced : s.hist.Synced)
    (esc : s.esc = []) : Browses t lines s := by
  have holds := tracks.holds
  by_cases none_yet : s.hist.cur = none
  · -- nothing has been entered
    have empty : lines = [] := by
      rcases tracks.cur with ⟨-, empty⟩ | ⟨k, -, cur⟩
      · exact empty
      · rw [none_yet] at cur
        cases cur
    subst empty
    have stays := up_stays t esc (by unfold histPrev; rw [none_yet])
    refine ⟨fun k low => absurd low (Nat.not_lt_zero k),
      fun k low => absurd low (Nat.not_lt_zero _), fun k _ => ⟨s, s, rfl, ?_, rfl⟩⟩
    have run := run_ups_oldest t (k := 0) rfl stays k
    rw [zero_add] at run
    exact run
  · have start : BackAt lines 0 s := by
      refine ⟨holds, ⟨Nat.zero_le _, ?_⟩, esc⟩
      rw [synced.resolve_left none_yet, holds.addIdx]
    refine ⟨?_, ?_, ?_⟩
    · intro k low near
      obtain ⟨r, run, at_k⟩ := run_ups t tracks.plain start
        (Nat.le_min.mpr ⟨Nat.le_of_lt near, Nat.le_of_lt low⟩)
      obtain ⟨r', more, shown, -⟩ := up_shows t tracks.plain at_k low near
      refine ⟨r', ?_, shown⟩
      rw [ups_succ, runFrom_append, run]
      exact more
    · intro k low near
      obtain ⟨r, run, at_k⟩ := run_ups t tracks.plain start
        (Nat.le_min.mpr ⟨Nat.succ_le_of_lt near, Nat.succ_le_of_lt low⟩)
      obtain ⟨r', more, shown⟩ := down_shows t tracks.plain at_k (Nat.lt_of_succ_lt low)
      refine ⟨r', ?_, shown⟩
      rw [runFrom_append, run]
      exact more
    · intro k high
      obtain ⟨r, run, at_k⟩ := run_ups t tracks.plain start (Nat.le_refl _)
      have stays := up_stays t at_k.esc (histPrev_oldest at_k.holds at_k.back.2)
      obtain ⟨more, rfl⟩ := Nat.exists_eq_add_of_le high
      exact ⟨r, r, run, run_ups_oldest t run stays more, rfl⟩

/-- At every prompt of a run in which ^C is pressed only where the history is where lines are
added, Up and Down show the stored lines. -/
theorem prompt_browses (t : Table) {keys : List UInt8} {g : Log}
    (resumed : StepsMeet (Log.press t) Resumes Log.start keys)
    (run : runFrom (Log.press t) Log.start keys = some g) (prompt : g.prompt = true) :
    Browses t g.lines g.state := by
  have kept : g.Kept := invariant_of_arrival
    (fun _ _ _ kept resumes pressed => press_kept t kept resumes pressed) kept_start resumed run
  obtain ⟨synced, esc⟩ := kept.prompt prompt
  exact browses_of_synced t kept.tracks synced esc

def noTable : Table := ⟨[], fun _ => none, fun _ _ => [], [], false⟩

/-- "a", "b" and a third line that ^C aborts. -/
theorem two_lines_browse : ∃ g, runFrom (Log.press noTable) Log.start [97, 10, 98, 10, 99, 3] = some g ∧
    g.lines = [[98], [97]] ∧ Browses noTable g.lines g.state := by
  have resumed : StepsMeet (Log.press noTable) Resumes Log.start [97, 10, 98, 10, 99, 3] := by
    decide +kernel
  exact ⟨_, rfl, rfl, prompt_browses noTable resumed rfl rfl⟩

/-- After "a", "b" and an Up that is aborted, Up shows "a". -/
theorem interrupted_browsing : ∃ g r,
    runFrom (Log.press noTable) Log.start ([97, 10, 98, 10] ++ up ++ [3]) = some g ∧
      g.prompt = true ∧ g.lines = [[98], [97]] ∧
      runFrom (press noTable) g.state (ups 1) = some r ∧ text r.line.buf = [97] ∧
      ¬Browses noTable g.lines g.state := by
  refine ⟨_, _, rfl, rfl, rfl, rfl, rfl, ?_⟩
  intro browses
  obtain ⟨r, run, shown, -⟩ := browses.shows_up 0 (by decide) (by decide)
  obtain rfl := Option.some.inj run
  exact absurd shown (by decide +kernel)

end LineEdit
