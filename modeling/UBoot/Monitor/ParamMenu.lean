import UBoot.Monitor.LineBounds

/-!
# The parameter menu (common/cmd_menu.c)

`param_menu_shell` puts its commands together in `cmd_buf`, from fixed words and from lines of the
console. The memory starts with `cmd_buf` and goes on behind it.
-/

namespace ParamMenu

open ByteMemory LineEdit

def cmdBufSize : Nat := 256

/-- How far the end of a string is looked for: further than two lines and the words between. -/
def farEnough : Nat := 1024

def bytes (s : String) : Text := s.toList.map (fun c => UInt8.ofNat c.toNat)

/-- What `readline` leaves in `console_buffer`. -/
structure ConsoleLine where
  text : Text
  nonzero : 0 ∉ text
  short : text.length ≤ 255

/-- A key of the menu, and the lines that are typed where it asks for any. -/
structure Selection where
  key : Char
  name : ConsoleLine
  value : ConsoleLine

/-- `cmd_buf`, the places of all stores, and the strings that `run_command` got. -/
structure Shell where
  mem : Mem
  stored : List Nat
  passed : List Text

def Shell.text (s : Shell) : Text := (slice s.mem 0 farEnough).takeWhile (· ≠ 0)

def Shell.store (s : Shell) (at_ : Nat) (src : Text) : Shell :=
  { s with mem := blit s.mem at_ (src ++ [0]),
           stored := s.stored ++ List.range' at_ (src.length + 1) }

/-- `strcpy (cmd_buf, src)`, and `sprintf` of a text without `%`. -/
def Shell.strcpy (s : Shell) (src : Text) : Shell := s.store 0 src

def Shell.strcat (s : Shell) (src : Text) : Shell := s.store s.text.length src

def Shell.runCommand (s : Shell) : Shell := { s with passed := s.passed ++ [s.text] }

def bootargsNfs : Text :=
  bytes "setenv bootargs noinitrd root=/dev/nfs rw " ++
  bytes "nfsroot=192.168.14.14:/home/topeet/work/mini2440/rootfs " ++
  bytes "ip=192.168.14.19:192.168.14.14::255.255.255.0 " ++
  bytes "console=ttySAC0,115200 init=/linuxrc mem=64M"

def bootargsMtdblock : Text :=
  bytes "setenv bootargs noinitrd root=/dev/mtdblock4 rootfstype=cramfs " ++
  bytes "init=/linuxrc console=ttySAC0,115200 mem=64M"

/-- One turn of `param_menu_shell`; `none` where it returns. -/
def step (s : Shell) (sel : Selection) : Option Shell :=
  match sel.key with
  | 'v' => some ((s.strcpy (bytes "printenv ")).strcat sel.name.text).runCommand
  | 's' => some ((((s.strcpy (bytes "setenv ")).strcat sel.name.text).strcat
      (bytes " ")).strcat sel.value.text).runCommand
  | 'n' => some (s.strcpy bootargsNfs).runCommand
  | 'f' => some (s.strcpy bootargsMtdblock).runCommand
  | 'd' => some ((s.strcpy (bytes "setenv ")).strcat sel.name.text).runCommand
  | 'w' => some (s.strcpy (bytes "saveenv")).runCommand
  | 'q' => none
  | _ => some s

structure Fixed (word : Text) : Prop where
  nonzero : 0 ∉ word
  short : word.length < cmdBufSize

lemma printenv_fixed : Fixed (bytes "printenv ") := ⟨by decide, by decide⟩
lemma setenv_fixed : Fixed (bytes "setenv ") := ⟨by decide, by decide⟩
lemma saveenv_fixed : Fixed (bytes "saveenv") := ⟨by decide, by decide⟩

lemma bootargsNfs_fixed : Fixed bootargsNfs where
  nonzero := by
    simp only [bootargsNfs, List.mem_append, not_or]
    exact ⟨⟨⟨by decide, by decide⟩, by decide⟩, by decide⟩
  short := by
    simp only [bootargsNfs, List.length_append]
    decide

lemma bootargsMtdblock_fixed : Fixed bootargsMtdblock where
  nonzero := by
    simp only [bootargsMtdblock, List.mem_append, not_or]
    exact ⟨by decide, by decide⟩
  short := by
    decide

def commandOf (sel : Selection) : Option Text :=
  match sel.key with
  | 'v' => some (bytes "printenv " ++ sel.name.text)
  | 's' => some (bytes "setenv " ++ sel.name.text ++ bytes " " ++ sel.value.text)
  | 'n' => some bootargsNfs
  | 'f' => some bootargsMtdblock
  | 'd' => some (bytes "setenv " ++ sel.name.text)
  | 'w' => some (bytes "saveenv")
  | _ => none

/-- The lines leave room for the words and the NUL. -/
def Fits (sel : Selection) : Prop :=
  match sel.key with
  | 'v' => 9 + sel.name.text.length + 1 ≤ cmdBufSize
  | 's' => 7 + sel.name.text.length + 1 + sel.value.text.length + 1 ≤ cmdBufSize
  | 'd' => 7 + sel.name.text.length + 1 ≤ cmdBufSize
  | _ => True

def Shell.Inside (s : Shell) : Prop := ∀ i ∈ s.stored, i < cmdBufSize

variable {t : Text} {s r : Shell}

structure Shell.Spells (s : Shell) (t : Text) : Prop where
  there : Holds s.mem 0 (t ++ [0])
  nonzero : 0 ∉ t
  short : t.length < farEnough

lemma takeWhile_string (nonzero : 0 ∉ t) (rest : Text) :
    (t ++ 0 :: rest).takeWhile (· ≠ 0) = t := by
  rw [List.takeWhile_append_of_pos]
  · simp
  · intro c mem
    have differs : c ≠ 0 := fun zero => nonzero (zero ▸ mem)
    simpa using differs

lemma Shell.Spells.text (spells : s.Spells t) : s.text = t := by
  have short := spells.short
  have parts : farEnough = (t ++ [0]).length + (farEnough - (t.length + 1)) := by
    rw [List.length_append, List.length_singleton]
    omega
  rw [Shell.text, parts, slice_append, slice_of_holds spells.there, List.append_assoc]
  exact takeWhile_string spells.nonzero _

lemma store_spells {src : Text} (start : Holds s.mem 0 t) (nonzero : 0 ∉ t ++ src)
    (short : (t ++ src).length < farEnough) : (s.store t.length src).Spells (t ++ src) where
  there := by
    rw [List.append_assoc, holds_append]
    constructor
    · refine holds_congr (fun i _ before => blit_before _ _ ?_) start
      rwa [zero_add] at before
    · rw [zero_add]
      exact holds_blit _ _ _
  nonzero := nonzero
  short := short

lemma store_inside {start : Nat} {src : Text} :
    (s.store start src).Inside ↔ s.Inside ∧ start + src.length < cmdBufSize := by
  constructor
  · intro inside
    constructor
    · exact fun i mem => inside i (List.mem_append_left _ mem)
    · refine inside _ (List.mem_append_right _ (List.mem_range'_1.mpr ?_))
      omega
  · rintro ⟨inside, last⟩ i mem
    rcases List.mem_append.mp mem with earlier | new
    · exact inside i earlier
    · have range := List.mem_range'_1.mp new
      omega

/-- A command under construction: `r` spells `t`, and it is inside if `t` is. -/
structure Built (s r : Shell) (t : Text) : Prop where
  spells : r.Spells t
  passed : r.passed = s.passed
  inside : r.Inside ↔ s.Inside ∧ t.length < cmdBufSize

lemma strcpy_built (s : Shell) {word : Text} (fixed : Fixed word) :
    Built s (s.strcpy word) word where
  spells := store_spells (t := []) trivial (fixed.nonzero : 0 ∉ [] ++ word)
    (Nat.lt_trans fixed.short (by decide))
  passed := rfl
  inside := by
    rw [Shell.strcpy, store_inside, zero_add]

lemma strcat_built {src : Text} (built : Built s r t) (nonzero : 0 ∉ src)
    (short : t.length + src.length < farEnough) : Built s (r.strcat src) (t ++ src) where
  spells := by
    rw [Shell.strcat, built.spells.text]
    refine store_spells (holds_append.mp built.spells.there).1 ?_ ?_
    · rw [List.mem_append]
      exact fun either => either.elim built.spells.nonzero nonzero
    · rw [List.length_append]
      exact short
  passed := built.passed
  inside := by
    rw [Shell.strcat, store_inside, built.inside, built.spells.text, List.length_append]
    constructor
    · rintro ⟨⟨inside, -⟩, last⟩
      exact ⟨inside, last⟩
    · rintro ⟨inside, last⟩
      exact ⟨⟨inside, by omega⟩, last⟩

variable {sel : Selection}

/-- A turn passes its command, and stays inside exactly if the lines leave room. -/
structure Turn (s r : Shell) (sel : Selection) : Prop where
  passed : r.passed = s.passed ++ (commandOf sel).toList
  inside : r.Inside ↔ s.Inside ∧ Fits sel

lemma turn_of_built (built : Built s r t) (command : commandOf sel = some t)
    (fits : Fits sel ↔ t.length < cmdBufSize) :
    Turn s r.runCommand sel where
  passed := by
    rw [command, Shell.runCommand, built.passed, built.spells.text]
    rfl
  inside := by
    rw [fits]
    exact built.inside

lemma turn_of_fixed {word : Text} (fixed : Fixed word) (command : commandOf sel = some word)
    (fits : Fits sel) :
    Turn s (s.strcpy word).runCommand sel :=
  turn_of_built (strcpy_built s fixed) command (iff_of_true fits fixed.short)

lemma built_name (s : Shell) {word : Text} (fixed : Fixed word) (name : ConsoleLine) :
    Built s ((s.strcpy word).strcat name.text) (word ++ name.text) := by
  have word_short := fixed.short
  have name_short := name.short
  simp only [cmdBufSize] at word_short
  refine strcat_built (strcpy_built s fixed) name.nonzero ?_
  simp only [farEnough]
  omega

lemma built_value (s : Shell) (name value : ConsoleLine) :
    Built s ((((s.strcpy (bytes "setenv ")).strcat name.text).strcat (bytes " ")).strcat value.text)
      (bytes "setenv " ++ name.text ++ bytes " " ++ value.text) := by
  have word_length : (bytes "setenv ").length = 7 := by decide
  have space_length : (bytes " ").length = 1 := by decide
  have name_short := name.short
  have value_short := value.short
  refine strcat_built (strcat_built (built_name s setenv_fixed name) (by decide) ?_)
    value.nonzero ?_
  · simp only [List.length_append, farEnough]
    omega
  · simp only [List.length_append, farEnough]
    omega

lemma step_turn (h : step s sel = some r) : Turn s r sel := by
  have printenv_length : (bytes "printenv ").length = 9 := by decide
  have setenv_length : (bytes "setenv ").length = 7 := by decide
  have space_length : (bytes " ").length = 1 := by decide
  rw [step] at h
  split at h
  · rename_i key
    cases h
    refine turn_of_built (built_name s printenv_fixed sel.name) (by simp [commandOf, key]) ?_
    rw [Fits, key, List.length_append, printenv_length]
    exact Iff.rfl
  · rename_i key
    cases h
    refine turn_of_built (built_value s sel.name sel.value) (by simp [commandOf, key]) ?_
    rw [Fits, key, List.length_append, List.length_append, List.length_append, setenv_length,
      space_length]
    exact Iff.rfl
  · rename_i key
    cases h
    exact turn_of_fixed bootargsNfs_fixed (by simp [commandOf, key]) (by simp [Fits, key])
  · rename_i key
    cases h
    exact turn_of_fixed bootargsMtdblock_fixed (by simp [commandOf, key]) (by simp [Fits, key])
  · rename_i key
    cases h
    refine turn_of_built (built_name s setenv_fixed sel.name) (by simp [commandOf, key]) ?_
    rw [Fits, key, List.length_append, setenv_length]
    exact Iff.rfl
  · rename_i key
    cases h
    exact turn_of_fixed saveenv_fixed (by simp [commandOf, key]) (by simp [Fits, key])
  · cases h
  · -- a key without a command
    cases h
    constructor
    · simp [commandOf, *]
    · simp [Fits, *]

lemma fits_of_quit (h : step s sel = none) : Fits sel := by
  rw [step] at h
  split at h
  case h_7 key => simp [Fits, key]
  all_goals cases h

open Runs

structure Sound (s : Shell) (sels : List Selection) : Prop where
  inside : s.Inside
  passed : s.passed = sels.filterMap commandOf

def start (mem : Mem) : Shell := ⟨mem, [], []⟩

lemma start_inside (mem : Mem) : (start mem).Inside := fun _ mem => absurd mem List.not_mem_nil

lemma run_passed {sels : List Selection} (h : runFrom step s sels = some r) :
    r.passed = s.passed ++ sels.filterMap commandOf := by
  induction sels generalizing s with
  | nil =>
    cases h
    exact (List.append_nil _).symm
  | cons sel sels ih =>
    cases turn : step s sel with
    | none => simp [runFrom, turn] at h
    | some mid =>
      rw [runFrom_cons turn] at h
      rw [ih h, (step_turn turn).passed, List.append_assoc]
      cases command : commandOf sel with
      | none => simp [command]
      | some c => simp [command]

/-- Whatever is typed, complete commands are passed on; no store leaves `cmd_buf` exactly where each
turn has lines with room for its words and the NUL. -/
theorem sound_iff_fits (mem : Mem) (sels : List Selection) :
    (∀ done todo, sels = done ++ todo → ∀ s, runFrom step (start mem) done = some s →
      Sound s done) ↔ StepsMeet step (fun _ sel => Fits sel) (start mem) sels := by
  have inside : StepsMeet step (fun _ sel => Fits sel) (start mem) sels ↔
      ∀ done todo, sels = done ++ todo → ∀ s, runFrom step (start mem) done = some s → s.Inside :=
    stepsMeet_iff (fun _ => True) (fun s sel _ quit => fits_of_quit quit)
      (fun s sel t _ good turn => by
        rw [(step_turn turn).inside]
        exact (and_iff_right good).symm)
      (fun _ _ _ _ _ _ => trivial) trivial (start_inside mem) sels
  rw [inside]
  constructor
  · intro sound done todo split s arrives
    exact (sound done todo split s arrives).inside
  · intro all done todo split s arrives
    refine ⟨all done todo split s arrives, ?_⟩
    rw [run_passed arrives]
    rfl

def repeated (n : Nat) (short : n ≤ 255) : ConsoleLine where
  text := List.replicate n 97
  nonzero mem := absurd (List.eq_of_mem_replicate mem) (by decide)
  short := by
    rw [List.length_replicate]
    exact short

def longName : Selection := ⟨'v', repeated 247 (by decide), repeated 0 (by decide)⟩

theorem longName_leaves : ¬ ∀ done todo, [longName] = done ++ todo → ∀ s,
    runFrom step (start fun _ => 0) done = some s → Sound s done := by
  intro sound
  have arrives : ∃ s, step (start fun _ => 0) longName = some s := ⟨_, rfl⟩
  obtain ⟨s, turn⟩ := arrives
  have there := sound [longName] [] rfl s (by rw [runFrom_cons turn]; rfl)
  have fits : 9 + longName.name.text.length + 1 ≤ cmdBufSize :=
    ((step_turn turn).inside.mp there.inside).2
  have long : longName.name.text.length = 247 := List.length_replicate
  rw [long] at fits
  exact absurd fits (by decide)

end ParamMenu
