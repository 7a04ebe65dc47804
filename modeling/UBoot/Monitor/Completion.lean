import Mathlib.Data.List.DropRight
import UBoot.Lib.Prefixes
import UBoot.Monitor.LineBounds

/-!
# What Tab adds to the line (common/command.c)

`complete_cmdv` looks for commands that go on as the first word does, or for variables
(common/env_common.c). `cmd_auto_complete` adds what the candidates have in common behind the place
at which `argv[argc - 1]` would end in them.
-/

namespace LineEdit

open ByteMemory CommonPrefix

/-- `cmd_tbl_t`: the name, and whether `complete` is `var_complete`. -/
structure Command where
  name : Text
  complete : Bool

/-- `find_cmd`: a full match, or the only command the name abbreviates. -/
def findCmd (table : List Command) (cmd : Text) : Option Command :=
  let base := cmd.takeWhile (· ≠ 46)
  let found := table.filter fun cmdtp => base.isPrefixOf cmdtp.name
  match found.find? fun cmdtp => cmdtp.name.length = base.length with
  | some cmdtp => some cmdtp
  | none => match found with
    | [cmdtp] => some cmdtp
    | _ => none

/-- `env_complete`, for the strings of the environment. `maxv` is 20. -/
def envComplete (var : Text) : (found bufsz : Nat) → (env : List Text) → List Text
  | _, _, [] => []
  | found, bufsz, lval :: env =>
    let name := lval.takeWhile (· ≠ 61)
    if ¬ var.isPrefixOf name then envComplete var found bufsz env
    else if found ≥ 18 ∨ bufsz < name.length + 1 then [[46, 46, 46]]
    else name :: envComplete var (found + 1) (bufsz - (name.length + 1)) env

def varComplete (env : List Text) (argv : List Text) (last : UInt8) : List Text :=
  let space := last = 0 ∨ isBlank last
  if space ∧ argv.length = 1 then envComplete [] 0 512 env
  else if ¬ space ∧ argv.length = 2 then envComplete (argv.getD 1 []) 0 512 env
  else []

/-- What completion knows at the normal prompt, with what lies behind names and before `argv`. -/
def normalTable (cmds : List Command) (env : List Text) (behind : Text → Nat → Text)
    (stray : Text) : Table where
  names := cmds.map Command.name
  complete cmd := (findCmd cmds cmd).bind fun cmdtp =>
    if cmdtp.complete then some (varComplete env) else none
  behind := behind
  stray := stray
  console := true

def candidates (t : Table) (line : Text) : List Text :=
  completeCmdv t (makeArgv 16 line) (line.getLast?.getD 0)

def wordLength (t : Table) (line : Text) : Nat :=
  ((makeArgv 16 line).getLast?.getD t.stray).length

def lastWord (line : Text) : Text := line.rtakeWhile fun c => !isBlank c

/-- Text is added, with its NUL in the buffer. The last word is then what all candidates have in
common; a single one has a blank behind it. -/
structure Completed (cmdv : List Text) (buf : Mem) (added : Text) (r : Mem × Nat) : Prop where
  result : r = (blit buf (text buf).length (added ++ [0]), (text buf).length + added.length)
  inside : (text buf).length + added.length < cbSize
  word : ∃ p, Longest p cmdv ∧
    lastWord (text buf) ++ added = p ++ if cmdv.length = 1 then [32] else []

/-- What is added does not depend on what is behind the NUL of a candidate. The line is left as it
is, or completed. -/
structure Sound (t : Table) (buf : Mem) : Prop where
  reads : ∀ behind, addition { t with behind } (makeArgv 16 (text buf)) (candidates t (text buf)) =
    addition t (makeArgv 16 (text buf)) (candidates t (text buf))
  line : ∃ r, cmdAutoComplete t buf (text buf).length = some r ∧
    (r = (buf, (text buf).length) ∨ ∃ added, Completed (candidates t (text buf)) buf added r)

def Adds (t : Table) (line name : Text) (others : List Text) : Prop :=
  if others = [] then line.length + (name.length - wordLength t line + 1) < cbSize - 2
  else wordLength t line < findCommon (name :: others) ∧
    line.length + (findCommon (name :: others) - wordLength t line) < cbSize - 2

/-- The candidates go on where the last word of the line ends: a single one is not shorter than
`argv[argc - 1]`, and what is added belongs behind a last word of that length. -/
structure Agrees (t : Table) (line : Text) : Prop where
  long : ∀ name, candidates t line = [name] → wordLength t line ≤ name.length
  word : ∀ name others, candidates t line = name :: others → Adds t line name others →
    (lastWord line).length = wordLength t line ∧ lastWord line <+: name

lemma common_le (a b : Text) : common a b ≤ a.length := by
  fun_induction common a b with
  | case1 as b bs ih => exact Nat.succ_le_succ ih
  | case2 => exact Nat.zero_le _
  | case3 => exact Nat.zero_le _

lemma common_prefix (a b : Text) : a.take (common a b) <+: b := by
  fun_induction common a b with
  | case1 as b bs ih => exact (List.cons_prefix_cons).mpr ⟨rfl, ih⟩
  | case2 => exact List.nil_prefix
  | case3 => exact List.nil_prefix

lemma le_common {q a b : Text} (first : q <+: a) (second : q <+: b) : q.length ≤ common a b := by
  induction q generalizing a b with
  | nil => exact Nat.zero_le _
  | cons c q ih =>
    obtain ⟨as, rfl⟩ := first
    obtain ⟨bs, rfl⟩ := second
    rw [List.cons_append, List.cons_append, common, if_pos rfl]
    exact Nat.succ_le_succ (ih (List.prefix_append q as) (List.prefix_append q bs))

lemma foldl_common (anchor : Text) (rest : List Text) {n : Nat} (short : n ≤ anchor.length) :
    let m := rest.foldl (fun len t => common (anchor.take len) t) n
    m ≤ n ∧ (∀ t ∈ rest, anchor.take m <+: t) ∧
      ∀ q, q <+: anchor.take n → (∀ t ∈ rest, q <+: t) → q.length ≤ m := by
  induction rest generalizing n with
  | nil =>
    refine ⟨Nat.le_refl n, nofun, fun q le _ => ?_⟩
    exact (List.prefix_take_iff.mp le).2
  | cons t rest ih =>
    have less : common (anchor.take n) t ≤ n :=
      le_trans (common_le _ t) (List.length_take_le n anchor)
    have taken : (anchor.take n).take (common (anchor.take n) t) =
        anchor.take (common (anchor.take n) t) := by
      rw [List.take_take, min_eq_left less]
    obtain ⟨le, all, most⟩ := ih (le_trans less short)
    rw [List.foldl_cons]
    refine ⟨le_trans le less, List.forall_mem_cons.mpr ⟨?_, all⟩, fun q below each => ?_⟩
    · refine List.IsPrefix.trans ?_ (taken ▸ common_prefix (anchor.take n) t)
      exact List.take_prefix_take_left le
    · obtain ⟨here, later⟩ := List.forall_mem_cons.mp each
      have few := le_common below here
      refine most q (List.prefix_take_iff.mpr ⟨?_, few⟩) later
      exact below.trans (List.take_prefix n anchor)

lemma findCommon_longest (name : Text) (others : List Text) :
    findCommon (name :: others) ≤ name.length ∧
      Longest (name.take (findCommon (name :: others))) (name :: others) := by
  obtain ⟨le, all, most⟩ := foldl_common name others (Nat.le_refl name.length)
  refine ⟨le, List.forall_mem_cons.mpr ⟨List.take_prefix _ _, all⟩, fun q each => ?_⟩
  obtain ⟨here, later⟩ := List.forall_mem_cons.mp each
  refine List.prefix_take_iff.mpr ⟨here, most q ?_ later⟩
  rw [List.take_length]
  exact here

section
variable (t : Table) (line : Text)

lemma addition_one (behind : Text → Nat → Text) (name : Text) :
    addition { t with behind } (makeArgv 16 line) [name] =
      some (if wordLength t line ≤ name.length then name.drop (wordLength t line)
        else behind name (wordLength t line), true) := rfl

lemma addition_more (name other : Text) (others : List Text) :
    addition t (makeArgv 16 line) (name :: other :: others) =
      if wordLength t line < findCommon (name :: other :: others) then
        some ((name.drop (wordLength t line)).take
          (findCommon (name :: other :: others) - wordLength t line), false)
      else none := rfl

end

variable {name : Text} {others : List Text}

lemma blit_inj {m : Mem} {a : Nat} {bs bs' : List UInt8} (same : blit m a bs = blit m a bs')
    (length : bs.length = bs'.length) : bs = bs' := by
  refine List.ext_getElem length fun j low high => ?_
  rw [← blit_inside m bs low, same, blit_inside m bs' high]

lemma cmdAutoComplete_adds {t : Table} (console : t.console = true) (buf : Mem) {added : Text}
    {s : Text} {sep : Bool}
    (adds : addition t (makeArgv 16 (text buf)) (candidates t (text buf)) = some (s, sep))
    (added_eq : (if sep then s ++ [32] else s) = added) :
    cmdAutoComplete t buf (text buf).length =
      if (text buf).length + added.length ≥ cbSize - 2 then some (buf, (text buf).length)
      else some (blit buf (text buf).length (added ++ [0]),
        (text buf).length + added.length) := by
  unfold candidates at adds
  rw [cmdAutoComplete, if_pos console]
  dsimp only
  rw [adds]
  dsimp only
  rw [added_eq]
  split
  case isTrue => rfl
  case isFalse room =>
    unfold cbSize at room
    rw [put_inside _ (by rw [List.length_append, List.length_singleton]; omega), Option.map_some]

lemma cmdAutoComplete_nothing {t : Table} (console : t.console = true) (buf : Mem)
    (none : addition t (makeArgv 16 (text buf)) (candidates t (text buf)) = none) :
    cmdAutoComplete t buf (text buf).length = some (buf, (text buf).length) := by
  unfold candidates at none
  rw [cmdAutoComplete, if_pos console]
  dsimp only
  rw [none]

lemma lastWord_completes {last name : Text} {k j : Nat} (less : k ≤ j) (inside : j ≤ name.length) :
    last ++ (name.drop k).take (j - k) = name.take j ↔ last.length = k ∧ last <+: name := by
  have length : ((name.drop k).take (j - k)).length = j - k := by
    rw [List.length_take, List.length_drop]
    omega
  constructor
  · intro whole
    have sum := congrArg List.length whole
    rw [List.length_append, length, List.length_take, min_eq_left inside] at sum
    refine ⟨by omega, List.IsPrefix.trans ⟨_, whole⟩ (List.take_prefix j name)⟩
  · rintro ⟨rfl, start⟩
    rw [← List.drop_take]
    nth_rewrite 1 [List.prefix_iff_eq_take.mp (List.prefix_take_iff.mpr ⟨start, less⟩)]
    exact List.take_append_drop _ _

lemma lastWord_completes_whole {last : Text} {k : Nat} (inside : k ≤ name.length) :
    last ++ name.drop k = name ↔ last.length = k ∧ last <+: name := by
  have whole := @lastWord_completes last name k name.length inside le_rfl
  rwa [List.take_length, List.take_of_length_le (by rw [List.length_drop])] at whole

lemma Completed.added_eq {cmdv : List Text} {buf : Mem} {added added' : Text}
    (completed : Completed cmdv buf added'
      (blit buf (text buf).length (added ++ [0]), (text buf).length + added.length)) :
    added = added' := by
  obtain ⟨memory, length⟩ := Prod.mk.inj completed.result
  have same : added.length = added'.length := by omega
  have strings := blit_inj memory (by simp only [List.length_append, same])
  exact (List.append_inj strings same).1

section
variable {t : Table} {buf : Mem}

lemma unchanged_or_completed (console : t.console = true) {s : Text} {sep : Bool} {added : Text}
    (adds : addition t (makeArgv 16 (text buf)) (candidates t (text buf)) = some (s, sep))
    (added_eq : (if sep then s ++ [32] else s) = added) (some_added : 0 < added.length) :
    (∃ r, cmdAutoComplete t buf (text buf).length = some r ∧
      (r = (buf, (text buf).length) ∨ ∃ added, Completed (candidates t (text buf)) buf added r)) ↔
    ((text buf).length + added.length < cbSize - 2 → ∃ p, Longest p (candidates t (text buf)) ∧
      lastWord (text buf) ++ added =
        p ++ if (candidates t (text buf)).length = 1 then [32] else []) := by
  rw [cmdAutoComplete_adds console buf adds added_eq]
  by_cases full : (text buf).length + added.length ≥ cbSize - 2
  · rw [if_pos full]
    exact iff_of_true ⟨_, rfl, .inl rfl⟩ fun room => absurd full (not_le.mpr room)
  have room := not_le.mp full
  rw [if_neg full]
  constructor
  · rintro ⟨r, same, unchanged | ⟨added', completed⟩⟩ _
    · cases same
      have length := (Prod.mk.inj unchanged).2
      omega
    · cases same
      obtain rfl := completed.added_eq
      exact completed.word
  · intro word
    refine ⟨_, rfl, .inr ⟨added, rfl, ?_, word room⟩⟩
    unfold cbSize at room ⊢
    omega

lemma sound_none (console : t.console = true) (none : candidates t (text buf) = []) :
    Sound t buf := by
  refine ⟨fun behind => ?_, _, cmdAutoComplete_nothing console buf ?_, .inl rfl⟩
  · rw [none]
    rfl
  · rw [none]
    rfl

lemma sound_one (console : t.console = true) (one : candidates t (text buf) = [name]) :
    Sound t buf ↔ wordLength t (text buf) ≤ name.length ∧
      (Adds t (text buf) name [] →
        (lastWord (text buf)).length = wordLength t (text buf) ∧ lastWord (text buf) <+: name) := by
  by_cases long : wordLength t (text buf) ≤ name.length
  · have added (behind : Text → Nat → Text) :
        addition { t with behind } (makeArgv 16 (text buf)) (candidates t (text buf)) =
          some (name.drop (wordLength t (text buf)), true) := by
      rw [one, addition_one, if_pos long]
    have adds := added t.behind
    have line := unchanged_or_completed console adds (if_pos rfl)
      (by rw [List.length_append, List.length_singleton]; omega)
    rw [and_iff_right long, ← lastWord_completes_whole long, Adds, if_pos rfl]
    rw [one] at line
    rw [List.length_append, List.length_singleton, List.length_drop] at line
    have only (p : Text) : Longest p [name] ↔ p = name :=
      ⟨fun longest => longest.unique (longest_singleton name),
        fun same => same ▸ longest_singleton name⟩
    simp only [only, exists_eq_left, List.length_singleton, if_pos, ← List.append_assoc,
      List.append_left_inj] at line
    constructor
    · intro sound
      have := sound.line
      rw [one] at this
      exact line.mp this
    · intro word
      refine ⟨fun behind => (added behind).trans adds.symm, ?_⟩
      rw [one]
      exact line.mpr word
  · refine iff_of_false (fun sound => ?_) fun both => long both.1
    have added (behind : Text → Nat → Text) :
        addition { t with behind } (makeArgv 16 (text buf)) (candidates t (text buf)) =
          some (behind name (wordLength t (text buf)), true) := by
      rw [one, addition_one, if_neg long]
    have other := sound.reads fun name k => t.behind name k ++ [0]
    rw [added] at other
    have same := (Prod.mk.inj (Option.some.inj (other.trans (added t.behind)))).1
    have length := congrArg List.length same
    rw [List.length_append, List.length_singleton] at length
    omega

lemma sound_more (console : t.console = true) {other : Text}
    (more : candidates t (text buf) = name :: other :: others) :
    Sound t buf ↔ (Adds t (text buf) name (other :: others) →
      (lastWord (text buf)).length = wordLength t (text buf) ∧ lastWord (text buf) <+: name) := by
  obtain ⟨inside, longest⟩ := findCommon_longest name (other :: others)
  have reads (behind : Text → Nat → Text) :
      addition { t with behind } (makeArgv 16 (text buf)) (candidates t (text buf)) =
        addition t (makeArgv 16 (text buf)) (candidates t (text buf)) := by
    rw [more]
    rfl
  rw [Adds, if_neg (List.cons_ne_nil other others)]
  by_cases less : wordLength t (text buf) < findCommon (name :: other :: others)
  · have adds : addition t (makeArgv 16 (text buf)) (candidates t (text buf)) =
        some ((name.drop (wordLength t (text buf))).take
          (findCommon (name :: other :: others) - wordLength t (text buf)), false) := by
      rw [more, addition_more, if_pos less]
    have length : ((name.drop (wordLength t (text buf))).take
        (findCommon (name :: other :: others) - wordLength t (text buf))).length =
          findCommon (name :: other :: others) - wordLength t (text buf) := by
      rw [List.length_take, List.length_drop]
      omega
    have line := unchanged_or_completed console adds (if_neg Bool.false_ne_true)
      (by rw [length]; omega)
    have not_one : ¬ (name :: other :: others).length = 1 := by
      rw [List.length_cons, List.length_cons]
      omega
    have only (p : Text) : Longest p (name :: other :: others) ↔
        p = name.take (findCommon (name :: other :: others)) :=
      ⟨fun longest' => longest'.unique longest, fun same => same ▸ longest⟩
    rw [more, length, if_neg not_one] at line
    simp only [only, exists_eq_left, List.append_nil] at line
    rw [and_iff_right less, ← lastWord_completes (le_of_lt less) inside]
    constructor
    · intro sound
      have := sound.line
      rw [more] at this
      exact line.mp this
    · intro word
      refine ⟨reads, ?_⟩
      rw [more]
      exact line.mpr word
  · refine iff_of_true ⟨reads, _, cmdAutoComplete_nothing console buf ?_, .inl rfl⟩
      fun both => absurd both.1 less
    rw [more, addition_more, if_neg less]

end

/-- Tab does what it should if and only if the candidates go on where the last word ends. -/
theorem sound_iff_agrees (cmds : List Command) (env : List Text) (behind : Text → Nat → Text)
    (stray : Text) (buf : Mem) : Sound (normalTable cmds env behind stray) buf ↔
      Agrees (normalTable cmds env behind stray) (text buf) := by
  generalize table : normalTable cmds env behind stray = t
  have console : t.console = true := by rw [← table]; rfl
  cases found : candidates t (text buf) with
  | nil =>
    refine iff_of_true (sound_none console found) ⟨fun name one => ?_, fun name others some => ?_⟩
    · rw [found] at one
      cases one
    · rw [found] at some
      cases some
  | cons name others => cases others with
    | nil =>
      rw [sound_one console found]
      constructor
      · rintro ⟨long, word⟩
        refine ⟨fun name' one => ?_, fun name' others some => ?_⟩
        · rw [found] at one
          cases one
          exact long
        · rw [found] at some
          cases some
          exact word
      · exact fun agrees => ⟨agrees.long name found, agrees.word name [] found⟩
    | cons other others =>
      rw [sound_more console found]
      constructor
      · refine fun word => ⟨fun name' one => ?_, fun name' others' some => ?_⟩
        · rw [found] at one
          cases one
        · rw [found] at some
          cases some
          exact word
      · exact fun agrees => agrees.word name (other :: others) found

/-- `cp.b`, when `cp` is the only command that begins so, is longer than its candidate. -/
theorem reads_behind_cp : ¬ Sound (normalTable [⟨[99, 112], false⟩] [] (fun _ _ => []) [])
    (ofBytes [99, 112, 46, 98]) := by
  intro sound
  have line : text (ofBytes [99, 112, 46, 98]) = [99, 112, 46, 98] := by decide
  have reads := sound.reads fun _ _ => [0]
  rw [line] at reads
  cases reads

end LineEdit
