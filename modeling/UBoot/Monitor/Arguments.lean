import Mathlib.Data.List.TakeWhile
import Mathlib.Order.MinMax
import UBoot.Lib.Runs
import UBoot.Monitor.RunCommand

/-!
# The arguments of a command (common/main.c)

`parse_line` with the array it fills, and the loop of `run_command` with that array as part of
its state. The array has one place more than CONFIG_SYS_MAXARGS; it is not initialized, and a
command may write to it.
-/

namespace Monitor

/-- `none` is NULL. The text behind a pointer left from an earlier token is not meant. -/
abbrev Argv := Nat → Option Text

def inWord (c : Char) : Bool := !blank c

/-- `parse_line` with room for so many more arguments. It writes the NULL where it meets the
end of the line, and not where the room ends. -/
def parseArgs : (left nargs : Nat) → Argv → Text → Nat × Argv
  | 0, nargs, argv, _ => (nargs, argv)
  | left + 1, nargs, argv, line =>
    match line.dropWhile blank with
    | [] => (nargs, Function.update argv nargs none)
    | c :: cs =>
      let argv := Function.update argv nargs (some ((c :: cs).takeWhile inWord))
      match (c :: cs).dropWhile inWord with
      | [] => (nargs + 1, Function.update argv (nargs + 1) none)
      | _ :: rest => parseArgs left (nargs + 1) argv rest

def endsBlank (line : Text) : Bool := line.getLast?.any blank

lemma words_skip (line : Text) : words [] (line.dropWhile blank) = words [] line := by
  induction line with
  | nil => rfl
  | cons c cs ih =>
    cases h : blank c with
    | false => rw [List.dropWhile_cons_of_neg (by simp [h])]
    | true =>
      rw [List.dropWhile_cons_of_pos h, ih]
      simp [words, h]

lemma words_read {word : Text} (some_ : word ≠ []) (line : Text) :
    words word line = (word.reverse ++ line.takeWhile inWord) ::
      words [] (line.dropWhile inWord).tail := by
  induction line generalizing word with
  | nil => simp [words, some_]
  | cons c cs ih =>
    cases h : blank c with
    | true => simp [words, inWord, h, some_]
    | false =>
      rw [words, h, if_neg Bool.false_ne_true, ih (List.cons_ne_nil c word)]
      simp [inWord, h]

lemma words_first {line cs : Text} {c : Char} (skipped : line.dropWhile blank = c :: cs) :
    words [] line = (c :: cs).takeWhile inWord :: words [] ((c :: cs).dropWhile inWord).tail := by
  have start : blank c = false := by
    have some_ : line.dropWhile blank ≠ [] := by simp [skipped]
    simpa [skipped] using List.head_dropWhile_not blank some_
  rw [← words_skip, skipped, words, start, if_neg Bool.false_ne_true,
    words_read (List.cons_ne_nil c [])]
  simp [inWord, start]

lemma words_none {line : Text} (skipped : line.dropWhile blank = []) : words [] line = [] := by
  rw [← words_skip, skipped]
  rfl

lemma endsBlank_append {line : Text} (some_ : line ≠ []) (front : Text) :
    endsBlank (front ++ line) = endsBlank line := by
  simp [endsBlank, List.getLast?_append_of_ne_nil _ some_]

lemma endsBlank_skip {line cs : Text} {c : Char} (skipped : line.dropWhile blank = c :: cs) :
    endsBlank line = endsBlank (c :: cs) := by
  have parts := List.takeWhile_append_dropWhile (p := blank) (l := line)
  rw [skipped] at parts
  rw [← parts]
  exact endsBlank_append (List.cons_ne_nil c cs) _

lemma line_cases (line : Text) :
    (words [] line = [] ∧ ∀ left nargs argv,
      parseArgs (left + 1) nargs argv line = (nargs, Function.update argv nargs none)) ∨
    (∃ word, words [] line = [word] ∧ endsBlank line = false ∧ ∀ left nargs argv,
      parseArgs (left + 1) nargs argv line = (nargs + 1,
        Function.update (Function.update argv nargs (some word)) (nargs + 1) none)) ∨
    ∃ word rest, words [] line = word :: words [] rest ∧
      (endsBlank line = true ↔ rest = [] ∨ endsBlank rest = true) ∧ ∀ left nargs argv,
        parseArgs (left + 1) nargs argv line =
          parseArgs left (nargs + 1) (Function.update argv nargs (some word)) rest := by
  cases skipped : line.dropWhile blank with
  | nil =>
    refine .inl ⟨words_none skipped, fun left nargs argv => ?_⟩
    rw [parseArgs, skipped]
  | cons c cs =>
    have split := List.takeWhile_append_dropWhile (p := inWord) (l := c :: cs)
    have first := words_first skipped
    cases gap : (c :: cs).dropWhile inWord with
    | nil =>
      refine .inr (.inl ⟨(c :: cs).takeWhile inWord, ?_, ?_, fun left nargs argv => ?_⟩)
      · rw [first, gap]
        rfl
      · rw [endsBlank_skip skipped]
        rw [gap, List.append_nil] at split
        have letters : ∀ x ∈ c :: cs, inWord x = true := by
          exact List.takeWhile_eq_self_iff.mp split
        have last := letters _ (List.getLast_mem (List.cons_ne_nil c cs))
        rw [endsBlank, List.getLast?_eq_getLast_of_ne_nil (List.cons_ne_nil c cs)]
        simpa [inWord] using last
      · simp only [parseArgs, skipped, gap]
    | cons b rest =>
      refine .inr (.inr ⟨(c :: cs).takeWhile inWord, rest, ?_, ?_, fun left nargs argv => ?_⟩)
      · rw [first, gap]
        rfl
      · have some_ : (c :: cs).dropWhile inWord ≠ [] := by simp [gap]
        have stop : blank b = true := by
          simpa [gap, inWord] using List.head_dropWhile_not inWord some_
        rw [endsBlank_skip skipped, ← split, gap, endsBlank_append (List.cons_ne_nil b rest)]
        cases rest with
        | nil => simp [endsBlank, stop]
        | cons d ds =>
          rw [show b :: d :: ds = [b] ++ (d :: ds) from rfl,
            endsBlank_append (List.cons_ne_nil d ds)]
          simp
      · simp only [parseArgs, skipped, gap]

lemma endsBlank_of_words {line : Text} (none_ : words [] line = []) (some_ : line ≠ []) :
    endsBlank line = true := by
  cases skipped : line.dropWhile blank with
  | nil =>
    have all := List.dropWhile_eq_nil_iff.mp skipped _ (List.getLast_mem some_)
    rw [endsBlank, List.getLast?_eq_getLast_of_ne_nil some_]
    exact all
  | cons c cs =>
    rw [words_first skipped] at none_
    cases none_

lemma parseArgs_count (left nargs : Nat) (argv : Argv) (line : Text) :
    (parseArgs left nargs argv line).1 = nargs + min left (words [] line).length := by
  induction left generalizing nargs argv line with
  | zero => simp [parseArgs]
  | succ left ih =>
    rcases line_cases line with ⟨none_, parsed⟩ | ⟨word, one, -, parsed⟩ |
      ⟨word, rest, more, -, parsed⟩
    · simp [parsed, none_]
    · simp [parsed, one]
    · rw [parsed, ih, more, List.length_cons, Nat.succ_min_succ]
      omega

lemma parseArgs_below (left nargs : Nat) (argv : Argv) (line : Text) {i : Nat} (low : i < nargs) :
    (parseArgs left nargs argv line).2 i = argv i := by
  induction left generalizing nargs argv line with
  | zero => rfl
  | succ left ih =>
    rcases line_cases line with ⟨-, parsed⟩ | ⟨word, -, -, parsed⟩ | ⟨word, rest, -, -, parsed⟩
    · rw [parsed]
      exact Function.update_of_ne (ne_of_lt low) _ _
    · rw [parsed]
      exact (Function.update_of_ne (ne_of_lt (Nat.lt_succ_of_lt low)) _ _).trans
        (Function.update_of_ne (ne_of_lt low) _ _)
    · rw [parsed, ih _ _ _ (by omega), Function.update_of_ne (by omega)]

lemma parseArgs_word (left nargs : Nat) (argv : Argv) (line : Text) {i : Nat}
    (room : i < left) (low : i < (words [] line).length) :
    (parseArgs left nargs argv line).2 (nargs + i) = some (words [] line)[i] := by
  induction left generalizing nargs argv line i with
  | zero => exact absurd room (Nat.not_lt_zero i)
  | succ left ih =>
    rcases line_cases line with ⟨none_, -⟩ | ⟨word, one, -, parsed⟩ | ⟨word, rest, more, -, parsed⟩
    · simp [none_] at low
    · obtain rfl : i = 0 := by simpa [one] using low
      simp [parsed, one]
    · cases i with
      | zero =>
        rw [parsed, parseArgs_below _ _ _ _ (by omega)]
        simp [more]
      | succ i =>
        have inside : i < (words [] rest).length := by simpa [more] using low
        have place : nargs + (i + 1) = nargs + 1 + i := by omega
        rw [parsed, place, ih _ _ _ (Nat.lt_of_succ_lt_succ room) inside]
        simp [more]

lemma parseArgs_null (left nargs : Nat) (argv : Argv) (line : Text) :
    (parseArgs left nargs argv line).2 (parseArgs left nargs argv line).1 = none ↔
      (words [] line).length < left ∨
      ((words [] line).length = left ∧ 0 < left ∧ endsBlank line = false) ∨
      argv (nargs + left) = none := by
  induction left generalizing nargs argv line with
  | zero => simp [parseArgs]
  | succ left ih =>
    rcases line_cases line with ⟨none_, parsed⟩ | ⟨word, one, full, parsed⟩ |
      ⟨word, rest, more, ends, parsed⟩
    · simp [parsed, none_]
    · have length : (words [] line).length < left + 1 ∨ (words [] line).length = left + 1 := by
        rw [one, List.length_singleton]
        omega
      simpa [parsed, full, or_assoc] using Or.inl length
    · have here : Function.update argv nargs (some word) (nargs + 1 + left) =
          argv (nargs + (left + 1)) := by
        rw [Function.update_of_ne (by omega), Nat.add_right_comm, Nat.add_assoc]
      have last : (words [] rest).length = left →
          (0 < left ∧ endsBlank rest = false ↔ endsBlank line = false) := by
        rintro rfl
        rw [Bool.eq_false_iff (b := endsBlank line), Ne, ends, not_or, List.length_pos_iff]
        constructor
        · rintro ⟨some_, open_⟩
          exact ⟨fun empty => some_ (by rw [empty]; rfl), Bool.eq_false_iff.mp open_⟩
        · rintro ⟨some_, open_⟩
          exact ⟨fun empty => open_ (endsBlank_of_words empty some_), Bool.eq_false_iff.mpr open_⟩
      rw [parsed, ih, here, more, List.length_cons]
      constructor
      · rintro (less | ⟨same, room⟩ | null)
        · exact .inl (Nat.succ_lt_succ less)
        · exact .inr (.inl ⟨congrArg _ same, Nat.succ_pos _, (last same).mp room⟩)
        · exact .inr (.inr null)
      · rintro (less | ⟨same, -, open_⟩ | null)
        · exact .inl (Nat.lt_of_succ_lt_succ less)
        · have same := Nat.succ.inj same
          exact .inr (.inl ⟨same, (last same).mpr open_⟩)
        · exact .inr (.inr null)

/-- The loop of `run_command` before a token; `flag` is CMD_FLAG_BOOTD. -/
structure Loop (σ : Type) where
  flag : Bool
  repeatable : Nat
  rc : Int
  state : σ
  argv : Argv

structure Invocation (σ : Type) where
  command : Command σ
  argc : Nat
  argv : Argv

variable {σ : Type}

def Loop.line (sys : System σ) (l : Loop σ) (token : Text) : Text :=
  processMacros (sys.getenv l.state) token

def System.invoked (sys : System σ) (l : Loop σ) (token : Text) : Option (Invocation σ) :=
  let (argc, argv) := parseArgs maxArgs 0 l.argv (l.line sys token)
  if argc = 0 then none
  else match findCmd sys.table ((argv 0).getD []) with
    | none => none
    | some c =>
      if c.maxargs < argc then none
      else if c.bootd && l.flag then none
      else some ⟨c, argc, argv⟩

def texts (argc : Nat) (argv : Argv) : List Text :=
  (List.range argc).map (fun i => (argv i).getD [])

/-- `rewritten` is what a command leaves in the array. `none`: the user stopped the loop. -/
def System.step (sys : System σ) (rewritten : Command σ → σ → Argv → Argv) (l : Loop σ)
    (token : Text) : Option (Loop σ) :=
  match sys.invoked l token with
  | none => some { l with
      rc := -1
      argv := (parseArgs maxArgs 0 l.argv (l.line sys token)).2 }
  | some call =>
    let flag := l.flag || call.command.bootd
    let result := call.command.cmd l.state flag (texts call.argc call.argv)
    if sys.hadCtrlc result.state then none
    else some {
      flag := flag
      repeatable := l.repeatable &&& call.command.repeatable
      rc := if result.status ≠ 0 then -1 else l.rc
      state := result.state
      argv := rewritten call.command result.state call.argv }

def System.loop (sys : System σ) (rewritten : Command σ → σ → Argv → Argv) :
    List Text → Loop σ → Int
  | [], l => if l.rc = 0 then l.repeatable else l.rc
  | token :: rest, l => match sys.step rewritten l token with
    | none => -1
    | some t => sys.loop rewritten rest t

/-- The loop as `run_command` enters it, with an array nobody has written to. -/
def System.enter (sys : System σ) (flag : Bool) (state : σ) (argv : Argv) : Loop σ :=
  ⟨flag, 1, 0, sys.clearCtrlc state, argv⟩

/-- The tokens of a line; none of a line that `run_command` refuses. -/
def fed (cmd : Text) : List Text :=
  if cmd = [] ∨ cbSize ≤ cmd.length then [] else tokens nul false [] cmd

variable {sys : System σ} {rewritten : Command σ → σ → Argv → Argv} {l : Loop σ}

lemma parsed_count (argv : Argv) (line : Text) :
    (parseArgs maxArgs 0 argv line).1 = (parseLine line).length := by
  rw [parseArgs_count, Nat.zero_add, parseLine, List.length_take]

lemma parsed_word (argv : Argv) (line : Text) {i : Nat} (low : i < (parseLine line).length) :
    (parseArgs maxArgs 0 argv line).2 i = some (parseLine line)[i] := by
  have room : i < min maxArgs (words [] line).length := by
    rw [parseLine, List.length_take] at low
    exact low
  have word := parseArgs_word maxArgs 0 argv line (lt_min_iff.mp room).1 (lt_min_iff.mp room).2
  rw [Nat.zero_add] at word
  rw [word]
  simp [parseLine]

lemma texts_parsed (argv : Argv) (line : Text) :
    texts (parseArgs maxArgs 0 argv line).1 (parseArgs maxArgs 0 argv line).2 =
      parseLine line := by
  apply List.ext_getElem
  · simp [texts, parsed_count]
  · intro i _ low
    simp [texts, parsed_word argv line low]

lemma invoked_eq (sys : System σ) (l : Loop σ) (token : Text) :
    sys.invoked l token = (sys.lookup l.state l.flag token).map
      (fun found => ⟨found.1, (parseArgs maxArgs 0 l.argv (l.line sys token)).1,
        (parseArgs maxArgs 0 l.argv (l.line sys token)).2⟩) := by
  have count := parsed_count l.argv (l.line sys token)
  simp only [System.invoked, System.lookup]
  cases args : parseLine (processMacros (sys.getenv l.state) token) with
  | nil =>
    rw [Loop.line, args, List.length_nil] at count
    rw [Loop.line, if_pos count]
    rfl
  | cons name rest =>
    rw [Loop.line, args] at count
    have some_ : (parseArgs maxArgs 0 l.argv (l.line sys token)).1 ≠ 0 := by
      rw [Loop.line, count]
      exact Nat.succ_ne_zero rest.length
    have first : (parseArgs maxArgs 0 l.argv (l.line sys token)).2 0 = some name := by
      have low : 0 < (parseLine (l.line sys token)).length := by simp [Loop.line, args]
      rw [parsed_word l.argv (l.line sys token) low]
      simp [Loop.line, args]
    rw [if_neg some_, first, Option.getD_some]
    cases found : findCmd sys.table name with
    | none => simp only [found, Option.map_none]
    | some c =>
      simp only [found]
      rw [Loop.line, count]
      split_ifs
      · rfl
      · rfl
      · rfl

lemma lookup_args {state : σ} {flag : Bool} {token : Text} {c : Command σ} {args : List Text}
    (looked : sys.lookup state flag token = some (c, args)) :
    args = parseLine (processMacros (sys.getenv state) token) := by
  simp only [System.lookup] at looked
  split at looked
  · cases looked
  split at looked
  · cases looked
  · split_ifs at looked
    exact ((Prod.mk.inj (Option.some.inj looked)).2).symm

lemma loop_eq (sys : System σ) (rewritten : Command σ → σ → Argv → Argv) (rest : List Text)
    (l : Loop σ) :
    sys.loop rewritten rest l = (runTokens sys rest l.flag l.repeatable l.rc l.state).rc := by
  induction rest generalizing l with
  | nil => rfl
  | cons token rest ih =>
    simp only [System.loop, System.step, invoked_eq, runTokens]
    cases looked : sys.lookup l.state l.flag token with
    | none => exact ih _
    | some found =>
      obtain ⟨c, args⟩ := found
      have same : texts (parseArgs maxArgs 0 l.argv (l.line sys token)).1
          (parseArgs maxArgs 0 l.argv (l.line sys token)).2 = args := by
        rw [texts_parsed]
        exact (lookup_args looked).symm
      simp only [Option.map_some, same]
      split_ifs
      · rfl
      · exact ih _
      · exact ih _

lemma runCommand_rc (sys : System σ) (rewritten : Command σ → σ → Argv → Argv) {cmd : Text}
    (some_ : fed cmd ≠ []) (flag : Bool) (state : σ) (argv : Argv) :
    (runCommand sys cmd flag state).rc =
      sys.loop rewritten (fed cmd) (sys.enter flag state argv) := by
  rw [loop_eq, fed, runCommand]
  rw [fed] at some_
  split_ifs with refused
  · exact absurd (if_pos refused) some_
  · rfl

lemma loop_append {m : Loop σ} {done : List Text}
    (run : Runs.runFrom (sys.step rewritten) l done = some m) (rest : List Text) :
    sys.loop rewritten (done ++ rest) l = sys.loop rewritten rest m := by
  induction done generalizing l with
  | nil =>
    obtain rfl : l = m := Option.some.inj run
    rfl
  | cons token done ih =>
    cases next : sys.step rewritten l token with
    | none => simp [Runs.runFrom, next] at run
    | some t =>
      rw [Runs.runFrom_cons next] at run
      rw [List.cons_append, System.loop, next]
      exact ih run

lemma loop_failed (sys : System σ) (rewritten : Command σ → σ → Argv → Argv) (rest : List Text)
    (failed : l.rc = -1) : sys.loop rewritten rest l = -1 := by
  induction rest generalizing l with
  | nil => simp [System.loop, failed]
  | cons token rest ih =>
    rw [System.loop]
    cases next : sys.step rewritten l token with
    | none => rfl
    | some t =>
      apply ih
      rw [System.step] at next
      split at next
      · rw [← Option.some.inj next]
      dsimp only at next
      split_ifs at next
      · rw [← Option.some.inj next]
      · rw [← Option.some.inj next]
        exact failed

structure Invocation.Complete (call : Invocation σ) (words : List Text) : Prop where
  argc : call.argc = words.length
  argv : ∀ i ≤ words.length, call.argv i = words[i]?

/-- More words than `parse_line` reads, or than the command takes. -/
def System.TooMany (sys : System σ) (words : List Text) : Prop :=
  maxArgs < words.length ∨
    ∃ c, findCmd sys.table (words.headD []) = some c ∧ c.maxargs < words.length

/-- Every command that the run of a line reaches gets its words, and a token with too many is
not executed. -/
def System.ArgumentsComplete (sys : System σ) (rewritten : Command σ → σ → Argv → Argv)
    (cmd : Text) (flag : Bool) (state : σ) (argv : Argv) : Prop :=
  ∀ done token todo l, fed cmd = done ++ token :: todo →
    Runs.runFrom (sys.step rewritten) (sys.enter flag state argv) done = some l →
    (∀ call, sys.invoked l token = some call → call.Complete (words [] (l.line sys token))) ∧
    (sys.TooMany (words [] (l.line sys token)) →
      sys.invoked l token = none ∧ (runCommand sys cmd flag state).rc = -1)

/-- The command of a token takes fewer arguments than the array has room for, is refused as a
recursion, or the words leave room, or end the line with the last of them, or find a NULL. -/
def System.Fits (sys : System σ) (l : Loop σ) (token : Text) : Prop :=
  let line := l.line sys token
  ∀ c, findCmd sys.table ((words [] line).headD []) = some c → maxArgs ≤ c.maxargs →
    ¬ (c.bootd = true ∧ l.flag = true) →
    (words [] line).length < maxArgs ∨ (words [] line).length = maxArgs ∧
      (endsBlank line = false ∨ l.argv maxArgs = none)

lemma parsed_null (argv : Argv) (line : Text) :
    (parseArgs maxArgs 0 argv line).2 (parseArgs maxArgs 0 argv line).1 = none ↔
      (words [] line).length < maxArgs ∨
      ((words [] line).length = maxArgs ∧ endsBlank line = false) ∨ argv maxArgs = none := by
  have room : 0 < maxArgs := Nat.succ_pos 15
  rw [parseArgs_null, Nat.zero_add]
  simp only [room, true_and]

lemma invoked_iff {token : Text} {call : Invocation σ} :
    sys.invoked l token = some call ↔
      words [] (l.line sys token) ≠ [] ∧
      findCmd sys.table ((words [] (l.line sys token)).headD []) = some call.command ∧
      min maxArgs (words [] (l.line sys token)).length ≤ call.command.maxargs ∧
      ¬ (call.command.bootd = true ∧ l.flag = true) ∧
      (call.argc, call.argv) = parseArgs maxArgs 0 l.argv (l.line sys token) := by
  have count := parseArgs_count maxArgs 0 l.argv (l.line sys token)
  have first := parseArgs_word maxArgs 0 l.argv (l.line sys token) (i := 0) (Nat.succ_pos 15)
  rw [Nat.zero_add] at count
  simp only [System.invoked, count]
  generalize parseArgs maxArgs 0 l.argv (l.line sys token) = parsed at count first ⊢
  generalize words [] (l.line sys token) = ws at count first ⊢
  cases ws with
  | nil => simp
  | cons name rest =>
    have some_ : min maxArgs (name :: rest).length ≠ 0 := by
      rw [List.length_cons]
      exact Nat.ne_of_gt (lt_min (Nat.succ_pos 15) (Nat.succ_pos rest.length))
    have zeroth : parsed.2 0 = some name := first (Nat.succ_pos rest.length)
    rw [if_neg some_, zeroth, Option.getD_some, List.headD_cons]
    cases findCmd sys.table name with
    | none => simp
    | some c =>
      simp only [ne_eq, List.cons_ne_nil, not_false_eq_true, true_and, Option.some.injEq]
      constructor
      · intro called
        split_ifs at called with many refused
        cases called
        refine ⟨rfl, Nat.le_of_not_lt many, ?_, Prod.ext count.symm rfl⟩
        simpa using refused
      · rintro ⟨rfl, few, allowed, args⟩
        obtain ⟨argc, argv⟩ := Prod.mk.inj args
        rw [if_neg (Nat.not_lt_of_le few), if_neg (by simpa using allowed)]
        rw [← count]
        cases call
        simp_all

lemma parsed_complete {line : Text} {call : Invocation σ}
    (args : (call.argc, call.argv) = parseArgs maxArgs 0 l.argv line) :
    call.Complete (words [] line) ↔
      (words [] line).length < maxArgs ∨ (words [] line).length = maxArgs ∧
        (endsBlank line = false ∨ l.argv maxArgs = none) := by
  have count := parseArgs_count maxArgs 0 l.argv line
  have null := parsed_null l.argv line
  have word (i : Nat) := parseArgs_word maxArgs 0 l.argv line (i := i)
  rw [← args, Nat.zero_add] at count
  rw [← args] at null
  simp only [← args] at word
  dsimp only at count null
  constructor
  · rintro ⟨argc, argv⟩
    have few : (words [] line).length ≤ maxArgs := by
      rw [← argc, count]
      exact Nat.min_le_left _ _
    have stop : call.argv call.argc = none := by
      rw [argc, argv _ (le_refl _)]
      exact List.getElem?_eq_none (le_refl _)
    rcases Nat.lt_or_eq_of_le few with less | same
    · exact .inl less
    rcases null.mp stop with less | ⟨-, full⟩ | old
    · exact absurd less (by omega)
    · exact .inr ⟨same, .inl full⟩
    · exact .inr ⟨same, .inr old⟩
  · intro fits
    have few : (words [] line).length ≤ maxArgs := by
      rcases fits with less | ⟨same, -⟩
      · exact Nat.le_of_lt less
      · exact Nat.le_of_eq same
    have argc : call.argc = (words [] line).length := by
      rw [count]
      exact Nat.min_eq_right few
    have stop : call.argv (words [] line).length = none := by
      rw [← argc, null]
      rcases fits with less | ⟨same, full | old⟩
      · exact .inl less
      · exact .inr (.inl ⟨same, full⟩)
      · exact .inr (.inr old)
    refine ⟨argc, fun i bound => ?_⟩
    rcases Nat.lt_or_eq_of_le bound with low | rfl
    · have here := word i (Nat.lt_of_lt_of_le low few) low
      rw [Nat.zero_add] at here
      rw [here, List.getElem?_eq_getElem low]
    · rw [stop, List.getElem?_eq_none (le_refl _)]

lemma token_arguments (sys : System σ) (l : Loop σ) (token : Text) :
    ((∀ call, sys.invoked l token = some call → call.Complete (words [] (l.line sys token))) ∧
      (sys.TooMany (words [] (l.line sys token)) → sys.invoked l token = none)) ↔
    sys.Fits l token := by
  constructor
  · rintro ⟨complete, refused⟩ c found wide allowed
    by_cases some_ : words [] (l.line sys token) = []
    · left
      rw [some_]
      exact Nat.succ_pos 15
    · let parsed := parseArgs maxArgs 0 l.argv (l.line sys token)
      have called : sys.invoked l token = some ⟨c, parsed.1, parsed.2⟩ :=
        invoked_iff.mpr ⟨some_, found, (min_le_left _ _).trans wide, allowed, rfl⟩
      exact (parsed_complete (l := l) rfl).mp (complete _ called)
  · intro fits
    have right : ∀ call, sys.invoked l token = some call →
        (words [] (l.line sys token)).length ≤ call.command.maxargs ∧
        call.Complete (words [] (l.line sys token)) := by
      intro call called
      obtain ⟨-, found, few, allowed, args⟩ := invoked_iff.mp called
      have complete : (words [] (l.line sys token)).length < maxArgs ∨
          (words [] (l.line sys token)).length = maxArgs ∧
            (endsBlank (l.line sys token) = false ∨ l.argv maxArgs = none) := by
        rcases lt_or_ge call.command.maxargs maxArgs with narrow | wide
        · left
          omega
        · exact fits call.command found wide allowed
      exact ⟨by omega, (parsed_complete args).mpr complete⟩
    refine ⟨fun call called => (right call called).2, fun many => ?_⟩
    cases called : sys.invoked l token with
    | none => rfl
    | some call =>
      obtain ⟨bound, complete⟩ := right call called
      have few := ((parsed_complete (invoked_iff.mp called).2.2.2.2).mp complete)
      rcases many with many | ⟨c, found, many⟩
      · omega
      · rw [(invoked_iff.mp called).2.1] at found
        cases found
        omega

/-- Every command gets all its words and a NULL, and a token with too many is not executed,
exactly if no token brings more than CONFIG_SYS_MAXARGS words, or so many with a blank behind
them and no NULL in the array, to a command that would take them. -/
theorem arguments_complete_iff (sys : System σ) (rewritten : Command σ → σ → Argv → Argv)
    (cmd : Text) (flag : Bool) (state : σ) (argv : Argv) :
    sys.ArgumentsComplete rewritten cmd flag state argv ↔
      ∀ done token todo l, fed cmd = done ++ token :: todo →
        Runs.runFrom (sys.step rewritten) (sys.enter flag state argv) done = some l →
        sys.Fits l token := by
  refine forall_congr' fun done => forall_congr' fun token => forall_congr' fun todo =>
    forall_congr' fun l => forall_congr' fun split => forall_congr' fun run => ?_
  rw [← token_arguments]
  refine and_congr_right fun _ => forall_congr' fun _ => and_iff_left_of_imp fun refused => ?_
  have some_ : fed cmd ≠ [] := by
    rw [split]
    simp
  rw [runCommand_rc sys rewritten some_ flag state argv, split, loop_append run, System.loop,
    System.step, refused]
  exact loop_failed sys rewritten todo rfl

def echo : Command Unit := ⟨['e'], maxArgs, 1, false, fun s _ _ => ⟨0, s⟩⟩

def echoSystem : System Unit := ⟨[echo], fun _ _ => none, fun _ => false, id⟩

def kept : Command Unit → Unit → Argv → Argv := fun _ _ argv => argv

def spaced (n : Nat) : Text := 'e' :: (List.replicate (n - 1) [' ', 'e']).flatten

lemma only_token_fits {cmd token : Text} {flag : Bool} {state : σ} {argv : Argv}
    (one : fed cmd = [token]) (complete : sys.ArgumentsComplete rewritten cmd flag state argv) :
    sys.Fits (sys.enter flag state argv) token := by
  have first := complete [] token [] _ one rfl
  exact (token_arguments sys _ token).mp ⟨first.1, fun many => (first.2 many).1⟩

/-- One word too many is dropped and the command runs without it; a blank behind the last word
that fits leaves the array without a NULL. -/
theorem seventeenth_word_dropped :
    ¬ echoSystem.ArgumentsComplete kept (spaced 17) false () (fun _ => none) ∧
    ¬ echoSystem.ArgumentsComplete kept (spaced 16 ++ [' ']) false () (fun _ => some []) := by
  constructor
  · intro complete
    have one : fed (spaced 17) = [spaced 17] := by decide
    have few := only_token_fits one complete echo rfl (le_refl _) (by decide)
    have count : (words [] ((echoSystem.enter false () (fun _ => none)).line echoSystem
      (spaced 17))).length = 17 := by decide
    rw [count] at few
    exact absurd few (by decide)
  · intro complete
    have one : fed (spaced 16 ++ [' ']) = [spaced 16 ++ [' ']] := by decide
    have few := only_token_fits one complete echo rfl (le_refl _) (by decide)
    have count : (words [] ((echoSystem.enter false () (fun _ => some [])).line echoSystem
      (spaced 16 ++ [' ']))).length = 16 := by decide
    have open_ : endsBlank ((echoSystem.enter false () (fun _ => some [])).line echoSystem
      (spaced 16 ++ [' '])) = true := by decide
    rw [count, open_] at few
    exact absurd few (by simp [System.enter, maxArgs])

end Monitor
