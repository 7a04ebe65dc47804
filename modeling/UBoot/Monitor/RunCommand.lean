import Mathlib.Data.List.Basic

/-!
# The command line (common/main.c, common/command.c)

`run_command` with its separators, macros, arguments and command lookup. The state of the
system behind the commands is a parameter; so are the commands themselves.
-/

namespace Monitor

def cbSize : Nat := 256

def maxArgs : Nat := 16

def singleQuote : Char := Char.ofNat 39
def backslash : Char := Char.ofNat 92
def nul : Char := Char.ofNat 0

abbrev Text := List Char

structure Result (σ : Type) where
  status : Int
  state : σ

structure Command (σ : Type) where
  name : Text
  maxargs : Nat
  repeatable : Nat
  bootd : Bool                                        -- its function is `do_bootd`
  cmd : σ → (bootdFlag : Bool) → List Text → Result σ

structure System (σ : Type) where
  table : List (Command σ)
  getenv : σ → Text → Option Text
  hadCtrlc : σ → Bool
  clearCtrlc : σ → σ

/-- The tokens between separators; `prev` is the character before the next one, which is NUL
where a token starts behind a separator. In front of the first one the source reads `cmdbuf[-1]`,
which is taken to be NUL as well: only a backslash there would make a difference, to a line that
starts with a quote. The token being read is kept from its end. -/
def tokens (prev : Char) (inquotes : Bool) (token : Text) : Text → List Text
  | [] => if token = [] then [] else [token.reverse]
  | c :: cs =>
    let inquotes := if c = singleQuote ∧ prev ≠ backslash then !inquotes else inquotes
    if inquotes = false ∧ c = ';' ∧ token ≠ [] ∧ prev ≠ backslash then
      token.reverse :: tokens nul false [] cs
    else tokens c inquotes (c :: token) cs

inductive MacroState where
  | dollar                     -- waiting for '$'
  | opening                    -- waiting for an opening bracket
  | closing (name : Text)      -- waiting for the closing one
  | quoted                     -- waiting for the quote
  deriving DecidableEq

/-- The output is kept from its end; `outputcnt` is the room behind it. -/
structure Macros where
  state : MacroState
  output : Text
  outputcnt : Nat

def Macros.put (m : Macros) (state : MacroState) (cs : Text) : Macros :=
  ⟨state, (cs.take m.outputcnt).reverse ++ m.output, m.outputcnt - cs.length⟩

/-- One pass of the switch in `process_macros`. -/
def Macros.char (getenv : Text → Option Text) (m : Macros) (prev c : Char) : Macros :=
  match m.state with
  | .dollar =>
    if c = singleQuote ∧ prev ≠ backslash then { m with state := .quoted }
    else if c = '$' ∧ prev ≠ backslash then { m with state := .opening }
    else m.put .dollar [c]
  | .opening =>
    if c = '(' ∨ c = Char.ofNat 123 then { m with state := .closing [] }
    else m.put .dollar ['$', c]
  | .closing name =>
    if c = ')' ∨ c = Char.ofNat 125 then m.put .dollar ((getenv name).getD [])
    else { m with state := .closing (name ++ [c]) }
  | .quoted =>
    if c = singleQuote ∧ prev ≠ backslash then { m with state := .dollar }
    else m.put .quoted [c]

def Macros.escape (m : Macros) : Macros :=
  match m.state with
  | .closing name => { m with state := .closing (name ++ [backslash]) }
  | _ => m

/-- `escaped`: the last character was an escape that has been removed. -/
def macros (getenv : Text → Option Text) (m : Macros) (prev : Char) (escaped : Bool) :
    Text → Text
  | [] => m.output.reverse
  | c :: cs =>
    if m.outputcnt = 0 then m.output.reverse
    else if escaped = false ∧ m.state ≠ .quoted ∧ c = backslash ∧ prev ≠ backslash then
      macros getenv m.escape c true cs
    else macros getenv (m.char getenv prev c) c false cs

/-- The last character makes room for the NUL if the output is full. -/
def processMacros (getenv : Text → Option Text) (input : Text) : Text :=
  (macros getenv ⟨.dollar, [], cbSize⟩ nul false input).take (cbSize - 1)

def blank (c : Char) : Bool := c = ' ' || c = '\t'

/-- The words of a line; `word` is the one being read, from its end. -/
def words (word : Text) : Text → List Text
  | [] => if word = [] then [] else [word.reverse]
  | c :: cs =>
    if blank c then if word = [] then words [] cs else word.reverse :: words [] cs
    else words (c :: word) cs

def parseLine (line : Text) : List Text := (words [] line).take maxArgs

def baseName (cmd : Text) : Text := cmd.takeWhile (· ≠ '.')

/-- `find_cmd_tbl`: a full match, or the only command the name abbreviates. -/
def findCmd {σ : Type} (table : List (Command σ)) (cmd : Text) : Option (Command σ) :=
  let name := baseName cmd
  let found := table.filter (fun c => name.isPrefixOf c.name)
  match found.find? (fun c => c.name.length = name.length) with
  | some c => some c
  | none => match found with
    | [c] => some c
    | _ => none

structure Call where
  argv : List Text
  status : Int
  deriving DecidableEq

structure Outcome (σ : Type) where
  rc : Int
  state : σ
  calls : List Call

variable {σ : Type}

/-- The command of a token and its arguments, if `run_command` calls one. -/
def System.lookup (sys : System σ) (state : σ) (flag : Bool) (token : Text) :
    Option (Command σ × List Text) :=
  let argv := parseLine (processMacros (sys.getenv state) token)
  match argv with
  | [] => none
  | name :: _ => match findCmd sys.table name with
    | none => none
    | some c =>
      if c.maxargs < argv.length then none
      else if c.bootd && flag then none
      else some (c, argv)

/-- The loop of `run_command` over the tokens; `flag` is CMD_FLAG_BOOTD. -/
def runTokens (sys : System σ) : List Text → Bool → Nat → Int → σ → Outcome σ
  | [], _, repeatable, rc, state => ⟨if rc = 0 then repeatable else rc, state, []⟩
  | token :: rest, flag, repeatable, rc, state =>
    match sys.lookup state flag token with
    | none => runTokens sys rest flag repeatable (-1) state
    | some (c, argv) =>
      let flag := flag || c.bootd
      let result := c.cmd state flag argv
      let rc := if result.status ≠ 0 then -1 else rc
      let call : Call := ⟨argv, result.status⟩
      if sys.hadCtrlc result.state then ⟨-1, result.state, [call]⟩
      else
        let out := runTokens sys rest flag (repeatable &&& c.repeatable) rc result.state
        { out with calls := call :: out.calls }

def runCommand (sys : System σ) (cmd : Text) (flag : Bool) (state : σ) : Outcome σ :=
  let state := sys.clearCtrlc state
  if cmd = [] ∨ cbSize ≤ cmd.length then ⟨-1, state, []⟩
  else runTokens sys (tokens nul false [] cmd) flag 1 0 state

/-! ## The calls of a line -/

/-- A command of a line where `run_command` comes to it: the state that the commands in front of it
left, and whether `do_bootd` is among them. -/
structure Visit (σ : Type) where
  state : σ
  flag : Bool
  token : Text

/-- The words of the command: its macros are replaced by what the environment has by then. -/
def System.argv (sys : System σ) (v : Visit σ) : List Text :=
  parseLine (processMacros (sys.getenv v.state) v.token)

/-- The call that is made of a command, unless it is passed over, and the state it leaves. -/
def System.invoke (sys : System σ) (v : Visit σ) : Option (Call × σ) :=
  (sys.lookup v.state v.flag v.token).map fun found =>
    let result := found.1.cmd v.state (v.flag || found.1.bootd) found.2
    (⟨found.2, result.status⟩, result.state)

def System.interrupted (sys : System σ) (v : Visit σ) : Bool :=
  (sys.invoke v).any fun called => sys.hadCtrlc called.2

/-- The commands of a line in their order, each with what the ones in front of it have left. -/
def System.visits (sys : System σ) (state : σ) (flag : Bool) : List Text → List (Visit σ)
  | [] => []
  | token :: rest =>
    ⟨state, flag, token⟩ :: match sys.lookup state flag token with
      | none => sys.visits state flag rest
      | some (c, argv) =>
        sys.visits (c.cmd state (flag || c.bootd) argv).state (flag || c.bootd) rest

/-- `n` of the commands of a line are gone through: all of them, or as many as it takes to the first
one that ^C interrupts. Each makes its call, or none, whatever the calls in front of it returned. -/
structure GoesThrough (sys : System σ) (visits : List (Visit σ)) (n : Nat) (out : Outcome σ) :
    Prop where
  le : n ≤ visits.length
  calls : out.calls = (visits.take n).filterMap fun v => (sys.invoke v).map Prod.fst
  calm : ∀ i, i + 1 < n → ∀ v, visits[i]? = some v → sys.interrupted v = false
  stopped : n < visits.length → ∃ i v, n = i + 1 ∧ visits[i]? = some v ∧ sys.interrupted v = true
  rc : ∀ v ∈ visits.take n, sys.interrupted v = true → out.rc = -1

lemma invoke_argv {sys : System σ} {v : Visit σ} {call : Call} {state : σ}
    (called : sys.invoke v = some (call, state)) : call.argv = sys.argv v := by
  obtain ⟨⟨c, argv⟩, found, made⟩ := Option.map_eq_some_iff.mp called
  obtain ⟨rfl, -⟩ := Prod.mk.inj made
  simp only [System.lookup] at found
  split at found
  · cases found
  split at found
  · cases found
  split_ifs at found
  obtain ⟨-, rfl⟩ := Prod.mk.inj (Option.some.inj found)
  rfl

/-- One command further at the front, which nothing interrupts. -/
lemma GoesThrough.cons {sys : System σ} {v : Visit σ} {visits : List (Visit σ)} {n : Nat}
    {out out' : Outcome σ} (later : GoesThrough sys visits n out)
    (quiet : sys.interrupted v = false)
    (calls : out'.calls = ((sys.invoke v).map Prod.fst).toList ++ out.calls)
    (rc : out'.rc = out.rc) : GoesThrough sys (v :: visits) (n + 1) out' := by
  refine ⟨Nat.succ_le_succ later.le, ?_, ?_, ?_, ?_⟩
  · rw [calls, later.calls, List.take_succ_cons, List.filterMap_cons]
    cases sys.invoke v with
    | none => rfl
    | some called => rfl
  · rintro (_ | i) less w here
    · obtain rfl : v = w := Option.some.inj here
      exact quiet
    · exact later.calm i (Nat.lt_of_succ_lt_succ less) w here
  · intro less
    obtain ⟨i, w, rfl, here, stops⟩ := later.stopped (Nat.lt_of_succ_lt_succ less)
    exact ⟨i + 1, w, rfl, here, stops⟩
  · intro w member stops
    rw [List.take_succ_cons] at member
    rcases List.mem_cons.mp member with rfl | behind
    · cases stops.symm.trans quiet
    · exact rc.trans (later.rc w behind stops)

lemma runTokens_goesThrough (sys : System σ) (commands : List Text) (flag : Bool) (repeatable : Nat)
    (rc : Int) (state : σ) : ∃ n, GoesThrough sys (sys.visits state flag commands) n
      (runTokens sys commands flag repeatable rc state) := by
  induction commands generalizing flag repeatable rc state with
  | nil =>
    exact ⟨0, Nat.le_refl 0, rfl, fun i less => absurd less (Nat.not_lt_zero _),
      fun less => absurd less (Nat.lt_irrefl 0), List.forall_mem_nil _⟩
  | cons token rest ih =>
    rw [runTokens, System.visits]
    cases found : sys.lookup state flag token with
    | none =>
      obtain ⟨n, later⟩ := ih flag repeatable (-1) state
      have passed : sys.invoke ⟨state, flag, token⟩ = none := by
        rw [System.invoke, found, Option.map_none]
      refine ⟨n + 1, later.cons ?_ ?_ rfl⟩
      · rw [System.interrupted, passed, Option.any_none]
      · rw [passed]
        rfl
    | some called =>
      obtain ⟨c, argv⟩ := called
      dsimp only
      have made : sys.invoke ⟨state, flag, token⟩ =
          some (⟨argv, (c.cmd state (flag || c.bootd) argv).status⟩,
            (c.cmd state (flag || c.bootd) argv).state) := by
        rw [System.invoke, found, Option.map_some]
      have interrupted : sys.interrupted ⟨state, flag, token⟩ =
          sys.hadCtrlc (c.cmd state (flag || c.bootd) argv).state := by
        rw [System.interrupted, made, Option.any_some]
      cases stops : sys.hadCtrlc (c.cmd state (flag || c.bootd) argv).state with
      | true =>
        rw [if_pos rfl]
        refine ⟨1, Nat.succ_le_succ (Nat.zero_le _), ?_, fun i less => by omega,
          fun _ => ⟨0, _, rfl, rfl, interrupted.trans stops⟩, fun _ _ _ => rfl⟩
        rw [List.take_succ_cons, List.take_zero, List.filterMap_cons, made]
        rfl
      | false =>
        rw [if_neg Bool.false_ne_true]
        obtain ⟨n, later⟩ := ih (flag || c.bootd) (repeatable &&& c.repeatable)
          (if (c.cmd state (flag || c.bootd) argv).status ≠ 0 then -1 else rc)
          (c.cmd state (flag || c.bootd) argv).state
        refine ⟨n + 1, later.cons (interrupted.trans stops) ?_ rfl⟩
        rw [made]
        rfl

/-- The first command is gone through in any case. -/
lemma GoesThrough.pos {sys : System σ} {visits : List (Visit σ)} {n : Nat} {out : Outcome σ}
    (goes : GoesThrough sys visits n out) (nonempty : visits ≠ []) : 0 < n := by
  apply Nat.pos_of_ne_zero
  rintro rfl
  obtain ⟨i, -, impossible, -⟩ := goes.stopped (List.length_pos_iff.mpr nonempty)
  cases impossible

/-- If every command can be called, the words are called in their order. -/
lemma GoesThrough.argvs {sys : System σ} {visits : List (Visit σ)} {n : Nat} {out : Outcome σ}
    (goes : GoesThrough sys visits n out) (known : ∀ v ∈ visits, (sys.invoke v).isSome) :
    out.calls.map Call.argv = (visits.take n).map sys.argv := by
  have all : ∀ v ∈ visits.take n, (sys.invoke v).isSome :=
    fun v member => known v (List.mem_of_mem_take member)
  rw [goes.calls]
  generalize visits.take n = front at all
  induction front with
  | nil => rfl
  | cons v front ih =>
    obtain ⟨⟨first, later⟩, called⟩ : ∃ called, sys.invoke v = some called :=
      Option.isSome_iff_exists.mp (all v List.mem_cons_self)
    have later := ih fun w member => all w (List.mem_cons_of_mem v member)
    rw [List.filterMap_cons, called, Option.map_some, List.map_cons, List.map_cons, later,
      invoke_argv called]

end Monitor
