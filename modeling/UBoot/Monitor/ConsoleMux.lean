import Mathlib.Data.List.Basic

/-!
# The devices of a console (common/iomux.c, common/console.c)

`iomux_doenv` with CONFIG_CONSOLE_MUX. A pointer to a device is its place in the list of devices.
-/

namespace ConsoleMux

abbrev Name := List UInt8

structure StdioDev where
  name : Name
  flags : UInt32
  start : Bool                          -- whether there is a `start` function

inductive Console where
  | stdin
  | stdout
  | stderr
deriving DecidableEq

/-- "switch (console)"; any other number is an error. -/
def Console.ofInt (console : Int) : Option Console :=
  if console = 0 then some .stdin
  else if console = 1 then some .stdout
  else if console = 2 then some .stderr
  else none

def Console.ioFlag : Console → UInt32
  | .stdin => 1
  | .stdout => 2
  | .stderr => 2

/-- What the rest of the system does: whether there is memory, and what `start` returns when the
device of an entry of the list is started. -/
structure Surroundings where
  strdup : Bool
  start : Bool
  consSet : Bool
  realloc : Bool
  started : (j : Nat) → Int

structure State where
  stdioDevices : Int → Option Nat
  consoleDevices : Int → Option (List Nat)
  cdCount : Int → Nat
  getc : Option Nat                     -- the device behind gd->jt[XF_getc] and gd->jt[XF_tstc]
  putc : Option Nat                     -- the device behind gd->jt[XF_putc] and gd->jt[XF_puts]

def stdioGetByName (devs : List StdioDev) (name : Name) : Option Nat :=
  devs.findIdx? (·.name = name)

def searchDevice (devs : List StdioDev) (flags : UInt32) (name : Name) : Option Nat :=
  (stdioGetByName devs name).filter fun dev => (devs[dev]?.map (·.flags &&& flags)).getD 0 ≠ 0

/-- "stdio_devices[file] = dev" and the monitor functions of the device. -/
def State.assigned (s : State) (file : Int) (dev : Nat) : State :=
  { s with
    stdioDevices := fun i => if i = file then some dev else s.stdioDevices i
    getc := if file = 0 then some dev else s.getc
    putc := if file = 1 then some dev else s.putc }

/-- `console_setfile`, where `started` is what the `start` function would return. -/
def consoleSetfile (devs : List StdioDev) (file : Int) (dev : Option Nat) (started : Int)
    (s : State) : Int × State :=
  match dev with
  | none => (-1, s)
  | some dev => match Console.ofInt file with
    | none => (-1, s)
    | some _ =>
      let error := if (devs[dev]?.map StdioDev.start).getD false then started else 0
      if error < 0 then (error, s) else (error, s.assigned file dev)

def consoleAssign (devs : List StdioDev) (file : Int) (devname : Name) (started : Int)
    (s : State) : Int × State :=
  match Console.ofInt file with
  | none => (-1, s)
  | some console => match searchDevice devs console.ioFlag devname with
    | some dev => consoleSetfile devs file (some dev) started s
    | none => (-1, s)

/-- `serial_assign`, with the names of the serial devices. -/
def serialAssign (serialDevices : List Name) (name : Name) : Int :=
  if name ∈ serialDevices then 0 else 1

/-- "for (j = 0; j < i; j++)": `cons_set` and the state behind it. `serial_assign` is called with
CONFIG_SERIAL_MULTI only. -/
def assignAll (devs : List StdioDev) (serialMulti : Option (List Name)) (env : Surroundings)
    (file : Int) (console : Console) : (j : Nat) → List Name → (consSet : List Nat) → State →
    List Nat × State
  | _, [], consSet, s => (consSet, s)
  | j, name :: names, consSet, s =>
    match searchDevice devs console.ioFlag name with
    | none => assignAll devs serialMulti env file console (j + 1) names consSet s
    | some dev =>
      if dev ∈ consSet then assignAll devs serialMulti env file console (j + 1) names consSet s
      else
        let assign := consoleAssign devs file name (env.started j) s
        if assign.1 < 0 ∨ ∃ serials ∈ serialMulti, serialAssign serials name < 0 then
          assignAll devs serialMulti env file console (j + 1) names consSet assign.2
        else assignAll devs serialMulti env file console (j + 1) names (consSet ++ [dev]) assign.2

def comma : UInt8 := 44

/-- `iomux_doenv`: what it returns, and the state behind it. -/
def iomuxDoenv (devs : List StdioDev) (serialMulti : Option (List Name)) (env : Surroundings)
    (file : Int) (arg : List UInt8) (s : State) : Int × State :=
  if ¬ env.strdup ∨ ¬ env.start ∨ ¬ env.consSet then (1, s)
  else match Console.ofInt file with
    | none => (1, s)
    | some console =>
      let set := assignAll devs serialMulti env file console 0 (arg.splitOn comma) [] s
      if set.1 = [] then (1, set.2)
      else if ¬ env.realloc then
        (1, { set.2 with
          consoleDevices := fun i => if i = file then none else set.2.consoleDevices i })
      else
        (0, { set.2 with
          consoleDevices := fun i => if i = file then some set.1 else set.2.consoleDevices i
          cdCount := fun i => if i = file then set.1.length else set.2.cdCount i })

section
variable (devs : List StdioDev) (env : Surroundings) (console : Console)

def mentioned (names : List Name) : List Nat := names.filterMap (searchDevice devs console.ioFlag)

def Starts (j dev : Nat) : Prop := (devs[dev]?.map StdioDev.start).getD false → 0 ≤ env.started j

instance Starts.decidable (j dev : Nat) : Decidable (Starts devs env j dev) :=
  inferInstanceAs (Decidable (_ → _))

/-- The devices of the entries from `j` on at which they can be started. -/
def startable : (j : Nat) → List Name → List Nat
  | _, [] => []
  | j, name :: names =>
    ((searchDevice devs console.ioFlag name).filter (Starts devs env j)).toList ++
      startable (j + 1) names

def expected (names : List Name) : List Nat :=
  (mentioned devs console names).eraseDups.filter (· ∈ startable devs env console 0 names)

end

/-- A call keeps the list at an error, and makes the list that was asked for otherwise. -/
structure Right (devs : List StdioDev) (serialMulti : Option (List Name)) (env : Surroundings)
    (file : Int) (arg : List UInt8) (s : State) : Prop where
  kept : (iomuxDoenv devs serialMulti env file arg s).1 ≠ 0 →
    (iomuxDoenv devs serialMulti env file arg s).2.consoleDevices file = s.consoleDevices file ∧
      (iomuxDoenv devs serialMulti env file arg s).2.cdCount file = s.cdCount file ∧
      (iomuxDoenv devs serialMulti env file arg s).2.stdioDevices file = s.stdioDevices file
  listed : (iomuxDoenv devs serialMulti env file arg s).1 = 0 →
    ∃ console list, Console.ofInt file = some console ∧
      list = expected devs env console (arg.splitOn comma) ∧
      (iomuxDoenv devs serialMulti env file arg s).2.consoleDevices file = some list ∧
      (iomuxDoenv devs serialMulti env file arg s).2.cdCount file = list.length ∧
      ∃ dev ∈ list, (iomuxDoenv devs serialMulti env file arg s).2.stdioDevices file = some dev

/-- Where memory lasts up to `realloc` and a device of the list can be started, there is memory for
`realloc` as well and the devices are first started in the order of their first mention; or there
was no list and the device to be started last was the one in use. -/
def Meets (devs : List StdioDev) (env : Surroundings) (file : Int) (arg : List UInt8) (s : State) :
    Prop :=
  env.strdup → env.start → env.consSet → ∀ console, Console.ofInt file = some console →
    startable devs env console 0 (arg.splitOn comma) ≠ [] →
      if env.realloc then
        (startable devs env console 0 (arg.splitOn comma)).eraseDups =
          expected devs env console (arg.splitOn comma)
      else s.consoleDevices file = none ∧ s.stdioDevices file =
        (startable devs env console 0 (arg.splitOn comma)).eraseDups.getLast?

section
variable {devs : List StdioDev} {serialMulti : Option (List Name)} {env : Surroundings}
  {file : Int} {console : Console}

variable {dev : Nat}

lemma serialAssign_not_neg (name : Name) :
    ¬ ∃ serials ∈ serialMulti, serialAssign serials name < 0 := by
  rintro ⟨serials, -, negative⟩
  rw [serialAssign] at negative
  split at negative
  · exact absurd negative (by decide)
  · exact absurd negative (by decide)

lemma consoleAssign_starts (valid : Console.ofInt file = some console) {name : Name} {j : Nat}
    (found : searchDevice devs console.ioFlag name = some dev) (starts : Starts devs env j dev)
    (s : State) : ¬ (consoleAssign devs file name (env.started j) s).1 < 0 ∧
      (consoleAssign devs file name (env.started j) s).2 = s.assigned file dev := by
  rw [consoleAssign, valid]
  dsimp only
  rw [found]
  dsimp only
  rw [consoleSetfile, valid]
  have started :
      ¬ (if (devs[dev]?.map StdioDev.start).getD false then env.started j else 0) < 0 := by
    split
    · exact Int.not_lt.mpr (starts ‹_›)
    · decide
  rw [if_neg started]
  exact ⟨started, rfl⟩

lemma consoleAssign_not_starts (valid : Console.ofInt file = some console) {name : Name} {j : Nat}
    (found : searchDevice devs console.ioFlag name = some dev) (fails : ¬ Starts devs env j dev)
    (s : State) :
    (consoleAssign devs file name (env.started j) s).1 < 0 ∧
      (consoleAssign devs file name (env.started j) s).2 = s := by
  rw [Starts, Classical.not_imp] at fails
  have failed : (if (devs[dev]?.map StdioDev.start).getD false then env.started j else 0) < 0 := by
    rw [if_pos fails.1]
    exact Int.not_le.mp fails.2
  rw [consoleAssign, valid]
  dsimp only
  rw [found]
  dsimp only
  rw [consoleSetfile, valid]
  rw [if_pos failed]
  exact ⟨failed, rfl⟩

lemma eraseDups_concat_mem {l : List Nat} (member : dev ∈ l) :
    (l ++ [dev]).eraseDups = l.eraseDups := by
  rw [List.eraseDups_append]
  simp [List.removeAll, member]

lemma eraseDups_concat_not_mem {l : List Nat} (new : dev ∉ l) :
    (l ++ [dev]).eraseDups = l.eraseDups ++ [dev] := by
  rw [List.eraseDups_append]
  simp [List.removeAll, new, List.eraseDups_cons]

lemma startable_cons (j : Nat) (name : Name) (names : List Name) :
    startable devs env console j (name :: names) =
      ((searchDevice devs console.ioFlag name).filter (Starts devs env j)).toList ++
        startable devs env console (j + 1) names := rfl

lemma assignAll_list (valid : Console.ofInt file = some console) (names : List Name) (j : Nat)
    (before : List Nat) (s : State) :
    (assignAll devs serialMulti env file console j names before.eraseDups s).1 =
      (before ++ startable devs env console j names).eraseDups := by
  induction names generalizing j before s with
  | nil =>
    rw [assignAll, startable, List.append_nil]
  | cons name names ih =>
    rw [assignAll, startable_cons]
    cases found : searchDevice devs console.ioFlag name with
    | none => exact ih (j + 1) before s
    | some dev =>
      dsimp only
      by_cases starts : Starts devs env j dev
      · have new : (Option.filter (fun dev => decide (Starts devs env j dev)) (some dev)).toList =
            [dev] := by
          simp [Option.filter, starts]
        rw [new, ← List.append_assoc]
        by_cases member : dev ∈ before
        · rw [if_pos (List.mem_eraseDups.mpr member), ← eraseDups_concat_mem member]
          exact ih (j + 1) (before ++ [dev]) s
        obtain ⟨started, after⟩ := consoleAssign_starts valid found starts s
        rw [if_neg fun inside => member (List.mem_eraseDups.mp inside),
          if_neg (not_or.mpr ⟨started, serialAssign_not_neg name⟩),
          ← eraseDups_concat_not_mem member]
        exact ih (j + 1) (before ++ [dev]) _
      · have nothing :
            (Option.filter (fun dev => decide (Starts devs env j dev)) (some dev)).toList = [] := by
          simp [Option.filter, starts]
        rw [nothing, List.nil_append]
        split
        · exact ih (j + 1) before s
        · rw [if_pos (.inl (consoleAssign_not_starts valid found starts s).1)]
          exact ih (j + 1) before _

lemma assignAll_state (valid : Console.ofInt file = some console) (names : List Name) (j : Nat)
    (consSet : List Nat) (s : State) :
    ((assignAll devs serialMulti env file console j names consSet s).2.consoleDevices =
        s.consoleDevices ∧
      (assignAll devs serialMulti env file console j names consSet s).2.cdCount = s.cdCount) ∧
      (assignAll devs serialMulti env file console j names consSet s = (consSet, s) ∨
        ∃ dev, (assignAll devs serialMulti env file console j names consSet s).1.getLast? =
            some dev ∧
          (assignAll devs serialMulti env file console j names consSet s).2.stdioDevices file =
            some dev) := by
  induction names generalizing j consSet s with
  | nil => exact ⟨⟨rfl, rfl⟩, .inl rfl⟩
  | cons name names ih =>
    rw [assignAll]
    cases found : searchDevice devs console.ioFlag name with
    | none => exact ih (j + 1) consSet s
    | some dev =>
      dsimp only
      split
      · exact ih (j + 1) consSet s
      by_cases starts : Starts devs env j dev
      · obtain ⟨started, after⟩ := consoleAssign_starts valid found starts s
        rw [if_neg (not_or.mpr ⟨started, serialAssign_not_neg name⟩), after]
        obtain ⟨kept, last⟩ := ih (j + 1) (consSet ++ [dev]) (s.assigned file dev)
        refine ⟨kept, .inr ?_⟩
        rcases last with same | later
        · rw [same]
          exact ⟨dev, List.getLast?_concat, if_pos rfl⟩
        · exact later
      · obtain ⟨failed, after⟩ := consoleAssign_not_starts valid found starts s
        rw [if_pos (.inl failed), after]
        exact ih (j + 1) consSet s

end

section
variable {devs : List StdioDev} {serialMulti : Option (List Name)} {env : Surroundings}
  {file : Int} {console : Console} {arg : List UInt8} {s : State}

lemma right_of_unchanged (unchanged : iomuxDoenv devs serialMulti env file arg s = (1, s)) :
    Right devs serialMulti env file arg s where
  kept _ := by
    rw [unchanged]
    exact ⟨rfl, rfl, rfl⟩
  listed zero := by
    rw [unchanged] at zero
    cases zero

lemma eraseDups_eq_nil {l : List Nat} : l.eraseDups = [] ↔ l = [] := by
  cases l with
  | nil => exact iff_of_true rfl rfl
  | cons a l =>
    rw [List.eraseDups_cons]
    exact iff_of_false (List.cons_ne_nil _ _) (List.cons_ne_nil _ _)

lemma right_iff_started (memory : ¬ (¬ env.strdup ∨ ¬ env.start ∨ ¬ env.consSet))
    (valid : Console.ofInt file = some console)
    (some_started : startable devs env console 0 (arg.splitOn comma) ≠ []) :
    Right devs serialMulti env file arg s ↔
      if env.realloc then
        (startable devs env console 0 (arg.splitOn comma)).eraseDups =
          expected devs env console (arg.splitOn comma)
      else s.consoleDevices file = none ∧ s.stdioDevices file =
        (startable devs env console 0 (arg.splitOn comma)).eraseDups.getLast? := by
  have list :=
    @assignAll_list devs serialMulti env file console valid (arg.splitOn comma) 0 [] s
  obtain ⟨⟨devices, count⟩, last⟩ :=
    @assignAll_state devs serialMulti env file console valid (arg.splitOn comma) 0 [] s
  rw [List.eraseDups_nil, List.nil_append] at list
  have built := some_started ∘ eraseDups_eq_nil.mp
  generalize started : startable devs env console 0 (arg.splitOn comma) = starting at *
  generalize set_eq : assignAll devs serialMulti env file console 0 (arg.splitOn comma) [] s = set
    at *
  have in_use : set.2.stdioDevices file = starting.eraseDups.getLast? := by
    rcases last with same | ⟨dev, top, inUse⟩
    · rw [same] at list
      exact absurd list.symm built
    · rw [inUse, ← list, top]
  have result : iomuxDoenv devs serialMulti env file arg s =
      if env.realloc then
        (0, { set.2 with
          consoleDevices := fun i => if i = file then some set.1 else set.2.consoleDevices i
          cdCount := fun i => if i = file then set.1.length else set.2.cdCount i })
      else
        (1, { set.2 with
          consoleDevices := fun i => if i = file then none else set.2.consoleDevices i }) := by
    rw [iomuxDoenv, if_neg memory, valid]
    dsimp only
    rw [set_eq, if_neg (list ▸ built)]
    by_cases room : env.realloc
    · rw [if_neg (not_not.mpr room), if_pos room]
    · rw [if_pos room, if_neg room]
  by_cases room : env.realloc
  · rw [if_pos room] at result ⊢
    constructor
    · intro right
      obtain ⟨other, wanted, valid', same, there, -⟩ := right.listed (by rw [result])
      obtain rfl := Option.some.inj (valid'.symm.trans valid)
      rw [result] at there
      dsimp only at there
      rw [if_pos rfl] at there
      rw [← list, Option.some.inj there, same]
    · intro order
      refine ⟨fun failed => absurd (by rw [result]) failed, fun _ => ?_⟩
      rw [result]
      refine ⟨console, set.1, valid, list.trans order, if_pos rfl, if_pos rfl, ?_⟩
      rw [in_use, list]
      exact ⟨_, List.getLast_mem built, List.getLast?_eq_some_getLast built⟩
  · rw [if_neg room] at result ⊢
    have one_ne_zero : (1 : Int) ≠ 0 := by decide
    constructor
    · intro right
      obtain ⟨kept, -, used⟩ := right.kept (by rw [result]; exact one_ne_zero)
      rw [result] at kept used
      dsimp only at kept used
      rw [if_pos rfl] at kept
      exact ⟨kept.symm, used.symm.trans in_use⟩
    · rintro ⟨no_list, used⟩
      refine ⟨fun _ => ?_, fun zero => ?_⟩
      · rw [result]
        dsimp only
        rw [if_pos rfl]
        exact ⟨no_list.symm, congrFun count file, in_use.trans used.symm⟩
      · rw [result] at zero
        cases zero

end

/-- For every table of devices, state, list and outcome of the allocations and starts: the call is
right if and only if, once a device could be started, `realloc` succeeds and the devices are first
started in the order of their first mention, or there was no list before and the last device to be
started is the one that was in use. -/
theorem iomux_doenv_right_iff (devs : List StdioDev) (serialMulti : Option (List Name))
    (env : Surroundings) (file : Int) (arg : List UInt8) (s : State) :
    Right devs serialMulti env file arg s ↔ Meets devs env file arg s := by
  by_cases memory : ¬ env.strdup ∨ ¬ env.start ∨ ¬ env.consSet
  · refine iff_of_true (right_of_unchanged (if_pos memory)) fun strdup start consSet => ?_
    rcases memory with fails | fails | fails
    · exact absurd strdup fails
    · exact absurd start fails
    · exact absurd consSet fails
  · cases valid : Console.ofInt file with
    | none =>
      refine iff_of_true (right_of_unchanged ?_) fun _ _ _ console valid' => ?_
      · rw [iomuxDoenv, if_neg memory, valid]
      · rw [valid] at valid'
        cases valid'
    | some console =>
      by_cases none_started : startable devs env console 0 (arg.splitOn comma) = []
      · refine iff_of_true (right_of_unchanged ?_) fun _ _ _ console' valid' some_started => ?_
        · have list :=
            @assignAll_list devs serialMulti env file console valid (arg.splitOn comma) 0 [] s
          rw [List.eraseDups_nil, List.nil_append, none_started, List.eraseDups_nil] at list
          rw [iomuxDoenv, if_neg memory, valid]
          dsimp only
          rw [if_pos list]
          obtain ⟨-, same | ⟨dev, top, -⟩⟩ :=
            @assignAll_state devs serialMulti env file console valid (arg.splitOn comma) 0 [] s
          · rw [same]
          · rw [list] at top
            cases top
        · obtain rfl := Option.some.inj (valid'.symm.trans valid)
          exact absurd none_started some_started
      · rw [right_iff_started memory valid none_started]
        constructor
        · intro right _ _ _ console' valid' _
          obtain rfl := Option.some.inj (valid'.symm.trans valid)
          exact right
        · intro meets
          simp only [not_or, not_not] at memory
          exact meets memory.1 memory.2.1 memory.2.2 console valid none_started

def twoDevs : List StdioDev := [⟨[97], 2, false⟩, ⟨[98], 2, true⟩]

def firstDev : State := ⟨fun _ => some 0, fun _ => some [0], fun _ => 1, none, none⟩

def noRealloc : Surroundings := ⟨true, true, true, false, fun _ => 0⟩

/-- Without memory for `realloc` the old list is lost, and the second device is in use. -/
theorem old_list_lost :
    (iomuxDoenv twoDevs none noRealloc 1 [98] firstDev).1 = 1 ∧
      (iomuxDoenv twoDevs none noRealloc 1 [98] firstDev).2.consoleDevices 1 = none ∧
      (iomuxDoenv twoDevs none noRealloc 1 [98] firstDev).2.cdCount 1 = 1 ∧
      (iomuxDoenv twoDevs none noRealloc 1 [98] firstDev).2.stdioDevices 1 = some 1 ∧
      ¬ Right twoDevs none noRealloc 1 [98] firstDev := by
  refine ⟨by decide, by decide, by decide, by decide, fun right => ?_⟩
  obtain ⟨kept, -, -⟩ := right.kept (by decide)
  exact absurd kept (by decide)

end ConsoleMux
