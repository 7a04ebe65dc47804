import Mathlib.Data.List.TakeWhile
import UBoot.Image.MultiBounds

/-!
# Running a script image (common/cmd_source.c)

`source` finds the script behind the table of sizes of a legacy image, copies it and runs it line
by line, without the hush parser. A number stands for what the next `run_command` returns.
-/

namespace Script

open Memory32 Image

abbrev Line := List UInt8

/-- The loop over the lines, where it stops: the line that is begun, the lines that were run, and
`rcode`. -/
structure Cut where
  line : Line
  calls : List Line
  rcode : Nat

def cutLines (outcome : Nat → Int) (line : Line) (calls : List Line) : (next : List UInt8) → Cut
  | [] => ⟨line, calls, 0⟩
  | c :: next =>
    if c = 0 then ⟨line, calls, 0⟩
    else if c = 10 then
      if line = [] then cutLines outcome [] calls next
      else if outcome calls.length < 0 then ⟨line, calls ++ [line], 1⟩
      else cutLines outcome [] (calls ++ [line]) next
    else cutLines outcome (line ++ [c]) calls next

/-- What running a script leaves: what `source` returns, the lines that were run, and what was read
of the image, each with its length. -/
structure Sourced where
  rcode : Nat
  calls : List Line
  reads : List (UInt32 × UInt32)

def runLines (outcome : Nat → Int) (cmd : List UInt8) (reads : List (UInt32 × UInt32)) : Sourced :=
  let cut := cutLines outcome [] [] cmd
  if cut.rcode = 0 ∧ cut.line ≠ [] then
    ⟨if outcome cut.calls.length ≥ 0 then 1 else 0, cut.calls ++ [cut.line], reads⟩
  else ⟨cut.rcode, cut.calls, reads⟩

def pastTable (mem : Mem) : (fuel : Nat) → (data : UInt32) → Option UInt32
  | 0, _ => none
  | fuel + 1, data =>
    if wordOf mem data = 0 then some (data + 4) else pastTable mem fuel (data + 4)

/-- `source`; `room` says which sizes `malloc` has room for. -/
def source (verify : Bool) (room : UInt32 → Bool) (outcome : Nat → Int) (mem : Mem) (addr : UInt32)
    (fuel : Nat) : Option Sourced :=
  let data := getData addr
  let whole := if verify then [(data, (headerAt mem addr).size)] else []
  -- without the magic number it is no legacy image
  if !checkMagic mem addr then some ⟨1, [], []⟩
  else if !checkHcrc mem addr then some ⟨1, [], []⟩
  else if verify && !checkDcrc mem addr then some ⟨1, [], whole⟩
  else if (headerAt mem addr).type ≠ typeScript then some ⟨1, [], whole⟩
  else
    let len := wordOf mem data
    if len = 0 then some ⟨1, [], whole ++ [(data, 4)]⟩
    else
      (pastTable mem fuel data).map fun script =>
        let reads := whole ++ (lookedAt mem fuel data).map (·, 4)
        if room (len + 1) then
          runLines outcome (bytesAt mem script len.toNat) (reads ++ [(script, len)])
        else ⟨1, [], reads⟩

def ended (script : List UInt8) : List Line :=
  (script.splitOn 10).dropLast.filter fun line => !line.isEmpty

def lastLine (script : List UInt8) : Line := (script.splitOn 10).getLastD []

def lines (script : List UInt8) : List Line :=
  (script.splitOn 10).filter fun line => !line.isEmpty

/-- The lines up to the first that fails, when `k` have been run, and whether one fails. -/
def upToFailure (outcome : Nat → Int) : (k : Nat) → List Line → List Line × Bool
  | _, [] => ([], false)
  | k, line :: later =>
    if outcome k < 0 then ([line], true)
    else (line :: (upToFailure outcome (k + 1) later).1, (upToFailure outcome (k + 1) later).2)

structure Valid (mem : Mem) (addr : UInt32) : Prop where
  magic : checkMagic mem addr = true
  hcrc : checkHcrc mem addr = true
  dcrc : checkDcrc mem addr = true
  type : (headerAt mem addr).type = typeScript

/-- The component of the image, when its table has `n` entries. -/
def scriptOf (mem : Mem) (addr : UInt32) (n : Nat) : List UInt8 :=
  bytesAt mem (getData addr + UInt32.ofNat (4 * (n + 1))) (sizeAt mem addr 0).toNat

/-- The lines of the script are run up to the first that fails, and what is returned says whether
one does. -/
structure Right (outcome : Nat → Int) (script : List UInt8) (rcode : Nat) (calls : List Line) :
    Prop where
  calls_eq : calls = (upToFailure outcome 0 (lines script)).1
  rcode_iff : rcode = 0 ↔ (upToFailure outcome 0 (lines script)).2 = false

/-- `source` returns; it runs the script that is behind the table, and reads the data only. -/
def RunsScript (verify : Bool) (room : UInt32 → Bool) (outcome : Nat → Int) (mem : Mem)
    (addr : UInt32) : Prop :=
  ∃ fuel r n, source verify room outcome mem addr fuel = some r ∧
    (sizeAt mem addr n = 0 ∧ ∀ i < n, sizeAt mem addr i ≠ 0) ∧
    Right outcome (scriptOf mem addr n) r.rcode r.calls ∧
    ∀ range ∈ r.reads, InData mem addr range.1 range.2

/-- A line fails that ends in front of the first NUL, or there is no NUL, and a newline is behind
the last line. -/
def EndsWell (outcome : Nat → Int) (script : List UInt8) : Prop :=
  (upToFailure outcome 0 (ended (script.takeWhile (· ≠ 0)))).2 = true ∨
    0 ∉ script ∧ lastLine script = []

/-- The table and the script are in the data, the script is not empty, there is room for it, and it
ends well. -/
structure Condition (room : UInt32 → Bool) (outcome : Nat → Int) (mem : Mem) (addr : UInt32)
    (n : Nat) : Prop where
  table : Table mem addr n
  some_script : sizeAt mem addr 0 ≠ 0
  inside : 4 * (n + 1) + (sizeAt mem addr 0).toNat ≤ (headerAt mem addr).size.toNat
  enough : room (sizeAt mem addr 0 + 1) = true
  ends : EndsWell outcome (scriptOf mem addr n)

variable {outcome : Nat → Int}

lemma upToFailure_append (outcome : Nat → Int) (k : Nat) (front back : List Line) :
    upToFailure outcome k (front ++ back) =
      if (upToFailure outcome k front).2 then upToFailure outcome k front
      else (front ++ (upToFailure outcome (k + front.length) back).1,
        (upToFailure outcome (k + front.length) back).2) := by
  induction front generalizing k with
  | nil => rfl
  | cons line front ih =>
    rw [List.cons_append, upToFailure, upToFailure, ih (k + 1), List.length_cons,
      add_assoc, add_comm 1]
    by_cases fails : outcome k < 0
    · rw [if_pos fails, if_pos fails]
      rfl
    · rw [if_neg fails, if_neg fails]
      split <;> rfl

lemma upToFailure_all {k : Nat} {script : List Line}
    (succeeds : (upToFailure outcome k script).2 = false) :
    (upToFailure outcome k script).1 = script := by
  have whole := upToFailure_append outcome k script []
  rw [List.append_nil, succeeds, if_neg Bool.false_ne_true] at whole
  rw [whole]
  exact List.append_nil script

lemma upToFailure_some {k : Nat} {script : List Line}
    (fails : (upToFailure outcome k script).2 = true) : (upToFailure outcome k script).1 ≠ [] := by
  cases script with
  | nil => cases fails
  | cons line later =>
    rw [upToFailure]
    split <;> exact List.cons_ne_nil _ _

lemma upToFailure_subset (outcome : Nat → Int) (k : Nat) (script : List Line) :
    ∀ line ∈ (upToFailure outcome k script).1, line ∈ script := by
  induction script generalizing k with
  | nil => exact fun line run => run
  | cons first later ih =>
    intro line run
    rw [upToFailure] at run
    split at run
    · rw [List.mem_singleton.mp run]
      exact List.mem_cons_self
    · rcases List.mem_cons.mp run with rfl | run
      · exact List.mem_cons_self
      · exact List.mem_cons_of_mem _ (ih (k + 1) line run)

variable {text : List UInt8}

lemma cutLines_nul (outcome : Nat → Int) (line : Line) (calls : List Line) (next : List UInt8) :
    cutLines outcome line calls next = cutLines outcome line calls (next.takeWhile (· ≠ 0)) := by
  induction next generalizing line calls with
  | nil => rfl
  | cons c next ih =>
    by_cases nul : c = 0
    · rw [cutLines, if_pos nul, List.takeWhile_cons_of_neg (by simp [nul])]
      rfl
    · rw [List.takeWhile_cons_of_pos (by simp [nul]), cutLines, cutLines, if_neg nul, if_neg nul,
        ih, ih, ih]

lemma cutLines_eq (outcome : Nat → Int) (line : Line) (calls : List Line) {next : List UInt8}
    (text : 0 ∉ next) {first : Line} {others : List Line}
    (cut : next.splitOn 10 = first :: others) :
    let run := upToFailure outcome calls.length
      (((line ++ first) :: others).dropLast.filter fun line => !line.isEmpty)
    (cutLines outcome line calls next).calls = calls ++ run.1 ∧
      (cutLines outcome line calls next).rcode = (if run.2 then 1 else 0) ∧
      (run.2 = false →
        (cutLines outcome line calls next).line = ((line ++ first) :: others).getLastD []) := by
  induction next generalizing line calls first others with
  | nil =>
    cases cut
    simp [cutLines, upToFailure]
  | cons c next ih =>
    obtain ⟨more, rest⟩ := List.exists_cons_of_ne_nil (List.splitOn_ne_nil 10 next)
    obtain ⟨others', rest⟩ := rest
    have nul : c ≠ 0 := fun zero => text (zero ▸ List.mem_cons_self)
    have text' : 0 ∉ next := fun member => text (List.mem_cons_of_mem _ member)
    rw [List.splitOn_cons_eq_if_modifyHead, rest] at cut
    rw [cutLines, if_neg nul]
    by_cases newline : c = 10
    · rw [if_pos newline]
      rw [if_pos (by simp [newline])] at cut
      obtain ⟨rfl, rfl⟩ := List.cons.inj cut
      have ended : ((line ++ []) :: more :: others').dropLast =
          line :: (more :: others').dropLast := by
        rw [List.append_nil, List.dropLast_cons_cons]
      have last :
          ((line ++ []) :: more :: others').getLastD [] = (more :: others').getLastD [] := by
        simp
      rw [ended, last]
      by_cases empty : line = []
      · subst empty
        have later := ih [] calls text' rest
        rw [if_pos rfl]
        exact later
      · have later := ih [] (calls ++ [line]) text' rest
        rw [if_neg empty, List.filter_cons_of_pos (by simp [empty]), upToFailure]
        by_cases fails : outcome calls.length < 0
        · simp [fails]
        · rw [if_neg fails, if_neg fails]
          rw [List.length_append] at later
          exact ⟨later.1.trans (List.append_assoc ..), later.2⟩
    · rw [if_neg newline]
      rw [if_neg (by simp [newline])] at cut
      obtain ⟨rfl, rfl⟩ := List.cons.inj cut
      have later := ih (line ++ [c]) calls text' rest
      rw [List.append_assoc] at later
      exact later

lemma runLines_eq (outcome : Nat → Int) (whole : 0 ∉ text) (reads : List (UInt32 × UInt32)) :
    runLines outcome text reads =
      let run := upToFailure outcome 0 (ended text)
      if run.2 then ⟨1, run.1, reads⟩
      else if lastLine text = [] then ⟨0, ended text, reads⟩
      else ⟨if outcome (ended text).length ≥ 0 then 1 else 0, ended text ++ [lastLine text],
        reads⟩ := by
  obtain ⟨first, rest⟩ := List.exists_cons_of_ne_nil (List.splitOn_ne_nil 10 text)
  obtain ⟨others, cut⟩ := rest
  obtain ⟨calls, rcode, line⟩ := cutLines_eq outcome [] [] whole cut
  have segments : (([] : Line) ++ first) :: others = text.splitOn 10 := cut.symm
  rw [segments] at calls rcode line
  change _ = if (upToFailure outcome 0 (ended text)).2 = true then 1 else 0 at rcode
  change (upToFailure outcome 0 (ended text)).2 = false → _ = lastLine text at line
  change _ = (upToFailure outcome 0 (ended text)).1 at calls
  unfold runLines
  dsimp only
  cases failed : (upToFailure outcome 0 (ended text)).2 with
  | true =>
    rw [failed, if_pos rfl] at rcode
    rw [calls, rcode, if_neg (by simp), if_pos rfl]
  | false =>
    rw [failed, if_neg Bool.false_ne_true] at rcode
    rw [upToFailure_all failed] at calls
    rw [calls, rcode, line failed, if_neg Bool.false_ne_true]
    by_cases empty : lastLine text = []
    · simp [empty]
    · simp [empty]

lemma lines_eq (script : List UInt8) :
    lines script = ended script ++ if lastLine script = [] then [] else [lastLine script] := by
  have whole := List.dropLast_append_getLast (List.splitOn_ne_nil 10 script)
  have last : lastLine script = (script.splitOn 10).getLast (List.splitOn_ne_nil 10 script) := by
    rw [lastLine, List.getLastD_eq_getLast?,
      List.getLast?_eq_some_getLast (List.splitOn_ne_nil 10 script)]
    rfl
  unfold lines ended
  rw [last]
  conv_lhs => rw [← whole, List.filter_append]
  split <;> simp_all

lemma splitOn_append (front back : List UInt8) :
    (front ++ back).splitOn 10 =
      (front.splitOn 10).dropLast ++ (back.splitOn 10).modifyHead (lastLine front ++ ·) := by
  obtain ⟨first', rest'⟩ := List.exists_cons_of_ne_nil (List.splitOn_ne_nil 10 back)
  obtain ⟨others', behind⟩ := rest'
  unfold lastLine
  induction front with
  | nil => simp [behind]
  | cons c front ih =>
    obtain ⟨first, rest⟩ := List.exists_cons_of_ne_nil (List.splitOn_ne_nil 10 front)
    obtain ⟨others, cut⟩ := rest
    rw [behind, cut] at ih
    rw [List.cons_append, List.splitOn_cons_eq_if_modifyHead, List.splitOn_cons_eq_if_modifyHead,
      ih, cut, behind]
    by_cases newline : (c == 10) = true
    · simp [newline]
    · cases others with
      | nil => simp [newline]
      | cons second others => simp [newline]

lemma lines_nul (text rest : List UInt8) :
    ∃ line later, lines (text ++ 0 :: rest) = ended text ++ line :: later ∧ 0 ∈ line := by
  obtain ⟨first, others, cut⟩ := List.exists_cons_of_ne_nil (List.splitOn_ne_nil 10 rest)
  have behind : (0 :: rest).splitOn 10 = (0 :: first) :: others := by
    rw [List.splitOn_cons_eq_if_modifyHead, if_neg (by decide), cut]
    rfl
  refine ⟨lastLine text ++ 0 :: first, others.filter fun line => !line.isEmpty, ?_, by simp⟩
  rw [lines, splitOn_append, behind, List.filter_append, List.modifyHead_cons,
    List.filter_cons_of_pos (by simp)]
  rfl

lemma runLines_text (outcome : Nat → Int) (script : List UInt8) (reads : List (UInt32 × UInt32)) :
    runLines outcome script reads = runLines outcome (script.takeWhile (· ≠ 0)) reads := by
  unfold runLines
  rw [cutLines_nul]

lemma splitOn_subset {line : Line} (member : line ∈ text.splitOn 10) :
    ∀ c ∈ line, c ∈ text := by
  induction text generalizing line with
  | nil =>
    rw [List.splitOn_nil, List.mem_singleton] at member
    exact member ▸ fun c inside => inside
  | cons c text ih =>
    rw [List.splitOn_cons_eq_if_modifyHead] at member
    obtain ⟨first, rest⟩ := List.exists_cons_of_ne_nil (List.splitOn_ne_nil 10 text)
    obtain ⟨others, cut⟩ := rest
    rw [cut] at member ih
    intro d inside
    split at member
    · rcases List.mem_cons.mp member with rfl | later
      · cases inside
      · exact List.mem_cons_of_mem c (ih later d inside)
    · rcases List.mem_cons.mp member with rfl | later
      · rcases List.mem_cons.mp inside with rfl | inside
        · exact List.mem_cons_self
        · exact List.mem_cons_of_mem c (ih List.mem_cons_self d inside)
      · exact List.mem_cons_of_mem c (ih (List.mem_cons_of_mem first later) d inside)

lemma lines_subset {line : Line} (member : line ∈ lines text) :
    ∀ c ∈ line, c ∈ text :=
  splitOn_subset (List.mem_filter.mp member).1

lemma runLines_subset (outcome : Nat → Int) (whole : 0 ∉ text) (reads : List (UInt32 × UInt32)) :
    ∀ line ∈ (runLines outcome text reads).calls, line ∈ lines text := by
  intro line run
  rw [lines_eq]
  rw [runLines_eq outcome whole] at run
  dsimp only at run
  split at run
  · exact List.mem_append_left _ (upToFailure_subset outcome 0 _ line run)
  split at run
  · exact List.mem_append_left _ run
  · rename_i begun
    rw [if_neg begun]
    exact run

lemma upToFailure_next {front : List Line} (line : Line) (later : List Line)
    (succeeds : (upToFailure outcome 0 front).2 = false) :
    line ∈ (upToFailure outcome 0 (front ++ line :: later)).1 := by
  rw [upToFailure_append, succeeds, if_neg Bool.false_ne_true, upToFailure]
  split <;> simp

lemma right_iff_cut (outcome : Nat → Int) {script : List UInt8} (nul : 0 ∈ script)
    (reads : List (UInt32 × UInt32)) :
    Right outcome script (runLines outcome script reads).rcode
      (runLines outcome script reads).calls ↔ EndsWell outcome script := by
  unfold EndsWell
  obtain ⟨text, rest, rfl, whole⟩ := List.eq_append_cons_of_mem nul
  have front : (text ++ 0 :: rest).takeWhile (· ≠ 0) = text := by
    rw [List.takeWhile_append_of_pos fun c inside => by
      simpa using fun zero : c = 0 => whole (zero ▸ inside)]
    simp
  obtain ⟨line, later, spec, member⟩ := lines_nul text rest
  rw [runLines_text, front]
  cases failed : (upToFailure outcome 0 (ended text)).2 with
  | true =>
    refine iff_of_true ?_ (.inl rfl)
    rw [runLines_eq outcome whole]
    have run : upToFailure outcome 0 (lines (text ++ 0 :: rest)) =
        upToFailure outcome 0 (ended text) := by
      rw [spec, upToFailure_append, if_pos failed]
    rw [if_pos failed]
    exact ⟨by rw [run], by rw [run, failed]; simp⟩
  | false =>
    refine iff_of_false (fun right => ?_) (by simp)
    have run := upToFailure_next line later failed
    rw [← spec, ← right.calls_eq] at run
    exact whole (lines_subset (runLines_subset outcome whole reads line run) 0 member)

lemma right_iff_whole (outcome : Nat → Int) {script : List UInt8} (nul : 0 ∉ script)
    (reads : List (UInt32 × UInt32)) :
    Right outcome script (runLines outcome script reads).rcode
      (runLines outcome script reads).calls ↔ EndsWell outcome script := by
  unfold EndsWell
  have front : script.takeWhile (· ≠ 0) = script := List.takeWhile_eq_self_iff.mpr
    fun c inside => by simpa using fun zero : c = 0 => nul (zero ▸ inside)
  rw [front, runLines_eq outcome nul]
  dsimp only
  have spec := lines_eq script
  cases failed : (upToFailure outcome 0 (ended script)).2 with
  | true =>
    refine iff_of_true ?_ (.inl rfl)
    have run : upToFailure outcome 0 (lines script) = upToFailure outcome 0 (ended script) := by
      rw [spec, upToFailure_append, if_pos failed]
    rw [if_pos rfl]
    exact ⟨by rw [run], by rw [run, failed]; simp⟩
  | false =>
    rw [if_neg Bool.false_ne_true]
    by_cases empty : lastLine script = []
    · rw [if_pos empty]
      refine iff_of_true ?_ (.inr ⟨nul, empty⟩)
      rw [if_pos empty, List.append_nil] at spec
      exact ⟨by rw [spec, upToFailure_all failed], by rw [spec, failed]; simp⟩
    rw [if_neg empty]
    refine iff_of_false (fun right => ?_) (by simp [empty])
    have code := right.rcode_iff
    rw [if_neg empty] at spec
    rw [spec, upToFailure_append, failed, if_neg Bool.false_ne_true, upToFailure,
      zero_add] at code
    by_cases fails : outcome (ended script).length < 0
    · rw [if_pos fails, if_neg (by omega)] at code
      simp at code
    · rw [if_neg fails, if_pos (by omega)] at code
      simp [upToFailure] at code

lemma right_iff (outcome : Nat → Int) (script : List UInt8) (reads : List (UInt32 × UInt32)) :
    Right outcome script (runLines outcome script reads).rcode
      (runLines outcome script reads).calls ↔ EndsWell outcome script := by
  by_cases nul : 0 ∈ script
  · exact right_iff_cut outcome nul reads
  · exact right_iff_whole outcome nul reads

variable {mem : Mem} {addr : UInt32}

lemma pastTable_eq (mem : Mem) (fuel : Nat) (data : UInt32) :
    pastTable mem fuel data =
      (countFrom mem fuel data).map fun count => data + (count + 1) * 4 := by
  induction fuel generalizing data with
  | zero => rfl
  | succ fuel ih =>
    rw [pastTable, countFrom]
    split
    · rfl
    rw [ih, Option.map_map]
    congr 1
    funext count
    apply UInt32.toNat_inj.mp
    have four : (4 : UInt32).toNat = 4 := rfl
    simp only [Function.comp_apply, UInt32.toNat_add, UInt32.toNat_mul, UInt32.toNat_one, four]
    omega

lemma sizeAt_zero : sizeAt mem addr 0 = wordOf mem (getData addr) :=
  congrArg (wordOf mem) (UInt32.add_zero (getData addr))

lemma behind_table (n : Nat) :
    getData addr + (UInt32.ofNat n + 1) * 4 = getData addr + UInt32.ofNat (4 * (n + 1)) := by
  rw [mul_comm, UInt32.ofNat_mul, UInt32.ofNat_add]
  rfl

lemma first_zero_unique {n m : Nat} (stop : sizeAt mem addr n = 0)
    (entries : ∀ i < n, sizeAt mem addr i ≠ 0) (stop' : sizeAt mem addr m = 0)
    (entries' : ∀ i < m, sizeAt mem addr i ≠ 0) : n = m := by
  rcases lt_trichotomy n m with before | same | behind
  · exact absurd stop (entries' n before)
  · exact same
  · exact absurd stop' (entries m behind)

lemma runLines_reads (outcome : Nat → Int) (cmd : List UInt8) (reads : List (UInt32 × UInt32)) :
    (runLines outcome cmd reads).reads = reads := by
  unfold runLines
  dsimp only
  split <;> rfl

lemma script_inData {n : Nat} (table : Table mem addr n) (len : UInt32) :
    InData mem addr (getData addr + UInt32.ofNat (4 * (n + 1))) len ↔
      4 * (n + 1) + len.toNat ≤ (headerAt mem addr).size.toNat := by
  have inside := table.inside
  have size := (headerAt mem addr).size.toNat_lt
  rw [InData, from_start,
    UInt32.toNat_ofNat_of_lt' (show 4 * (n + 1) < 4294967296 by omega)]

lemma entry_read {n : Nat} (table : Table mem addr n) {range : UInt32 × UInt32}
    (read : range ∈ (lookedAt mem (n + 1) (getData addr)).map (·, 4)) :
    InData mem addr range.1 range.2 := by
  obtain ⟨p, looked, rfl⟩ := List.mem_map.mp read
  obtain ⟨i, below, rfl⟩ := (countFrom_reaches table.stop table.entries).2 p looked
  have inside := table.inside
  have small := first_zero_small table.stop table.entries
  exact (entry_inData i (by omega)).mpr (by omega)

def wholeRead (verify : Bool) (mem : Mem) (addr : UInt32) : List (UInt32 × UInt32) :=
  if verify then [(getData addr, (headerAt mem addr).size)] else []

lemma wholeRead_inData {verify : Bool} {range : UInt32 × UInt32}
    (read : range ∈ wholeRead verify mem addr) : InData mem addr range.1 range.2 := by
  unfold wholeRead at read
  split at read
  · rw [List.mem_singleton.mp read]
    unfold InData
    rw [UInt32.sub_self]
    exact le_of_eq (zero_add _)
  · cases read

lemma source_valid (valid : Valid mem addr) (verify : Bool) (room : UInt32 → Bool)
    (outcome : Nat → Int) (fuel : Nat) :
    source verify room outcome mem addr fuel =
      if sizeAt mem addr 0 = 0 then some ⟨1, [], wholeRead verify mem addr ++ [(getData addr, 4)]⟩
      else
        (countFrom mem fuel (getData addr)).map fun count =>
          let script := getData addr + (count + 1) * 4
          let reads := wholeRead verify mem addr ++ (lookedAt mem fuel (getData addr)).map (·, 4)
          if room (sizeAt mem addr 0 + 1) then
            runLines outcome (bytesAt mem script (sizeAt mem addr 0).toNat)
              (reads ++ [(script, sizeAt mem addr 0)])
          else ⟨1, [], reads⟩ := by
  unfold source
  simp only [valid.magic, valid.hcrc, valid.dcrc, valid.type, sizeAt_zero, pastTable_eq,
    Option.map_map]
  simp only [Bool.not_true, Bool.false_eq_true, if_false, Bool.and_false, ne_eq, not_true]
  rfl

lemma runsScript_iff (valid : Valid mem addr) (verify : Bool) (room : UInt32 → Bool)
    (outcome : Nat → Int) :
    RunsScript verify room outcome mem addr ↔ ∃ n, Condition room outcome mem addr n := by
  constructor
  · rintro ⟨fuel, r, n, run, ⟨stop, entries⟩, right, inside⟩
    rw [source_valid valid] at run
    by_cases empty : sizeAt mem addr 0 = 0
    · rw [if_pos empty] at run
      cases run
      have nothing : scriptOf mem addr n = [] := by
        rw [scriptOf, empty]
        rfl
      rw [nothing] at right
      exact absurd (right.rcode_iff.mpr rfl) Nat.one_ne_zero
    rw [if_neg empty] at run
    obtain ⟨count, counted, ran⟩ := Option.map_eq_some_iff.mp run
    obtain ⟨m, rfl, stop', entries', last⟩ := countFrom_first counted
    obtain rfl := first_zero_unique stop entries stop' entries'
    rw [behind_table] at ran
    have looked : (getData addr + UInt32.ofNat (4 * n), 4) ∈
        (lookedAt mem fuel (getData addr)).map (·, (4 : UInt32)) :=
      List.mem_map.mpr ⟨_, last, rfl⟩
    by_cases enough : room (sizeAt mem addr 0 + 1) = true
    · rw [if_pos enough] at ran
      subst ran
      rw [runLines_reads] at inside
      have stop_inside := inside _ (List.mem_append_left _ (List.mem_append_right _ looked))
      have script_inside := inside _ (List.mem_append_right _ List.mem_cons_self)
      have table : Table mem addr n :=
        ⟨(entry_inData n (first_zero_small stop entries)).mp stop_inside, stop, entries⟩
      exact ⟨n, table, empty, (script_inData table _).mp script_inside, enough,
        (right_iff outcome _ _).mp right⟩
    · rw [if_neg enough] at ran
      subst ran
      have failed : (upToFailure outcome 0 (lines (scriptOf mem addr n))).2 = true := by
        have code := right.rcode_iff
        simpa using code
      exact absurd right.calls_eq.symm (upToFailure_some failed)
  · rintro ⟨n, table, some_script, inside, enough, ends⟩
    obtain ⟨counted, -⟩ := countFrom_reaches table.stop table.entries
    refine ⟨n + 1, runLines outcome (scriptOf mem addr n)
      (wholeRead verify mem addr ++ (lookedAt mem (n + 1) (getData addr)).map (·, 4) ++
        [(getData addr + UInt32.ofNat (4 * (n + 1)), sizeAt mem addr 0)]), n, ?_,
      ⟨table.stop, table.entries⟩, (right_iff outcome _ _).mpr ends, ?_⟩
    · rw [source_valid valid, if_neg some_script, counted, Option.map_some]
      rw [if_pos enough, behind_table]
      rfl
    · rw [runLines_reads]
      intro range read
      rcases List.mem_append.mp read with read | script
      · rcases List.mem_append.mp read with whole | entry
        · exact wholeRead_inData whole
        · exact entry_read table entry
      · rw [List.mem_singleton.mp script]
        exact (script_inData table _).mpr inside

/-- For every script image, every sequence of results and every `verify`: the lines are run once, in
order and up to the first that fails, what is returned says whether one fails, and only the data is
read, if and only if the script is in the data and not empty, there is room for it, and it ends
well. -/
theorem source_runs_script_iff (verify : Bool) (room : UInt32 → Bool) (outcome : Nat → Int)
    (mem : Mem) (addr : UInt32) (valid : Valid mem addr) :
    RunsScript verify room outcome mem addr ↔ ∃ n, Condition room outcome mem addr n :=
  runsScript_iff valid verify room outcome

def scriptParams : Params := ⟨0, 0, 5, 2, typeScript, 0, [], false⟩

def scriptMem (script : List UInt8) : Mem :=
  fun a => ((mkimage scriptParams 0 [script]).getD []).getD a.toNat 0

/-- Two lines with a newline behind each. -/
theorem source_runs_two_lines :
    RunsScript true (fun _ => true) (fun _ => 1) (scriptMem [97, 10, 98, 10]) 0 := by
  have valid : Valid (scriptMem [97, 10, 98, 10]) 0 := by
    constructor <;> decide +kernel
  refine (source_runs_script_iff true (fun _ => true) (fun _ => 1) _ 0 valid).mpr
    ⟨1, ⟨by decide +kernel, by decide +kernel, by decide +kernel⟩, by decide +kernel,
      by decide +kernel, rfl, .inr ⟨by decide +kernel, by decide +kernel⟩⟩

/-- Without the last newline both lines succeed, and 1 is returned. -/
theorem source_last_line_inverted :
    let mem := scriptMem [97, 10, 98]
    (Valid mem 0 ∧ ¬ RunsScript true (fun _ => true) (fun _ => 1) mem 0) ∧
      (source true (fun _ => true) (fun _ => 1) mem 0 2).map (fun r => (r.rcode, r.calls)) =
        some (1, [[97], [98]]) := by
  have valid : Valid (scriptMem [97, 10, 98]) 0 := by
    constructor <;> decide +kernel
  refine ⟨⟨valid, fun runs => ?_⟩, by decide +kernel⟩
  obtain ⟨n, holds⟩ := (runsScript_iff valid true (fun _ => true) (fun _ => 1)).mp runs
  obtain rfl := first_zero_unique (m := 1) holds.table.stop holds.table.entries
    (by decide +kernel) (by decide +kernel)
  rcases holds.ends with fails | ⟨-, newline⟩
  · exact absurd fails (by decide +kernel)
  · exact absurd newline (by decide +kernel)

end Script
