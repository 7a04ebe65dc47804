import Mathlib.Algebra.GroupWithZero.Nat
import UBoot.I2c.Eeprom
import UBoot.Lib.NumberText

/-!
# Reading chips from the command line (common/cmd_i2c.c)

`i2c md` displays bytes of a chip, sixteen on a line, and goes on with what it was last called with
when it is repeated. `i2c loop` reads the same bytes for ever.
-/

namespace I2c

open NumberText

def dispLineLen : Int := 16

/-- `argv[i]`, or the text that is found where there is no argument. -/
def entry (beyond : List UInt8) (argv : List (List UInt8)) (i : Nat) : List UInt8 :=
  argv.getD i beyond

/-- The loop that looks for a dot in the first eight characters of `argv[2]`. -/
def alenOf : (left : Nat) → List UInt8 → UInt32
  | 0, _ => 1
  | _, [] => 1
  | left + 1, c :: cs => if c = 46 then (cs.headD 0).toUInt32 - 48 else alenOf left cs

/-- `i2c_dp_last_chip` and the others: what `do_i2c_md` was last called with. -/
structure MdState where
  chip : UInt8
  addr : UInt32
  alen : UInt32
  length : UInt32
  alen_le : ¬ alen > 4

def MdState.initial : MdState := ⟨0, 0, 0, 0x10, by decide⟩

/-- What `do_i2c_md` is called with, or nothing if it shows its usage, and the entries of `argv` it
looks at. -/
def mdParams (last : MdState) (again : Bool) (beyond : List UInt8) (argv : List (List UInt8)) :
    List Nat × Option MdState :=
  if argv.length < 3 then ([], none)
  else if again then ([], some last)
  else
    let chip := (simpleStrtoul (entry beyond argv 1) 16).1.toUInt8
    let addr := (simpleStrtoul (entry beyond argv 2) 16).1
    let alen := alenOf 8 (entry beyond argv 2)
    if wide : alen > 4 then ([1, 2], none)
    else if argv.length > 3 then
      ([1, 2, 3], some ⟨chip, addr, alen, (simpleStrtoul (entry beyond argv 3) 16).1, wide⟩)
    else ([1, 2], some ⟨chip, addr, alen, last.length, wide⟩)

inductive Shown where
  | error
  | line (addr : UInt32) (bytes : List UInt8)

def Shown.bytes : Shown → List UInt8
  | .error => []
  | .line _ bytes => bytes

/-- What the loop leaves: the lengths of the transfers, and what is on the screen. -/
structure Display where
  reads : List UInt16
  shown : List Shown

def showLine (addr : UInt32) (linebytes : Int) (out : Outcome) : Shown :=
  if out.result ≠ .ok then .error
  else .line addr ((List.range linebytes.toNat).map (out.data.getD fun _ => 0))

def lineBytes (nbytes : Int) : Int := if nbytes > dispLineLen then dispLineLen else nbytes

lemma lineBytes_left {nbytes : Int} (more : nbytes - lineBytes nbytes > 0) :
    lineBytes nbytes = 16 ∧ 16 < nbytes := by
  unfold lineBytes dispLineLen at *
  split at more <;> rename_i long
  · rw [if_pos long]
    exact ⟨rfl, long⟩
  · omega

/-- The lines of `do_i2c_md`; `linebuf` is what is in the buffer before a line is read. -/
def mdLines (linebuf : Nat → UInt8) (chip : UInt8) (alen : UInt32) (bus : Device) (addr : UInt32)
    (nbytes : Int) : Display :=
  let len := UInt32.ofInt (lineBytes nbytes)
  let out := i2cRead bus chip addr alen.toNat linebuf len
  let line := showLine addr (lineBytes nbytes) out
  if nbytes - lineBytes nbytes > 0 then
    let later := mdLines linebuf chip alen (bus.after out.log)
      (addr + UInt32.ofNat line.bytes.length) (nbytes - lineBytes nbytes)
    ⟨len.toUInt16 :: later.reads, line :: later.shown⟩
  else ⟨[len.toUInt16], [line]⟩
termination_by nbytes.toNat
decreasing_by
  rename_i more
  have full := lineBytes_left more
  omega

/-- What `i2c md` comes to; `entries` are the arguments it looks at, and `last` is what it displays
from. The source keeps the address behind the last line for the next call. -/
inductive MdResult where
  | usage (entries : List Nat)
  | displayed (entries : List Nat) (display : Display) (last : MdState)

def doI2cMd (linebuf : Nat → UInt8) (bus : Device) (last : MdState) (again : Bool)
    (beyond : List UInt8) (argv : List (List UInt8)) : MdResult :=
  match mdParams last again beyond argv with
  | (entries, none) => .usage entries
  | (entries, some p) =>
    .displayed entries (mdLines linebuf p.chip p.alen bus p.addr p.length.toInt32.toInt) p

structure Looping where
  chip : UInt8
  addr : UInt32
  alen : UInt32
  length : UInt32
  delay : UInt32

/-- What `do_i2c_loop` is called with, and the entries of `argv` it looks at. -/
def loopParams (beyond : List UInt8) (argv : List (List UInt8)) : List Nat × Option Looping :=
  if argv.length < 3 then ([], none)
  else
    let chip := (simpleStrtoul (entry beyond argv 1) 16).1.toUInt8
    let addr := (simpleStrtoul (entry beyond argv 2) 16).1
    let alen := alenOf 8 (entry beyond argv 2)
    if alen > 4 then ([1, 2], none)
    else
      -- the length is taken whether or not there is one, and the delay if there is a length
      let length := (simpleStrtoul (entry beyond argv 3) 16).1
      let length := if length > 16 then 16 else length
      if argv.length > 3 then
        ([1, 2, 3, 4], some ⟨chip, addr, alen, length, (simpleStrtoul (entry beyond argv 4) 10).1⟩)
      else ([1, 2, 3], some ⟨chip, addr, alen, length, 1000⟩)

/-- What the endless loop has done: the bus, the buffer, the lengths of the transfers, and how often
it said that there was an error. -/
structure LoopState where
  bus : Device
  bytes : Nat → UInt8
  reads : List UInt16
  errors : Nat

def LoopState.next (s : LoopState) (l : Looping) : LoopState :=
  let out := i2cRead s.bus l.chip l.addr l.alen.toNat s.bytes l.length
  { bus := s.bus.after out.log
    bytes := out.data.getD s.bytes
    reads := s.reads ++ [l.length.toUInt16]
    errors := if out.result ≠ .ok then s.errors + 1 else s.errors }

def loopRun (bytes : Nat → UInt8) (bus : Device) (l : Looping) : (n : Nat) → LoopState
  | 0 => ⟨bus, bytes, [], 0⟩
  | n + 1 => (loopRun bytes bus l n).next l

/-- A transfer of `len` bytes has its place in a buffer of 16. -/
def Fits (len : UInt16) : Prop := 1 ≤ len.toNat ∧ len.toNat ≤ 16

/-- `i2c md` looks at its arguments only, reads into its buffer, and displays as many bytes as it
was asked for. -/
def MdResult.Sound (argc : Nat) : MdResult → Prop
  | .usage entries => ∀ i ∈ entries, i < argc
  | .displayed entries display last =>
    (∀ i ∈ entries, i < argc) ∧ (∀ len ∈ display.reads, Fits len) ∧
      (display.shown.flatMap Shown.bytes).length = last.length.toNat

/-- `i2c loop` looks at its arguments only, and reads into its buffer as long as it runs. -/
def LoopSound (bytes : Nat → UInt8) (bus : Device) (argc : Nat) :
    List Nat × Option Looping → Prop
  | (entries, none) => ∀ i ∈ entries, i < argc
  | (entries, some l) =>
    (∀ i ∈ entries, i < argc) ∧ ∀ n, ∀ len ∈ (loopRun bytes bus l n).reads, Fits len

/-- The bus answers to the read of each line of `left` bytes. -/
def Answered (linebuf : Nat → UInt8) (chip : UInt8) (alen : UInt32) (bus : Device) (addr : UInt32)
    (left : Nat) : Prop :=
  if left > 16 then
    (i2cRead bus chip addr alen.toNat linebuf 16).result = .ok ∧
      Answered linebuf chip alen
        (bus.after (i2cRead bus chip addr alen.toNat linebuf 16).log) (addr + 16) (left - 16)
  else (i2cRead bus chip addr alen.toNat linebuf (UInt32.ofNat left)).result = .ok
termination_by left

/-- The usage is shown, or the length is positive as an `int` and the bus answers. -/
def MdCondition (linebuf : Nat → UInt8) (bus : Device) (last : MdState) (again : Bool)
    (beyond : List UInt8) (argv : List (List UInt8)) : Prop :=
  ∀ p, (mdParams last again beyond argv).2 = some p →
    1 ≤ p.length.toNat ∧ p.length.toNat < 2 ^ 31 ∧
      Answered linebuf p.chip p.alen bus p.addr p.length.toNat

def LoopCondition (beyond : List UInt8) (argv : List (List UInt8)) : Prop :=
  argv.length < 3 ∨ alenOf 8 (entry beyond argv 2) > 4 ∨
    5 ≤ argv.length ∧ (simpleStrtoul (entry beyond argv 3) 16).1 ≠ 0

variable {left : Nat}

lemma lineBytes_long (long : left > 16) : lineBytes left = 16 :=
  if_pos (by unfold dispLineLen; omega)

lemma lineBytes_short (short : ¬ left > 16) : lineBytes left = left :=
  if_neg (by unfold dispLineLen; omega)

lemma showLine_length (addr : UInt32) (linebytes : Int) (out : Outcome) :
    (showLine addr linebytes out).bytes.length =
      if out.result = .ok then linebytes.toNat else 0 := by
  by_cases ok : out.result = .ok <;> simp [showLine, ok, Shown.bytes]

lemma mdLines_long (linebuf : Nat → UInt8) (chip : UInt8) (alen : UInt32) (bus : Device)
    (addr : UInt32) (long : left > 16) :
    mdLines linebuf chip alen bus addr left =
      let out := i2cRead bus chip addr alen.toNat linebuf 16
      let line := showLine addr 16 out
      let later := mdLines linebuf chip alen (bus.after out.log)
        (addr + UInt32.ofNat line.bytes.length) (left - 16 : Nat)
      ⟨16 :: later.reads, line :: later.shown⟩ := by
  have rest : (left : Int) - 16 = (left - 16 : Nat) := by omega
  rw [mdLines, lineBytes_long long, if_pos (by omega), rest]
  rfl

lemma mdLines_short (linebuf : Nat → UInt8) (chip : UInt8) (alen : UInt32) (bus : Device)
    (addr : UInt32) (short : ¬ left > 16) :
    mdLines linebuf chip alen bus addr left =
      let len := UInt32.ofNat left
      ⟨[len.toUInt16], [showLine addr left (i2cRead bus chip addr alen.toNat linebuf len)]⟩ := by
  have len : UInt32.ofInt left = UInt32.ofNat left := UInt32.toNat.inj (by
    rw [UInt32.ofInt, UInt32.toNat_ofNat', UInt32.toNat_ofNat']
    omega)
  rw [mdLines, lineBytes_short short, if_neg (by omega), len]

lemma mdLines_fits (linebuf : Nat → UInt8) (chip : UInt8) (alen : UInt32) (bus : Device)
    (addr : UInt32) (left : Nat) (some_left : 1 ≤ left) :
    ∀ len ∈ (mdLines linebuf chip alen bus addr left).reads, Fits len := by
  induction left using Nat.strongRecOn generalizing bus addr with
  | ind left ih =>
    intro len read
    by_cases long : left > 16
    · rw [mdLines_long linebuf chip alen bus addr long] at read
      rcases List.mem_cons.mp read with rfl | later
      · exact ⟨by decide, by decide⟩
      · exact ih (left - 16) (by omega) _ _ (by omega) len later
    · rw [mdLines_short linebuf chip alen bus addr long] at read
      rw [List.mem_singleton.mp read]
      unfold Fits
      rw [UInt32.toNat_toUInt16, UInt32.toNat_ofNat']
      omega

lemma mdLines_length_le (linebuf : Nat → UInt8) (chip : UInt8) (alen : UInt32) (bus : Device)
    (addr : UInt32) (left : Nat) :
    ((mdLines linebuf chip alen bus addr left).shown.flatMap Shown.bytes).length ≤ left := by
  induction left using Nat.strongRecOn generalizing bus addr with
  | ind left ih =>
    by_cases long : left > 16
    · rw [mdLines_long linebuf chip alen bus addr long, List.flatMap_cons, List.length_append]
      have later := ih (left - 16) (by omega)
      refine Nat.le_trans (Nat.add_le_add ?_ (later _ _)) (by omega : 16 + (left - 16) ≤ left)
      rw [showLine_length]
      split <;> decide
    · rw [mdLines_short linebuf chip alen bus addr long, List.flatMap_singleton, showLine_length]
      split <;> omega

lemma mdLines_length_iff (linebuf : Nat → UInt8) (chip : UInt8) (alen : UInt32) (bus : Device)
    (addr : UInt32) (left : Nat) (some_left : 1 ≤ left) :
    ((mdLines linebuf chip alen bus addr left).shown.flatMap Shown.bytes).length = left ↔
      Answered linebuf chip alen bus addr left := by
  induction left using Nat.strongRecOn generalizing bus addr with
  | ind left ih =>
    rw [Answered]
    by_cases long : left > 16
    · rw [mdLines_long linebuf chip alen bus addr long, if_pos long, List.flatMap_cons,
        List.length_append, showLine_length]
      by_cases ok : (i2cRead bus chip addr alen.toNat linebuf 16).result = .ok
      · rw [if_pos ok, ← ih (left - 16) (by omega) _ _ (by omega)]
        have full : (16 : Int).toNat = 16 := rfl
        have next : UInt32.ofNat 16 = 16 := rfl
        simp only [ok, true_and, full, next]
        omega
      · have later := mdLines_length_le linebuf chip alen
          (bus.after (i2cRead bus chip addr alen.toNat linebuf 16).log)
          (addr + UInt32.ofNat 0) (left - 16)
        simp only [ok, false_and, iff_false, if_false]
        omega
    · rw [mdLines_short linebuf chip alen bus addr long, if_neg long, List.flatMap_singleton,
        showLine_length]
      split <;> rename_i ok
      · exact iff_of_true rfl ok
      · exact iff_of_false (by omega) ok

lemma toInt_of_small {length : UInt32} (small : length.toNat < 2 ^ 31) :
    length.toInt32.toInt = length.toNat :=
  BitVec.toInt_eq_toNat_of_lt (show 2 * length.toNat < 2 ^ 32 by omega)

lemma toInt_of_large {length : UInt32} (large : 2 ^ 31 ≤ length.toNat) :
    length.toInt32.toInt < 0 := by
  have bits : length.toInt32.toInt = length.toBitVec.toInt := rfl
  have value : length.toBitVec.toNat = length.toNat := rfl
  rw [bits, BitVec.toInt_eq_toNat_cond, value, if_neg (by omega)]
  omega

lemma mdLines_negative (linebuf : Nat → UInt8) (chip : UInt8) (alen : UInt32) (bus : Device)
    (addr : UInt32) {nbytes : Int} (negative : nbytes < 0) :
    ((mdLines linebuf chip alen bus addr nbytes).shown.flatMap Shown.bytes).length = 0 := by
  have short : lineBytes nbytes = nbytes := if_neg (by unfold dispLineLen; omega)
  rw [mdLines, short, if_neg (by omega), List.flatMap_singleton, showLine_length]
  split <;> omega

lemma mdParams_entries (last : MdState) (again : Bool) (beyond : List UInt8)
    (argv : List (List UInt8)) : ∀ i ∈ (mdParams last again beyond argv).1, i < argv.length := by
  unfold mdParams
  by_cases few : argv.length < 3
  · simp [few]
  rw [if_neg few]
  cases again with
  | true => simp
  | false =>
    simp only [Bool.false_eq_true, if_false]
    split
    · simp
      omega
    · split <;> simp <;> omega

lemma displayed_sound_iff (linebuf : Nat → UInt8) (bus : Device) (p : MdState) :
    ((∀ len ∈ (mdLines linebuf p.chip p.alen bus p.addr p.length.toInt32.toInt).reads, Fits len) ∧
      ((mdLines linebuf p.chip p.alen bus p.addr p.length.toInt32.toInt).shown.flatMap
        Shown.bytes).length = p.length.toNat) ↔
    1 ≤ p.length.toNat ∧ p.length.toNat < 2 ^ 31 ∧
      Answered linebuf p.chip p.alen bus p.addr p.length.toNat := by
  by_cases large : 2 ^ 31 ≤ p.length.toNat
  · have nothing := mdLines_negative linebuf p.chip p.alen bus p.addr (toInt_of_large large)
    refine iff_of_false (fun sound => ?_) fun condition => ?_
    · omega
    · omega
  have value := toInt_of_small (Nat.lt_of_not_le large)
  rw [value]
  by_cases zero : p.length.toNat = 0
  · refine iff_of_false (fun sound => ?_) fun condition => ?_
    · have fits := sound.1 0 (by
        rw [zero, mdLines_short linebuf p.chip p.alen bus p.addr (by omega)]
        exact List.mem_singleton.mpr rfl)
      exact absurd fits.1 (by decide)
    · omega
  · have some_left : 1 ≤ p.length.toNat := Nat.one_le_iff_ne_zero.mpr zero
    rw [← mdLines_length_iff linebuf p.chip p.alen bus p.addr p.length.toNat some_left]
    constructor
    · rintro ⟨-, shown⟩
      exact ⟨some_left, by omega, shown⟩
    · rintro ⟨-, -, shown⟩
      exact ⟨mdLines_fits linebuf p.chip p.alen bus p.addr p.length.toNat some_left, shown⟩

lemma doI2cMd_sound_iff (linebuf : Nat → UInt8) (bus : Device) (last : MdState) (again : Bool)
    (beyond : List UInt8) (argv : List (List UInt8)) :
    (doI2cMd linebuf bus last again beyond argv).Sound argv.length ↔
      MdCondition linebuf bus last again beyond argv := by
  have inside := mdParams_entries last again beyond argv
  unfold doI2cMd MdCondition
  generalize mdParams last again beyond argv = params at inside ⊢
  obtain ⟨entries, none | p⟩ := params
  · exact iff_of_true inside fun p given => nomatch given
  have shown := displayed_sound_iff linebuf bus p
  constructor
  · rintro sound p' given
    cases given
    exact shown.mp sound.2
  · intro condition
    exact ⟨inside, shown.mpr (condition p rfl)⟩

lemma loopRun_reads (bytes : Nat → UInt8) (bus : Device) (l : Looping) (n : Nat) :
    (loopRun bytes bus l n).reads = List.replicate n l.length.toUInt16 := by
  induction n with
  | zero => rfl
  | succ n ih => rw [loopRun, LoopState.next, ih, List.replicate_succ']

lemma loopRun_fits_iff (bytes : Nat → UInt8) (bus : Device) (l : Looping) :
    (∀ n, ∀ len ∈ (loopRun bytes bus l n).reads, Fits len) ↔ Fits l.length.toUInt16 := by
  constructor
  · intro fits
    refine fits 1 _ ?_
    rw [loopRun_reads]
    exact List.mem_singleton.mpr rfl
  · intro fits n len read
    rw [loopRun_reads] at read
    rw [List.eq_of_mem_replicate read]
    exact fits

lemma clamped_fits_iff (length : UInt32) :
    Fits (if length > 16 then 16 else length).toUInt16 ↔ length ≠ 0 := by
  unfold Fits
  rw [UInt32.toNat_toUInt16, ne_eq, ← UInt32.toNat_inj]
  have zero : (0 : UInt32).toNat = 0 := rfl
  have most : (16 : UInt32).toNat = 16 := rfl
  split <;> rename_i long <;> rw [gt_iff_lt, UInt32.lt_iff_toNat_lt] at long <;> omega

lemma loop_sound_iff (bytes : Nat → UInt8) (bus : Device) (beyond : List UInt8)
    (argv : List (List UInt8)) :
    LoopSound bytes bus argv.length (loopParams beyond argv) ↔ LoopCondition beyond argv := by
  unfold loopParams LoopCondition
  by_cases few : argv.length < 3
  · rw [if_pos few]
    exact iff_of_true (by simp [LoopSound]) (.inl few)
  rw [if_neg few]
  by_cases wide : alenOf 8 (entry beyond argv 2) > 4
  · rw [if_pos wide]
    refine iff_of_true ?_ (.inr (.inl wide))
    simp [LoopSound]
    omega
  rw [if_neg wide]
  simp only [few, wide, false_or]
  by_cases given : argv.length > 3
  · rw [if_pos given, LoopSound, loopRun_fits_iff, clamped_fits_iff]
    simp
    omega
  · rw [if_neg given, LoopSound]
    refine iff_of_false (fun sound => ?_) (by omega)
    have third := sound.1 3 (by simp)
    omega

/-- Both commands keep to their arguments, to their buffers and to the length they are given, `md`
if and only if the length is positive as an `int` and the bus answers, and `loop` if and only if
there are a delay and a length that is not zero. -/
theorem commands_sound_iff (buffer : Nat → UInt8) (bus : Device) (last : MdState) (again : Bool)
    (beyond : List UInt8) (argv : List (List UInt8)) :
    ((doI2cMd buffer bus last again beyond argv).Sound argv.length ↔
      MdCondition buffer bus last again beyond argv) ∧
    (LoopSound buffer bus argv.length (loopParams beyond argv) ↔ LoopCondition beyond argv) :=
  ⟨doI2cMd_sound_iff buffer bus last again beyond argv, loop_sound_iff buffer bus beyond argv⟩

def mdHuge : List (List UInt8) :=
  [[109, 100], [53, 48], [48], [102, 102, 102, 102, 102, 102, 48, 48]]

def loopBare : List (List UInt8) := [[108, 111, 111, 112], [53, 48], [48]]

/-- A length that is negative as an `int` has 65280 bytes read into the buffer of 16, and a loop
without a length looks for one behind the arguments. -/
theorem commands_unsound :
    ¬ (doI2cMd (fun _ => 0) noChip .initial false [] mdHuge).Sound mdHuge.length ∧
      (mdLines (fun _ => 0) 0x50 1 noChip 0 (-256)).reads = [65280] ∧
      ¬ LoopSound (fun _ => 0) noChip loopBare.length (loopParams [] loopBare) := by
  refine ⟨fun sound => ?_, ?_, fun sound => ?_⟩
  · have condition :=
      (doI2cMd_sound_iff _ _ _ _ _ _).mp sound ⟨0x50, 0, 1, 0xFFFFFF00, by decide⟩ rfl
    exact absurd condition.2.1 (by decide)
  · rw [mdLines]
    rfl
  · rcases (loop_sound_iff _ _ _ _).mp sound with few | wide | enough
    · exact absurd few (by decide)
    · exact absurd wide (by decide)
    · exact absurd enough.1 (by decide)

end I2c
