import UBoot.Env.RedundantEnv

/-!
# The Linux tool on the same two copies (tools/env/fw_env.c)

`dev_current` 0 and 1 are the copies one and two of U-Boot. The tool holds the
two serials in plain `char` variables, so that whether they are signed depends on
the compiler it is built with; here it is a parameter.
-/

namespace FwEnv

open ByteMemory EnvArea SetEnv SetEnvSpec Runs RedundantEnv

def charValue (charSigned : Bool) (b : UInt8) : Int :=
  if charSigned ∧ 128 ≤ b.toNat then (b.toNat : Int) - 256 else b.toNat

def flagIncremental (charSigned : Bool) (b0 b1 : UInt8) : Slot :=
  let flag0 := charValue charSigned b0
  let flag1 := charValue charSigned b1
  if flag0 = 255 ∧ flag1 = 0 ∨ flag1 > flag0 then .two
  else if flag1 = 255 ∧ flag0 = 0 ∨ flag0 > flag1 then .one
  else .one

def devCurrent (charSigned : Bool) (n : Nat) (c : Copies) : Slot :=
  if CrcOk n c.one ∧ ¬ CrcOk n c.two then .one
  else if ¬ CrcOk n c.one ∧ CrcOk n c.two then .two
  else if ¬ CrcOk n c.one ∧ ¬ CrcOk n c.two then .one
  else flagIncremental charSigned c.one.flags c.two.flags

def envInit (charSigned : Bool) (n : Nat) (defaultEnvironment : List UInt8) (c : Copies) : EnvT :=
  let env := c.get (devCurrent charSigned n c)
  if ¬ CrcOk n c.one ∧ ¬ CrcOk n c.two then
    { env with data := blit env.data 0 defaultEnvironment }
  else env

/-- `fw_setenv`: the edited image goes to the copy that is not current. -/
def fwSetenv (charSigned : Bool) (n : Nat) (defaultEnvironment : List UInt8)
    (edit : Mem → Mem) (c : Copies) : Slot × EnvT :=
  let env := envInit charSigned n defaultEnvironment c
  let edited := envCrcUpdate n { env with data := edit env.data }
  ((devCurrent charSigned n c).other, { edited with flags := edited.flags + 1 })

structure Shared where
  session : Session
  running : Bool

inductive Event where
  | setenv (name : Name) (args : List CStr)
  | saveenv
  | reboot
  | fwSetenv (edit : Mem → Mem)

def awake (n : Nat) (layout : EnvNand.Layout) (s : Shared) : Session :=
  if s.running then s.session else RedundantEnv.reboot n layout s.session

def step (charSigned : Bool) (cfg : Config) (layout : EnvNand.Layout) (s : Shared) :
    Event → Option Shared
  | .setenv name args =>
    (RedundantEnv.step cfg layout (awake cfg.envSize layout s) (.setenv name args)).map (⟨·, true⟩)
  | .saveenv =>
    (RedundantEnv.step cfg layout (awake cfg.envSize layout s) (.saveenv .written)).map (⟨·, true⟩)
  | .reboot => some ⟨RedundantEnv.reboot cfg.envSize layout s.session, true⟩
  | .fwSetenv edit =>
    let w := fwSetenv charSigned cfg.envSize layout.defaultEnvironment edit s.session.copies
    some ⟨{ s.session with copies := s.session.copies.put w.1 w.2, lastSaved := some w }, false⟩

/-- The next serial behind `old` is one the tool takes for the later one. -/
def Counts (charSigned : Bool) (old : UInt8) (target : Slot) : Prop :=
  if charSigned then old ≠ 127 else ¬ (old = 255 ∧ target = .one)

lemma counts_iff_nat (charSigned : Bool) (old : UInt8) (target : Slot) :
    Counts charSigned old target ↔
      if charSigned then old.toNat ≠ 127 else ¬ (old.toNat = 255 ∧ target = .one) := by
  simp only [Counts, ne_eq, ← UInt8.toNat_inj]
  rfl

lemma flagIncremental_two (charSigned : Bool) (b0 b1 : UInt8) :
    flagIncremental charSigned b0 b1 = .two ↔
      charValue charSigned b0 = 255 ∧ charValue charSigned b1 = 0 ∨
        charValue charSigned b0 < charValue charSigned b1 := by
  simp only [flagIncremental]
  split_ifs with h1 h2
  · exact iff_of_true rfl h1
  · exact iff_of_false (by decide) h1
  · exact iff_of_false (by decide) h1

lemma flagIncremental_one (charSigned : Bool) (b0 b1 : UInt8) :
    flagIncremental charSigned b0 b1 = .one ↔
      ¬ (charValue charSigned b0 = 255 ∧ charValue charSigned b1 = 0 ∨
        charValue charSigned b0 < charValue charSigned b1) := by
  rw [← flagIncremental_two]
  cases flagIncremental charSigned b0 b1 <;> simp

lemma flagIncremental_takes (charSigned : Bool) (old : UInt8) :
    (flagIncremental charSigned old (old + 1) = .two ↔ Counts charSigned old .two) ∧
      (flagIncremental charSigned (old + 1) old = .one ↔ Counts charSigned old .one) := by
  have hnext : (old + 1).toNat = (old.toNat + 1) % 256 := by simp
  have hlt := old.toNat_lt
  simp only [flagIncremental_two, flagIncremental_one, counts_iff_nat, charValue, hnext]
  cases charSigned with
  | false =>
    constructor
    · simp
      omega
    · simp
      omega
  | true =>
    simp only [true_and, if_true]
    constructor
    · split_ifs <;> omega
    · split_ifs <;> omega

lemma devCurrent_put (charSigned : Bool) {n : Nat} (c : Copies) (slot : Slot) {env : EnvT}
    (crcOk : CrcOk n env) (next : CrcOk n (c.get slot) → env.flags = (c.get slot).flags + 1) :
    devCurrent charSigned n (c.put slot.other env) = slot.other ↔
      (CrcOk n (c.get slot) → Counts charSigned (c.get slot).flags slot.other) := by
  have hserial := flagIncremental_takes charSigned (c.get slot).flags
  cases slot with
  | one =>
    simp only [Slot.other, Copies.put, Copies.get, devCurrent] at hserial next ⊢
    by_cases h1 : CrcOk n c.one
    · simp [h1, crcOk, next h1, hserial.1]
    · simp [h1, crcOk]
  | two =>
    simp only [Slot.other, Copies.put, Copies.get, devCurrent] at hserial next ⊢
    by_cases h2 : CrcOk n c.two
    · simp [h2, crcOk, next h2, hserial.2]
    · simp [h2, crcOk]

def Agree (charSigned : Bool) (n : Nat) (s : Shared) : Prop :=
  ∀ slot env, s.session.lastSaved = some (slot, env) →
    selectCopy n s.session.copies = some slot ∧
    devCurrent charSigned n s.session.copies = slot ∧ s.session.copies.get slot = env

/-- A save by U-Boot has the right checksum in RAM, and no save puts a serial behind the one it
replaces that the tool takes for an earlier one. -/
def Safe (charSigned : Bool) (n : Nat) (layout : EnvNand.Layout) (s : Shared) : Event → Prop
  | .saveenv =>
    let u := awake n layout s
    CrcOk n u.board.env ∧ (CrcOk n (u.copies.get u.valid) →
      Counts charSigned (u.copies.get u.valid).flags u.valid.other)
  | .fwSetenv _ =>
    let dev := devCurrent charSigned n s.session.copies
    CrcOk n (s.session.copies.get dev) →
      Counts charSigned (s.session.copies.get dev).flags dev.other
  | _ => True

def Current (n : Nat) (s : Shared) : Prop :=
  s.running = true → InStep n s.session ∧ InUse s.session

lemma agree_put (charSigned : Bool) {n : Nat} (c : Copies) (slot : Slot) (env : EnvT)
    (next : CrcOk n (c.get slot) → env.flags = (c.get slot).flags + 1) :
    selectCopy n (c.put slot.other env) = some slot.other ∧
        devCurrent charSigned n (c.put slot.other env) = slot.other ↔
      CrcOk n env ∧ (CrcOk n (c.get slot) → Counts charSigned (c.get slot).flags slot.other) := by
  rw [selectCopy_put]
  constructor
  · rintro ⟨⟨hcrc, -⟩, hdev⟩
    exact ⟨hcrc, (devCurrent_put charSigned c slot hcrc next).mp hdev⟩
  · rintro ⟨hcrc, hcounts⟩
    refine ⟨⟨hcrc, fun hold => ?_⟩, (devCurrent_put charSigned c slot hcrc next).mpr hcounts⟩
    rw [next hold]
    exact later_succ _ _

lemma current_awake {charSigned : Bool} {n : Nat} (layout : EnvNand.Layout) {s : Shared}
    (current : Current n s) (agree : Agree charSigned n s) :
    InStep n (awake n layout s) ∧ InUse (awake n layout s) ∧
      (awake n layout s).copies = s.session.copies ∧
      (awake n layout s).lastSaved = s.session.lastSaved := by
  unfold awake
  by_cases hrunning : s.running = true
  · rw [if_pos hrunning]
    exact ⟨(current hrunning).1, (current hrunning).2, rfl, rfl⟩
  rw [if_neg hrunning]
  refine ⟨inStep_reboot _ _ _, fun slot env hsaved => ?_, rfl, rfl⟩
  have hselect := (agree slot env hsaved).1
  simp [RedundantEnv.reboot, envRelocateSpec, hselect]

lemma fwSetenv_next (charSigned : Bool) (n : Nat) (dflt : List UInt8) (edit : Mem → Mem)
    (c : Copies) :
    (fwSetenv charSigned n dflt edit c).1 = (devCurrent charSigned n c).other ∧
      CrcOk n (fwSetenv charSigned n dflt edit c).2 ∧
      (fwSetenv charSigned n dflt edit c).2.flags =
        (c.get (devCurrent charSigned n c)).flags + 1 := by
  refine ⟨rfl, crcOk_update _ _, ?_⟩
  simp only [fwSetenv, envCrcUpdate, envInit]
  split_ifs <;> rfl

lemma step_agrees_iff {charSigned : Bool} {cfg : Config} {layout : EnvNand.Layout}
    {s t : Shared} {ev : Event} (current : Current cfg.envSize s)
    (agree : Agree charSigned cfg.envSize s) (hstep : step charSigned cfg layout s ev = some t) :
    Current cfg.envSize t ∧
      (Safe charSigned cfg.envSize layout s ev ↔ Agree charSigned cfg.envSize t) := by
  obtain ⟨hinStep, hinUse, hcopies, hsaved⟩ := current_awake layout current agree
  cases ev with
  | setenv name args =>
    obtain ⟨u, hu, rfl⟩ := Option.map_eq_some_iff.mp hstep
    have hclean : SavesCleanly (awake cfg.envSize layout s)
        (.setenv name args : RedundantEnv.Event cfg.envSize) := trivial
    have hinStep' := inStep_step hinStep hclean hu
    obtain ⟨r, -, rfl⟩ := Option.map_eq_some_iff.mp hu
    refine ⟨fun _ => ⟨hinStep', hinUse⟩, iff_of_true trivial ?_⟩
    intro slot env hlast
    have h := agree slot env (hsaved ▸ hlast)
    rw [← hcopies] at h
    exact h
  | saveenv =>
    cases hstep
    have hput := agree_put charSigned (awake cfg.envSize layout s).copies
      (awake cfg.envSize layout s).valid
      { (awake cfg.envSize layout s).board.env with
        flags := (awake cfg.envSize layout s).board.env.flags + 1 }
      (fun hcrc => congrArg (· + 1) (hinStep hcrc))
    rw [saveenv_written]
    constructor
    · intro _
      refine ⟨fun _ => by simp, fun slot env hlast => ?_⟩
      exact congrArg Prod.fst (Option.some.inj hlast)
    · constructor
      · intro hsafe slot env hlast
        obtain ⟨rfl, rfl⟩ := Prod.mk.inj (Option.some.inj hlast)
        obtain ⟨hselect, hdev⟩ := hput.mpr hsafe
        exact ⟨hselect, hdev, Copies.get_put _ _ _⟩
      · intro hagree
        obtain ⟨hselect, hdev, -⟩ := hagree _ _ rfl
        exact hput.mp ⟨hselect, hdev⟩
  | reboot =>
    cases hstep
    constructor
    · intro _
      refine ⟨inStep_reboot _ _ _, fun slot env hlast => ?_⟩
      have hselect := (agree slot env hlast).1
      simp [RedundantEnv.reboot, envRelocateSpec, hselect]
    · exact iff_of_true trivial agree
  | fwSetenv edit =>
    cases hstep
    obtain ⟨htarget, hcrc, hnext⟩ := fwSetenv_next charSigned cfg.envSize
      layout.defaultEnvironment edit s.session.copies
    have hput := agree_put charSigned (n := cfg.envSize) s.session.copies
      (devCurrent charSigned cfg.envSize s.session.copies)
      (fwSetenv charSigned cfg.envSize layout.defaultEnvironment edit s.session.copies).2
      (fun _ => hnext)
    refine ⟨fun hrunning => by simp at hrunning, ?_⟩
    constructor
    · intro hsafe slot env hlast
      obtain ⟨rfl, rfl⟩ := Prod.mk.inj (Option.some.inj hlast)
      obtain ⟨hselect, hdev⟩ := hput.mpr ⟨hcrc, hsafe⟩
      exact ⟨hselect, hdev, Copies.get_put _ _ _⟩
    · intro hagree
      obtain ⟨hselect, hdev, -⟩ := hagree _ _ rfl
      exact (hput.mp ⟨hselect, hdev⟩).2

/-- After every step of a run both programs take the copy written last, if and only if every save
of the run is safe. -/
theorem readers_agree_iff (charSigned : Bool) (cfg : Config) (layout : EnvNand.Layout)
    (board : Board) (copies : Copies) (running : Bool) (events : List Event) :
    StepsMeet (step charSigned cfg layout) (Safe charSigned cfg.envSize layout)
        ⟨powerOn cfg.envSize layout board copies, running⟩ events ↔
      ∀ done todo, events = done ++ todo → ∀ t,
        runFrom (step charSigned cfg layout)
          ⟨powerOn cfg.envSize layout board copies, running⟩ done = some t →
        Agree charSigned cfg.envSize t := by
  refine stepsMeet_iff (Current cfg.envSize) ?_ ?_ ?_ ?_ ?_ events
  · intro s ev _ hstuck
    cases ev with
    | setenv name args => trivial
    | reboot => trivial
    | saveenv => simp [step, RedundantEnv.step] at hstuck
    | fwSetenv edit => simp [step] at hstuck
  · intro s ev t current agree hstep
    exact (step_agrees_iff current agree hstep).2
  · intro s ev t current agree hstep
    exact (step_agrees_iff current agree hstep).1
  · intro _
    exact ⟨inStep_reboot _ _ _, inUse_powerOn _ _ _ _⟩
  · intro slot env hlast
    cases hlast

def fullCount (n : Nat) : Copies := ⟨tornCopy n, imageWith n 255 [EnvNand.small]⟩

lemma fullCount_selected (n : Nat) : selectCopy n (fullCount n) = some .two := by
  have h1 : ¬ CrcOk n (fullCount n).one := tornCopy_bad _
  have h2 : CrcOk n (fullCount n).two := imageWith_crcOk _ _ _
  simp [selectCopy, h1, h2]

lemma tool_takes_serial_255 (n : Nat) (es fs : List Entry) :
    selectCopy n ⟨imageWith n 0 es, imageWith n 255 fs⟩ = some .one ∧
      devCurrent false n ⟨imageWith n 0 es, imageWith n 255 fs⟩ = .two := by
  have h1 : CrcOk n (imageWith n 0 es) := imageWith_crcOk _ _ _
  have h2 : CrcOk n (imageWith n 255 fs) := imageWith_crcOk _ _ _
  constructor
  · simp only [selectCopy, h1, h2, not_true_eq_false, and_false, false_and, if_false]
    exact congrArg some (show checkSerial 0 255 = .one by decide)
  · simp only [devCurrent, h1, h2, not_true_eq_false, and_false, false_and, if_false]
    exact show flagIncremental false 0 255 = .two by decide

lemma save_after_full_count (cfg : Config) (layout : EnvNand.Layout) :
    ∃ t saved, runFrom (step false cfg layout)
        ⟨powerOn cfg.envSize layout (coldBoard cfg.envSize) (fullCount cfg.envSize), true⟩
        [.saveenv] = some t ∧
      t.session.lastSaved = some (.one, saved) ∧
      selectCopy cfg.envSize t.session.copies = some .one ∧
      devCurrent false cfg.envSize t.session.copies = .two := by
  let b : Board := { coldBoard cfg.envSize with env := (fullCount cfg.envSize).two }
  have hstart : powerOn cfg.envSize layout (coldBoard cfg.envSize) (fullCount cfg.envSize) =
      ⟨b, .two, fullCount cfg.envSize, none⟩ := by
    simp only [powerOn, RedundantEnv.reboot, envRelocateSpec, fullCount_selected]
    rfl
  let saved : EnvT := imageWith cfg.envSize 0 [EnvNand.small]
  refine ⟨⟨⟨{ b with env := saved }, .one, ⟨saved, (fullCount cfg.envSize).two⟩,
    some (.one, saved)⟩, true⟩, saved, ?_, rfl, tool_takes_serial_255 _ _ _⟩
  have hserial : (255 : UInt8) + 1 = 0 := rfl
  have hsaved : { b.env with flags := b.env.flags + 1 } = saved := by
    change { imageWith cfg.envSize 255 [EnvNand.small] with flags := 255 + 1 } = saved
    rw [hserial]
    rfl
  rw [hstart]
  simp only [runFrom, step, awake, if_true, RedundantEnv.step, saveenv_written, Option.map_some,
    hsaved]
  rfl

/-- U-Boot wraps the serial from 255 to 0 in the first copy; the tool, built where `char` is
unsigned, still takes the second. -/
theorem serial_wrap_misleads_tool :
    ∃ t saved, runFrom (step false redundantBoard redundantLayout)
        ⟨powerOn redundantBoard.envSize redundantLayout (coldBoard redundantBoard.envSize)
          (fullCount redundantBoard.envSize), true⟩
        [.saveenv] = some t ∧
      t.session.lastSaved = some (.one, saved) ∧
      selectCopy redundantBoard.envSize t.session.copies = some .one ∧
      devCurrent false redundantBoard.envSize t.session.copies = .two :=
  save_after_full_count redundantBoard redundantLayout

end FwEnv
