import UBoot.Env.EnvNand

/-!
# Two copies of the environment (common/env_nand.c, redundant layout)

Each copy carries an 8-bit serial, the flags byte. A save goes to the copy that
is not in use and flips `gd->env_valid` only when it succeeds; the serial in RAM
has been incremented by then, whatever happens.
-/

namespace RedundantEnv

open ByteMemory EnvArea SetEnv SetEnvSpec Runs

inductive Slot where
  | one
  | two
  deriving DecidableEq

def Slot.other : Slot → Slot
  | .one => .two
  | .two => .one

@[simp] theorem Slot.other_other (slot : Slot) : slot.other.other = slot := by
  cases slot <;> rfl

@[simp] theorem Slot.other_ne (slot : Slot) : slot.other ≠ slot := by
  cases slot <;> decide

structure Copies where
  one : EnvT
  two : EnvT

def Copies.get (c : Copies) : Slot → EnvT
  | .one => c.one
  | .two => c.two

def Copies.put (c : Copies) (slot : Slot) (env : EnvT) : Copies :=
  match slot with
  | .one => { c with one := env }
  | .two => { c with two := env }

@[simp] theorem Copies.get_put (c : Copies) (slot : Slot) (env : EnvT) :
    (c.put slot env).get slot = env := by
  cases slot <;> rfl

@[simp] theorem Copies.get_put_other (c : Copies) (slot : Slot) (env : EnvT) :
    (c.put slot.other env).get slot = c.get slot := by
  cases slot <;> rfl

def checkSerial (flags1 flags2 : UInt8) : Slot :=
  if flags1 = 255 ∧ flags2 = 0 then .two
  else if flags2 = 255 ∧ flags1 = 0 then .one
  else if flags2 < flags1 then .one
  else if flags1 < flags2 then .two
  else .one

/-- The copy `env_relocate_spec` takes, if any has a right checksum. -/
def selectCopy (n : Nat) (c : Copies) : Option Slot :=
  if ¬ CrcOk n c.one ∧ ¬ CrcOk n c.two then none
  else if CrcOk n c.one ∧ ¬ CrcOk n c.two then some .one
  else if ¬ CrcOk n c.one ∧ CrcOk n c.two then some .two
  else some (checkSerial c.one.flags c.two.flags)

structure Loaded where
  env : EnvT
  valid : Slot
  usedDefault : Bool

def setDefaultEnv (n : Nat) (layout : EnvNand.Layout) (env : EnvT) (valid : Slot) : Loaded :=
  if n < layout.defaultEnvironment.length then ⟨env, valid, true⟩
  else ⟨{ EnvNand.setDefaultEnv n layout env with flags := 0xFF }, .one, true⟩

/-- `env_relocate_spec`; `env` and `valid` are the globals it finds. -/
def envRelocateSpec (n : Nat) (layout : EnvNand.Layout) (c : Copies) (env : EnvT)
    (valid : Slot) : Loaded :=
  match selectCopy n c with
  | none => setDefaultEnv n layout env valid
  | some slot => ⟨c.get slot, slot, false⟩

/-- How the erase and the write of a save end. A failure leaves a copy with a bad checksum. -/
inductive Outcome (n : Nat) where
  | written
  | failed (left : EnvT) (bad : ¬ CrcOk n left)

/-- The globals, the flash, and the last image a save reported to have written. -/
structure Session where
  board : Board
  valid : Slot
  copies : Copies
  lastSaved : Option (Slot × EnvT)

def saveenv {n : Nat} (s : Session) (outcome : Outcome n) : Int × Session :=
  let env := { s.board.env with flags := s.board.env.flags + 1 }
  let board := { s.board with env := env }
  let target := if s.valid = .one then Slot.two else Slot.one
  match outcome with
  | .written =>
    (0, { board := board, valid := if s.valid = .two then .one else .two,
          copies := s.copies.put target env, lastSaved := some (target, env) })
  | .failed left _ =>
    (1, { s with board := board, copies := s.copies.put target left })

inductive Event (n : Nat) where
  | setenv (name : Name) (args : List CStr)
  | saveenv (outcome : Outcome n)
  | reboot

def reboot (n : Nat) (layout : EnvNand.Layout) (s : Session) : Session :=
  let l := envRelocateSpec n layout s.copies s.board.env s.valid
  { s with board := { s.board with env := l.env }, valid := l.valid }

def step (cfg : Config) (layout : EnvNand.Layout) (s : Session) :
    Event cfg.envSize → Option Session
  | .setenv name args =>
    (doSetenv cfg s.board name.val (rawArgs args)).map (fun r => { s with board := r.board })
  | .saveenv outcome => some (saveenv s outcome).2
  | .reboot => some (reboot cfg.envSize layout s)

variable {n : Nat} {c : Copies}

/-- The serial `new`, written behind `old` in the other copy, reads as the later one. -/
def Later (old new : UInt8) (target : Slot) : Prop :=
  old = 255 ∧ new = 0 ∨ old < new ∧ ¬ (old = 0 ∧ new = 255) ∨ old = new ∧ target = .one

instance (old new : UInt8) (target : Slot) : Decidable (Later old new target) :=
  inferInstanceAs (Decidable (_ ∨ _ ∨ _))

lemma later_iff_nat (old new : UInt8) (target : Slot) :
    Later old new target ↔ old.toNat = 255 ∧ new.toNat = 0 ∨
      old.toNat < new.toNat ∧ ¬ (old.toNat = 0 ∧ new.toNat = 255) ∨
      old.toNat = new.toNat ∧ target = .one := by
  simp only [Later, UInt8.lt_iff_toNat_lt, ← UInt8.toNat_inj]
  rfl

lemma later_succ (old : UInt8) (target : Slot) : Later old (old + 1) target := by
  rw [later_iff_nat]
  have hnext : (old + 1).toNat = (old.toNat + 1) % 256 := by simp
  have hlt := old.toNat_lt
  omega

lemma checkSerial_nat (flags1 flags2 : UInt8) :
    checkSerial flags1 flags2 =
      if flags1.toNat = 255 ∧ flags2.toNat = 0 then .two
      else if flags2.toNat = 255 ∧ flags1.toNat = 0 then .one
      else if flags1.toNat < flags2.toNat then .two else .one := by
  simp only [checkSerial, UInt8.lt_iff_toNat_lt, ← UInt8.toNat_inj]
  simp only [UInt8.reduceToNat]
  split_ifs <;> first | rfl | omega

lemma checkSerial_takes (old new : UInt8) :
    (checkSerial old new = .two ↔ Later old new .two) ∧
      (checkSerial new old = .one ↔ Later old new .one) := by
  simp only [checkSerial_nat, later_iff_nat]
  constructor
  · split_ifs <;> simp <;> omega
  · split_ifs <;> simp <;> omega

lemma selectCopy_crcOk {slot : Slot} (h : selectCopy n c = some slot) :
    CrcOk n (c.get slot) := by
  unfold selectCopy at h
  by_cases h1 : CrcOk n c.one
  · by_cases h2 : CrcOk n c.two
    · cases slot with
      | one => exact h1
      | two => exact h2
    · simp only [h1, h2, not_true_eq_false, false_and, not_false_eq_true, and_self, if_false,
        if_true, Option.some.injEq] at h
      exact h ▸ h1
  · by_cases h2 : CrcOk n c.two
    · simp only [h1, h2, not_true_eq_false, not_false_eq_true, and_false, and_self, if_false,
        if_true, Option.some.injEq] at h
      exact h ▸ h2
    · simp [h1, h2] at h

lemma selectCopy_none (h : selectCopy n c = none) (slot : Slot) :
    ¬ CrcOk n (c.get slot) := by
  unfold selectCopy at h
  split_ifs at h with hbad
  cases slot with
  | one => exact hbad.1
  | two => exact hbad.2

lemma selectCopy_put (n : Nat) (c : Copies) (slot : Slot) (env : EnvT) :
    selectCopy n (c.put slot.other env) = some slot.other ↔
      CrcOk n env ∧
        (CrcOk n (c.get slot) → Later (c.get slot).flags env.flags slot.other) := by
  have hserial := checkSerial_takes (c.get slot).flags env.flags
  cases slot with
  | one =>
    simp only [Slot.other, Copies.put, Copies.get, selectCopy] at hserial ⊢
    by_cases h1 : CrcOk n c.one
    · by_cases h2 : CrcOk n env
      · simp [h1, h2, hserial.1]
      · simp [h1, h2]
    · by_cases h2 : CrcOk n env
      · simp [h1, h2]
      · simp [h1, h2]
  | two =>
    simp only [Slot.other, Copies.put, Copies.get, selectCopy] at hserial ⊢
    by_cases h1 : CrcOk n c.two
    · by_cases h2 : CrcOk n env
      · simp [h1, h2, hserial.2]
      · simp [h1, h2]
    · by_cases h2 : CrcOk n env
      · simp [h1, h2]
      · simp [h1, h2]

lemma selectCopy_put_bad {slot : Slot} {left : EnvT} (bad : ¬ CrcOk n left)
    (good : CrcOk n (c.get slot)) :
    selectCopy n (c.put slot.other left) = some slot := by
  cases slot with
  | one =>
    have h1 : CrcOk n c.one := good
    simp [selectCopy, Slot.other, Copies.put, h1, bad]
  | two =>
    have h2 : CrcOk n c.two := good
    simp [selectCopy, Slot.other, Copies.put, h2, bad]

variable {cfg : Config} {layout : EnvNand.Layout}

/-- `env_init` marks the environment valid, and `env_relocate` loads it. -/
def powerOn (n : Nat) (layout : EnvNand.Layout) (board : Board) (copies : Copies) : Session :=
  reboot n layout ⟨board, .one, copies, none⟩

def LoadsLastSave (n : Nat) (layout : EnvNand.Layout) (s : Session) : Prop :=
  ∀ slot env, s.lastSaved = some (slot, env) →
    envRelocateSpec n layout s.copies s.board.env s.valid = ⟨env, slot, false⟩

/-- A save that succeeds has the right checksum in RAM, and its serial is the later one unless the
copy in use is unreadable. -/
def SerialInOrder {n : Nat} (s : Session) : Event n → Prop
  | .saveenv .written => CrcOk n s.board.env ∧ (CrcOk n (s.copies.get s.valid) →
      Later (s.copies.get s.valid).flags (s.board.env.flags + 1) s.valid.other)
  | _ => True

lemma relocate_loads_iff (n : Nat) (layout : EnvNand.Layout) (c : Copies) (env e : EnvT)
    (valid slot : Slot) :
    envRelocateSpec n layout c env valid = ⟨e, slot, false⟩ ↔
      selectCopy n c = some slot ∧ c.get slot = e := by
  unfold envRelocateSpec
  cases h : selectCopy n c with
  | none =>
    unfold setDefaultEnv
    split_ifs <;> simp
  | some taken =>
    simp only [Loaded.mk.injEq, Option.some.injEq, and_true]
    constructor
    · rintro ⟨rfl, rfl⟩
      exact ⟨rfl, rfl⟩
    · rintro ⟨rfl, rfl⟩
      exact ⟨rfl, rfl⟩

lemma saveenv_written (s : Session) :
    (saveenv s (.written : Outcome n)).2 =
      { board := { s.board with env := { s.board.env with flags := s.board.env.flags + 1 } },
        valid := s.valid.other,
        copies := s.copies.put s.valid.other
          { s.board.env with flags := s.board.env.flags + 1 },
        lastSaved := some (s.valid.other,
          { s.board.env with flags := s.board.env.flags + 1 }) } := by
  unfold saveenv
  cases s.valid <;> rfl

lemma saveenv_failed (s : Session) (left : EnvT) (bad : ¬ CrcOk n left) :
    (saveenv s (.failed left bad)).2 =
      { s with
        board := { s.board with env := { s.board.env with flags := s.board.env.flags + 1 } },
        copies := s.copies.put s.valid.other left } := by
  unfold saveenv
  cases s.valid <;> rfl

def InUse (s : Session) : Prop := ∀ slot env, s.lastSaved = some (slot, env) → s.valid = slot

lemma step_keeps_iff {s t : Session} {ev : Event cfg.envSize} (inUse : InUse s)
    (loads : LoadsLastSave cfg.envSize layout s) (hstep : step cfg layout s ev = some t) :
    InUse t ∧ (SerialInOrder s ev ↔ LoadsLastSave cfg.envSize layout t) := by
  cases ev with
  | setenv name args =>
    obtain ⟨r, -, rfl⟩ := Option.map_eq_some_iff.mp hstep
    refine ⟨inUse, iff_of_true trivial ?_⟩
    intro slot env hsaved
    have h := loads slot env hsaved
    rw [relocate_loads_iff] at h ⊢
    exact h
  | saveenv outcome =>
    cases hstep
    cases outcome with
    | written =>
      rw [saveenv_written]
      constructor
      · intro slot env hsaved
        exact congrArg Prod.fst (Option.some.inj hsaved)
      · simp only [SerialInOrder, LoadsLastSave, relocate_loads_iff, Option.some.injEq,
          Prod.mk.injEq]
        constructor
        · rintro hok slot env ⟨rfl, rfl⟩
          exact ⟨(selectCopy_put _ _ _ _).mpr hok, Copies.get_put _ _ _⟩
        · intro h
          exact (selectCopy_put _ _ _ _).mp (h _ _ ⟨rfl, rfl⟩).1
    | failed left bad =>
      rw [saveenv_failed]
      refine ⟨inUse, iff_of_true trivial ?_⟩
      intro slot env hsaved
      have hslot := inUse slot env hsaved
      have h := loads slot env hsaved
      rw [relocate_loads_iff] at h ⊢
      obtain ⟨hselect, hget⟩ := h
      subst hslot
      exact ⟨selectCopy_put_bad bad (selectCopy_crcOk hselect),
        (Copies.get_put_other _ _ _).trans hget⟩
  | reboot =>
    cases hstep
    have hloads : LoadsLastSave cfg.envSize layout (reboot cfg.envSize layout s) := by
      intro slot env hsaved
      have h := loads slot env hsaved
      rw [relocate_loads_iff] at h ⊢
      exact h
    refine ⟨fun slot env hsaved => ?_, iff_of_true trivial hloads⟩
    exact congrArg Loaded.valid (loads slot env hsaved)

lemma inUse_powerOn (n : Nat) (layout : EnvNand.Layout) (board : Board) (copies : Copies) :
    InUse (powerOn n layout board copies) := by
  intro slot env hsaved
  cases hsaved

lemma loads_powerOn (n : Nat) (layout : EnvNand.Layout) (board : Board) (copies : Copies) :
    LoadsLastSave n layout (powerOn n layout board copies) := by
  intro slot env hsaved
  cases hsaved

/-- In every state of a run a reboot loads the last successful save, if and only if every
successful save of the run finds its checksum right and its serial in order. -/
theorem reboot_loads_last_save_iff (cfg : Config) (layout : EnvNand.Layout) (board : Board)
    (copies : Copies) (events : List (Event cfg.envSize)) :
    StepsMeet (step cfg layout) SerialInOrder (powerOn cfg.envSize layout board copies) events ↔
      ∀ done todo, events = done ++ todo → ∀ t,
        runFrom (step cfg layout) (powerOn cfg.envSize layout board copies) done = some t →
          LoadsLastSave cfg.envSize layout t := by
  refine stepsMeet_iff InUse ?_ ?_ ?_ (inUse_powerOn _ _ _ _) (loads_powerOn _ _ _ _) events
  · intro s ev _ hstuck
    cases ev with
    | setenv name args => trivial
    | saveenv outcome => cases hstuck
    | reboot => cases hstuck
  · intro s ev t inUse loads hstep
    exact (step_keeps_iff inUse loads hstep).2
  · intro s ev t inUse loads hstep
    exact (step_keeps_iff inUse loads hstep).1

lemma appendDefinition_flags {b : Board} {out : List Message} {name : List UInt8}
    {args : List (List UInt8)} {r : SetResult} (h : appendDefinition cfg b out name args = some r) :
    r.board.env.flags = b.env.flags := by
  unfold appendDefinition at h
  cases args with
  | nil => exact Option.some.inj h ▸ rfl
  | cons v vs =>
    cases hoff : appendOffset cfg.envSize b.env.data with
    | none => simp [hoff] at h
    | some env =>
      simp only [hoff] at h
      split_ifs at h
      · exact Option.some.inj h ▸ rfl
      · rw [← Option.some.inj h, afterSet_env]
        rfl

lemma doSetenv_flags {b : Board} {name : List UInt8} {args : List (List UInt8)} {r : SetResult}
    (h : doSetenv cfg b name args = some r) :
    r.board.env.flags = b.env.flags := by
  unfold doSetenv at h
  by_cases hname : 61 ∈ name
  · rw [if_pos hname] at h
    exact Option.some.inj h ▸ rfl
  simp only [if_neg hname] at h
  cases hfound : search cfg.envSize b.env.data name (cfg.envSize + 1) 0 0 with
  | none => simp [hfound] at h
  | some found =>
    cases hconsole : checkConsole cfg name args with
    | some out =>
      simp only [hfound, hconsole] at h
      exact Option.some.inj h ▸ rfl
    | none =>
      simp only [hfound, hconsole] at h
      by_cases hold : 0 ≤ found.oldval
      · rw [if_pos hold] at h
        cases hcheck : checkDelete cfg name args b.baudrate with
        | error out =>
          simp only [hcheck] at h
          exact Option.some.inj h ▸ rfl
        | ok ok =>
          cases hdel : deleteEntry cfg.envSize b.env.data found.env found.nxt with
          | none => simp [hcheck, hdel] at h
          | some data =>
            simp only [hcheck, hdel] at h
            have hflags := appendDefinition_flags h
            exact hflags
      · rw [if_neg hold] at h
        have hflags := appendDefinition_flags h
        exact hflags

def imageWith (n : Nat) (flags : UInt8) (es : List Entry) : EnvT :=
  envCrcUpdate n ⟨0, flags, ofBytes (image es)⟩

def tornCopy (n : Nat) : EnvT :=
  { imageWith n 0 [] with crc := (imageWith n 0 []).crc + 1 }

lemma imageWith_crcOk (n : Nat) (flags : UInt8) (es : List Entry) :
    CrcOk n (imageWith n flags es) := crcOk_update _ _

lemma tornCopy_bad (n : Nat) : ¬ CrcOk n (tornCopy n) := by
  intro h
  have hsame : (imageWith n 0 []).crc + 1 = (imageWith n 0 []).crc := h
  simp at hsame

lemma selectCopy_put_earlier {slot : Slot} {env : EnvT} (good : CrcOk n (c.get slot))
    (earlier : ¬ Later (c.get slot).flags env.flags slot.other) :
    selectCopy n (c.put slot.other env) = some slot := by
  cases h : selectCopy n (c.put slot.other env) with
  | none =>
    have hbad := selectCopy_none h slot
    rw [Copies.get_put_other] at hbad
    exact absurd good hbad
  | some taken =>
    by_cases htaken : taken = slot
    · rw [htaken]
    have hother : taken = slot.other := by
      cases taken <;> cases slot <;> simp_all [Slot.other]
    rw [hother] at h
    exact absurd (((selectCopy_put n c slot env).mp h).2 good) earlier

lemma failed_save_revives_older (layout : EnvNand.Layout) {b : Board} {valid : Slot}
    {copies : Copies} (crcOk : CrcOk cfg.envSize b.env) (cur : copies.get valid = b.env)
    (serial : b.env.flags = 254) {left : EnvT} (bad : ¬ CrcOk cfg.envSize left) {name : Name}
    {args : List CStr} {r : SetResult}
    (edit : doSetenv cfg { b with env := { b.env with flags := 255 } } name.val (rawArgs args) =
      some r) :
    ∃ t saved, runFrom (step cfg layout) ⟨b, valid, copies, none⟩
        [.saveenv (.failed left bad), .setenv name args, .saveenv .written, .reboot] = some t ∧
      t.lastSaved = some (valid.other, saved) ∧ saved.data = r.board.env.data ∧
      t.valid = valid ∧ t.board.env = b.env := by
  have hflags : b.env.flags + 1 = 255 := by
    rw [serial]
    rfl
  have hafter : r.board.env.flags + 1 = 0 := by
    rw [show r.board.env.flags = 255 from doSetenv_flags edit]
    rfl
  let saved : EnvT := { r.board.env with flags := 0 }
  let copies' := (copies.put valid.other left).put valid.other saved
  have hget : (copies.put valid.other left).get valid = b.env := by
    rw [Copies.get_put_other, cur]
  have hselect : selectCopy cfg.envSize copies' = some valid := by
    apply selectCopy_put_earlier
    · rw [hget]
      exact crcOk
    · rw [hget, serial]
      change ¬ Later 254 0 valid.other
      cases valid <;> decide
  have hloads : envRelocateSpec cfg.envSize layout copies' saved valid.other =
      ⟨b.env, valid, false⟩ := by
    rw [relocate_loads_iff]
    exact ⟨hselect, by rw [Copies.get_put_other, hget]⟩
  refine ⟨⟨{ r.board with env := b.env }, valid, copies', some (valid.other, saved)⟩, saved,
    ?_, rfl, rfl, rfl, rfl⟩
  have hfailed : step cfg layout ⟨b, valid, copies, none⟩ (.saveenv (.failed left bad)) =
      some ⟨{ b with env := { b.env with flags := 255 } }, valid,
        copies.put valid.other left, none⟩ := by
    simp only [step, saveenv_failed, hflags]
  have hedit : step cfg layout ⟨{ b with env := { b.env with flags := 255 } }, valid,
      copies.put valid.other left, none⟩ (.setenv name args) =
      some ⟨r.board, valid, copies.put valid.other left, none⟩ := by
    simp only [step, edit, Option.map_some]
  have hwritten : step cfg layout ⟨r.board, valid, copies.put valid.other left, none⟩
      (.saveenv .written) = some ⟨{ r.board with env := saved }, valid.other, copies',
        some (valid.other, saved)⟩ := by
    simp only [step, saveenv_written, hafter]
    rfl
  have hreboot : step cfg layout ⟨{ r.board with env := saved }, valid.other, copies',
      some (valid.other, saved)⟩ .reboot = some ⟨{ r.board with env := b.env }, valid, copies',
        some (valid.other, saved)⟩ := by
    simp only [step, reboot, hloads]
  rw [runFrom_cons hfailed, runFrom_cons hedit, runFrom_cons hwritten, runFrom_cons hreboot]
  rfl

-- "a=c", which is to replace "a=b"
def changed : Entry := ⟨EnvNand.small.name, ⟨[99], by decide⟩⟩

/-- "a=b" with serial 254 in the first copy, nothing readable in the second. -/
def oldCopies (n : Nat) : Copies := ⟨imageWith n 254 [EnvNand.small], tornCopy n⟩

def coldBoard (n : Nat) : Board := ⟨tornCopy n, 0, 115200, 0, 0, []⟩

lemma oldCopies_selected (n : Nat) : selectCopy n (oldCopies n) = some .one := by
  have h1 : CrcOk n (oldCopies n).one := imageWith_crcOk _ _ _
  have h2 : ¬ CrcOk n (oldCopies n).two := tornCopy_bad _
  simp [selectCopy, h1, h2]

lemma failed_save_revives_older_value (cfg : Config) (layout : EnvNand.Layout)
    (room : 5 ≤ cfg.envSize)
    (fits : effect cfg 115200 [EnvNand.small] changed.name [changed.value] = .stored) :
    ∃ t saved, runFrom (step cfg layout)
        (powerOn cfg.envSize layout (coldBoard cfg.envSize) (oldCopies cfg.envSize))
        [.saveenv (.failed _ (tornCopy_bad _)), .setenv changed.name [changed.value],
          .saveenv .written, .reboot] = some t ∧
      t.lastSaved = some (.two, saved) ∧ Stores cfg.envSize saved.data [changed] ∧
      t.valid = .one ∧ Stores cfg.envSize t.board.env.data [EnvNand.small] := by
  let b : Board := { coldBoard cfg.envSize with env := (oldCopies cfg.envSize).one }
  have hstart : powerOn cfg.envSize layout (coldBoard cfg.envSize) (oldCopies cfg.envSize) =
      ⟨b, .one, oldCopies cfg.envSize, none⟩ := by
    simp only [powerOn, reboot, envRelocateSpec, oldCopies_selected]
    rfl
  have hold : Stores cfg.envSize (oldCopies cfg.envSize).one.data [EnvNand.small] :=
    ⟨holds_ofBytes _, room⟩
  obtain ⟨r, hr, does⟩ := doSetenv_does cfg { b with env := { b.env with flags := 255 } } hold
    changed.name [changed.value]
  obtain ⟨t, saved, hrun, hlast, hdata, hvalid, hback⟩ :=
    failed_save_revives_older layout (b := b)
      (imageWith_crcOk _ _ _) (show (oldCopies cfg.envSize).get .one = b.env from rfl) rfl
      (tornCopy_bad _) hr
  refine ⟨t, saved, by rw [hstart]; exact hrun, hlast, ?_, hvalid, ?_⟩
  · have hstores := does.stores
    rw [show effect cfg b.baudrate [EnvNand.small] changed.name [changed.value] = .stored from
      fits] at hstores
    rw [hdata]
    exact hstores
  · rw [hback]
    exact hold

def redundantBoard : Config := { EnvNand.hyq2440 with envSize := 0x20000 - 5 }

def redundantLayout : EnvNand.Layout := ⟨0x60000, 0x20000, []⟩

/-- The save of "a=c" returned 0, and the reboot comes up with "a=b". -/
theorem reboot_brings_back_replaced_value :
    ∃ t saved, runFrom (step redundantBoard redundantLayout)
        (powerOn redundantBoard.envSize redundantLayout (coldBoard redundantBoard.envSize)
          (oldCopies redundantBoard.envSize))
        [.saveenv (.failed _ (tornCopy_bad _)), .setenv changed.name [changed.value],
          .saveenv .written, .reboot] = some t ∧
      t.lastSaved = some (.two, saved) ∧
      Stores redundantBoard.envSize saved.data [changed] ∧
      t.valid = .one ∧ Stores redundantBoard.envSize t.board.env.data [EnvNand.small] :=
  failed_save_revives_older_value redundantBoard redundantLayout (by decide) (by decide)

/-- The serial in RAM is the one of the copy in use. -/
def InStep (n : Nat) (s : Session) : Prop :=
  CrcOk n (s.copies.get s.valid) → s.board.env.flags = (s.copies.get s.valid).flags

lemma inStep_reboot (n : Nat) (layout : EnvNand.Layout) (s : Session) :
    InStep n (reboot n layout s) := by
  intro hcrc
  cases h : selectCopy n s.copies with
  | none => exact absurd hcrc (selectCopy_none h _)
  | some slot => simp [reboot, envRelocateSpec, h]

/-- No save fails, and each finds the right checksum in RAM. -/
def SavesCleanly {n : Nat} (s : Session) : Event n → Prop
  | .saveenv .written => CrcOk n s.board.env
  | .saveenv (.failed _ _) => False
  | _ => True

lemma inStep_step {s t : Session} {ev : Event cfg.envSize} (h : InStep cfg.envSize s)
    (ok : SavesCleanly s ev) (hstep : step cfg layout s ev = some t) : InStep cfg.envSize t := by
  cases ev with
  | setenv name args =>
    obtain ⟨r, hr, rfl⟩ := Option.map_eq_some_iff.mp hstep
    intro hcrc
    exact (doSetenv_flags hr).trans (h hcrc)
  | saveenv outcome =>
    cases outcome with
    | written =>
      cases hstep
      rw [saveenv_written]
      intro _
      simp
    | failed left bad => exact False.elim ok
  | reboot =>
    cases hstep
    exact inStep_reboot _ _ _

lemma inOrder_of_clean {s : Session} {ev : Event n} (h : InStep n s) (ok : SavesCleanly s ev) :
    SerialInOrder s ev := by
  cases ev with
  | setenv name args => trivial
  | reboot => trivial
  | saveenv outcome =>
    cases outcome with
    | failed left bad => exact False.elim ok
    | written =>
      refine ⟨ok, fun hcrc => ?_⟩
      rw [h hcrc]
      exact later_succ _ _

/-- So it takes a failed save to bring an older copy back. -/
theorem reboot_loads_last_save_without_failures {board : Board} {copies : Copies}
    {events : List (Event cfg.envSize)} (clean : StepsMeet (step cfg layout) SavesCleanly
      (powerOn cfg.envSize layout board copies) events) {t : Session}
    (run : runFrom (step cfg layout) (powerOn cfg.envSize layout board copies) events = some t) :
    LoadsLastSave cfg.envSize layout t := by
  let inv : Session → Prop := fun s =>
    InUse s ∧ LoadsLastSave cfg.envSize layout s ∧ InStep cfg.envSize s
  have hstart : inv (powerOn cfg.envSize layout board copies) :=
    ⟨inUse_powerOn _ _ _ _, loads_powerOn _ _ _ _, inStep_reboot _ _ _⟩
  have hend : inv t := by
    refine invariant_of_arrival ?_ hstart clean run
    rintro s ev u ⟨hinUse, hloads, hinStep⟩ hok hstep
    obtain ⟨hinUse', hkept⟩ := step_keeps_iff hinUse hloads hstep
    exact ⟨hinUse', hkept.mp (inOrder_of_clean hinStep hok), inStep_step hinStep hok hstep⟩
  exact hend.2.1

end RedundantEnv
