import UBoot.Monitor.Bootm

/-!
# The order of the `bootm` sub-commands

When a boot function is called only after a successful start and, for `go`, a successful
loados. The state word is or-ed before the step runs, and it is zero without a start.
-/

namespace Bootm

open Runs

def StartSucceeded : List Event → Prop
  | [] => False
  | e :: log => if e.sub = some .start then e.ret = 0 else StartSucceeded log

def SinceStart (p : Event → Prop) : List Event → Prop
  | [] => False
  | e :: log => e.sub ≠ some .start ∧ (p e ∨ SinceStart p log)

def loadSucceeded (e : Event) : Prop := e.sub = some .loados ∧ e.ret = 0

/-- `bootm_load_os` answers a negative number; a refused loados answers 1. -/
def loadFailed (e : Event) : Prop := e.sub = some .loados ∧ e.ret < 0

/-- `do_bootm_subcommand` would carry the sub-command out. -/
def Accepts (images : Images) (sub : Sub) : Prop := sub = .start ∨ images.state < sub.number

/-- A step that calls only what it may call, and opens nothing by failing. -/
structure InOrder (s : State) (c : Command) : Prop where
  call : ∀ call, (doBootmSubcommand s.images c).call = some call →
    (∃ fn, call.entry = some (some fn)) ∧ StartSucceeded s.log ∧
      (call.flag = .go → SinceStart loadSucceeded s.log)
  failure : ∀ ret, (doBootmSubcommand s.images c).ret = some ret → ret ≠ 0 →
    ∀ later, Accepts (doBootmSubcommand s.images c).images later → Accepts s.images later

def Bootable (c : Command) : Prop :=
  ∃ data len, bootGetKernel c = some (data, len) ∧ len ≠ 0 ∧
    (c.image.os = ihOsLinux → c.ramdisk = true)

structure Guarded (s : State) (c : Command) : Prop where
  call : ∀ sub, c.sub = some sub → sub.callsOs = true → s.images.state < sub.number →
    (∃ fn, bootOs[s.images.os.os]? = some (some fn)) ∧ s.images.state % 2 = 1 ∧
      (sub = .go → s.images.state / 2 % 2 = 1 ∧ ¬ SinceStart loadFailed s.log)
  start : c.sub = some .start → ¬ Bootable c → s.images.state < 2

variable {e : Event} {s : State} {images : Images} {sub : Sub}

structure Tracks (s : State) : Prop where
  started : s.images.state % 2 = 1 ↔ StartSucceeded s.log
  loaded : s.images.state / 2 % 2 = 1 ↔
    SinceStart loadSucceeded s.log ∨ SinceStart loadFailed s.log
  once : ¬ (SinceStart loadSucceeded s.log ∧ SinceStart loadFailed s.log)

lemma sinceStart_start {p : Event → Prop} (start : e.sub = some .start) (log : List Event) :
    ¬ SinceStart p (e :: log) := fun h => h.1 start

lemma sinceStart_other {p : Event → Prop} (other : e.sub ≠ some .start) (log : List Event) :
    SinceStart p (e :: log) ↔ p e ∨ SinceStart p log :=
  ⟨fun h => h.2, fun h => ⟨other, h⟩⟩

lemma startSucceeded_other (other : e.sub ≠ some .start) (log : List Event) :
    StartSucceeded (e :: log) ↔ StartSucceeded log := by
  rw [StartSucceeded, if_neg other]

lemma Tracks.unchanged (h : Tracks s) (other : e.sub ≠ some .start) (notLoaded : ¬ loadSucceeded e)
    (notFailed : ¬ loadFailed e) (started : images.state % 2 = s.images.state % 2)
    (loaded : images.state / 2 % 2 = s.images.state / 2 % 2) : Tracks ⟨images, e :: s.log⟩ := by
  constructor
  · rw [startSucceeded_other other, started]
    exact h.started
  · rw [sinceStart_other other, sinceStart_other other, loaded]
    simpa only [notLoaded, notFailed, false_or] using h.loaded
  · rw [sinceStart_other other, sinceStart_other other]
    simpa only [notLoaded, notFailed, false_or] using h.once

lemma or_number {n : Nat} (low : n < sub.number) :
    n ||| sub.number = n + sub.number := by
  have power : ∃ k, sub.number = 2 ^ k := by
    cases sub
    · exact ⟨0, rfl⟩
    · exact ⟨1, rfl⟩
    · exact ⟨4, rfl⟩
    · exact ⟨5, rfl⟩
    · exact ⟨6, rfl⟩
    · exact ⟨7, rfl⟩
  obtain ⟨k, hk⟩ := power
  rw [hk] at low ⊢
  have sum := Nat.two_pow_add_eq_or_of_lt low 1
  rw [Nat.mul_one] at sum
  rw [Nat.or_comm, ← sum, Nat.add_comm]

lemma number_callsOs (calls : sub.callsOs = true) : ∃ m, sub.number = 4 * m := by
  cases sub
  · cases calls
  · cases calls
  · exact ⟨4, rfl⟩
  · exact ⟨8, rfl⟩
  · exact ⟨16, rfl⟩
  · exact ⟨32, rfl⟩

variable {c : Command}

lemma bootmStart_state (c : Command) :
    (bootmStart c).1 = 0 ∧ (bootmStart c).2.state = 1 ∧ Bootable c ∨
      (bootmStart c).1 = 1 ∧ (bootmStart c).2.state = 0 ∧ ¬ Bootable c := by
  rw [bootmStart]
  cases found : bootGetKernel c with
  | none =>
    apply Or.inr
    refine ⟨rfl, rfl, ?_⟩
    rintro ⟨data, len, other, -⟩
    rw [found] at other
    cases other
  | some place =>
    obtain ⟨data, len⟩ := place
    dsimp only
    by_cases empty : len = 0
    · rw [if_pos empty]
      apply Or.inr
      refine ⟨rfl, rfl, ?_⟩
      rintro ⟨data', len', other, some_bytes, -⟩
      rw [found] at other
      cases other
      exact some_bytes empty
    rw [if_neg empty]
    by_cases ramdisk : c.image.os = ihOsLinux ∧ c.ramdisk = false
    · rw [if_pos ramdisk]
      apply Or.inr
      refine ⟨rfl, rfl, ?_⟩
      rintro ⟨_, _, _, _, ready⟩
      rw [ready ramdisk.1] at ramdisk
      exact Bool.noConfusion ramdisk.2
    · rw [if_neg ramdisk]
      apply Or.inl
      refine ⟨rfl, rfl, data, len, found, empty, ?_⟩
      intro linux
      apply Classical.byContradiction
      intro missing
      exact ramdisk ⟨linux, Bool.eq_false_iff.mpr missing⟩

lemma bootmLoadOs_ret (os : ImageInfo) (gunzip : Option UInt32) : bootmLoadOs os gunzip ≤ 0 := by
  simp only [bootmLoadOs]
  split
  · rename_i e failed
    split at failed
    · cases failed
    split at failed
    · split at failed
      · cases failed
        decide
      · cases failed
    · cases failed
      decide
  · split
    · decide
    · decide

lemma command_unknown (h : c.sub = none) :
    doBootmSubcommand images c = ⟨images, none, some 1⟩ := by
  simp only [doBootmSubcommand, h]

lemma command_start (h : c.sub = some .start) :
    doBootmSubcommand images c = ⟨(bootmStart c).2, none, some (bootmStart c).1⟩ := by
  simp only [doBootmSubcommand, h, if_true]

lemma command_refused (h : c.sub = some sub) (other : sub ≠ .start)
    (high : sub.number ≤ images.state) :
    doBootmSubcommand images c = ⟨images, none, some 1⟩ := by
  simp only [doBootmSubcommand, h, if_neg other, if_pos high]

lemma command_loados (h : c.sub = some .loados) (low : images.state < 2) :
    doBootmSubcommand images c =
      ⟨{ images with state := images.state + 2 }, none,
        some (bootmLoadOs images.os c.gunzip)⟩ := by
  have accepted : ¬ Sub.loados.number ≤ images.state := Nat.not_le.mpr low
  have word : images.state ||| Sub.loados.number = images.state + 2 := or_number low
  simp only [doBootmSubcommand, h, if_neg accepted, word, if_true]
  rfl

lemma command_os (h : c.sub = some sub) (calls : sub.callsOs = true)
    (low : images.state < sub.number) :
    ∃ ret, doBootmSubcommand images c =
      ⟨{ images with state := images.state + sub.number }, some ⟨sub, bootOs[images.os.os]?⟩,
        ret⟩ := by
  have notStart : sub ≠ .start := by
    rintro rfl
    cases calls
  have notLoad : sub ≠ .loados := by
    rintro rfl
    cases calls
  simp only [doBootmSubcommand, h, if_neg notStart, if_neg notLoad, if_neg (Nat.not_le.mpr low),
    or_number low]
  split
  · exact ⟨_, rfl⟩
  · exact ⟨_, rfl⟩

lemma tracks_init : Tracks init := by
  refine ⟨?_, ?_, fun h => h.1⟩
  · exact ⟨fun h => absurd h (by decide), fun h => h.elim⟩
  · refine ⟨fun h => absurd h (by decide), ?_⟩
    rintro (h | h)
    · exact h.elim
    · exact h.elim

lemma Tracks.loados (h : Tracks s) (low : s.images.state < 2) {ret : Int} (answer : ret ≤ 0) :
    Tracks ⟨{ s.images with state := s.images.state + 2 }, ⟨some .loados, ret⟩ :: s.log⟩ := by
  have other : (⟨some .loados, ret⟩ : Event).sub ≠ some .start := by
    intro same
    cases same
  have none_before : ¬ (SinceStart loadSucceeded s.log ∨ SinceStart loadFailed s.log) := by
    intro before
    have bit := h.loaded.mpr before
    omega
  obtain ⟨no_success, no_failure⟩ := not_or.mp none_before
  constructor
  · rw [startSucceeded_other other, ← h.started]
    dsimp only
    omega
  · rw [sinceStart_other other, sinceStart_other other]
    simp only [no_success, no_failure, or_false, loadSucceeded, loadFailed, true_and]
    omega
  · rw [sinceStart_other other, sinceStart_other other]
    simp only [no_success, no_failure, or_false, loadSucceeded, loadFailed, true_and]
    omega

lemma step_eq {t : State} (h : step s c = some t) :
    ∃ ret, (doBootmSubcommand s.images c).ret = some ret ∧
      t = ⟨(doBootmSubcommand s.images c).images, ⟨c.sub, ret⟩ :: s.log⟩ := by
  rw [step] at h
  cases hret : (doBootmSubcommand s.images c).ret with
  | none => simp [hret] at h
  | some ret =>
    simp only [hret] at h
    exact ⟨ret, rfl, (Option.some.inj h).symm⟩

lemma step_tracks (s : State) (c : Command) (t : State) (tracks : Tracks s)
    (h : step s c = some t) : Tracks t := by
  obtain ⟨ret, hret, rfl⟩ := step_eq h
  cases hsub : c.sub with
  | none =>
    rw [command_unknown hsub] at hret ⊢
    exact tracks.unchanged (fun h => by cases h) (fun h => by cases h.1) (fun h => by cases h.1)
      rfl rfl
  | some sub =>
    by_cases isStart : sub = .start
    · subst isStart
      rw [command_start hsub] at hret ⊢
      cases hret
      have fresh : ∀ p : Event → Prop,
          ¬ SinceStart p (⟨some .start, (bootmStart c).1⟩ :: s.log) :=
        fun p => sinceStart_start rfl s.log
      rcases bootmStart_state c with ⟨ok, word, -⟩ | ⟨failed, word, -⟩
      · refine ⟨?_, ?_, fun h => fresh _ h.1⟩
        · simp [StartSucceeded, word, ok]
        · simp [word, fresh]
      · refine ⟨?_, ?_, fun h => fresh _ h.1⟩
        · simp [StartSucceeded, word, failed]
        · simp [word, fresh]
    have other : (⟨some sub, ret⟩ : Event).sub ≠ some .start := by
      intro same
      exact isStart (Option.some.inj same)
    by_cases refused : sub.number ≤ s.images.state
    · rw [command_refused hsub isStart refused] at hret ⊢
      cases hret
      exact tracks.unchanged other (fun h => by cases h.2) (fun h => by cases h.2) rfl rfl
    have low := Nat.not_le.mp refused
    by_cases isLoad : sub = .loados
    · subst isLoad
      rw [command_loados hsub low] at hret ⊢
      cases hret
      exact tracks.loados low (bootmLoadOs_ret _ _)
    have calls : sub.callsOs = true := by
      cases sub
      · exact absurd rfl isStart
      · exact absurd rfl isLoad
      · rfl
      · rfl
      · rfl
      · rfl
    obtain ⟨ret', hcommand⟩ := command_os hsub calls low
    obtain ⟨m, hm⟩ := number_callsOs calls
    rw [hcommand]
    have notLoad : (⟨some sub, ret⟩ : Event).sub ≠ some .loados := by
      intro same
      exact isLoad (Option.some.inj same)
    refine tracks.unchanged other (fun h => notLoad h.1) (fun h => notLoad h.1) ?_ ?_
    · dsimp only
      omega
    · dsimp only
      omega

lemma inOrder_of_quiet {ret : Option Int} (h : doBootmSubcommand s.images c = ⟨images, none, ret⟩)
    (grows : s.images.state ≤ images.state) : InOrder s c := by
  constructor
  · intro call hcall
    rw [h] at hcall
    cases hcall
  · intro _ _ _ later accepts
    rw [h] at accepts
    rcases accepts with isStart | low
    · exact .inl isStart
    · exact .inr (Nat.lt_of_le_of_lt grows low)

lemma guarded_of_quiet (notStart : c.sub ≠ some .start)
    (quiet : ∀ sub, c.sub = some sub → sub.callsOs = true → ¬ s.images.state < sub.number) :
    Guarded s c :=
  ⟨fun sub h calls low => absurd low (quiet sub h calls), fun h => absurd h notStart⟩

lemma inOrder_start (hsub : c.sub = some .start) :
    InOrder s c ↔ Guarded s c := by
  have command : doBootmSubcommand s.images c =
      ⟨(bootmStart c).2, none, some (bootmStart c).1⟩ := command_start hsub
  constructor
  · intro order
    refine ⟨fun sub h calls => ?_, fun _ notBootable => ?_⟩
    · obtain rfl := Option.some.inj (hsub.symm.trans h)
      cases calls
    · rcases bootmStart_state c with ⟨-, -, bootable⟩ | ⟨failed, word, -⟩
      · exact absurd bootable notBootable
      have opened := order.failure 1 (by rw [command, failed]) (by decide) .loados
      rw [command] at opened
      rcases opened (.inr (by rw [word]; decide)) with h | low
      · cases h
      · exact low
  · intro guarded
    constructor
    · intro call hcall
      rw [command] at hcall
      cases hcall
    · intro ret hret failed later _
      rw [command] at hret
      cases hret
      rcases bootmStart_state c with ⟨ok, -, -⟩ | ⟨-, -, notBootable⟩
      · exact absurd ok failed
      have low := guarded.start hsub notBootable
      cases later
      · exact .inl rfl
      all_goals exact .inr (by rw [Sub.number]; omega)

lemma inOrder_os (tracks : Tracks s) (hsub : c.sub = some sub) (calls : sub.callsOs = true)
    (low : s.images.state < sub.number) :
    InOrder s c ↔ Guarded s c := by
  obtain ⟨ret, command⟩ := command_os hsub calls low
  have load : SinceStart loadSucceeded s.log ↔
      s.images.state / 2 % 2 = 1 ∧ ¬ SinceStart loadFailed s.log := by
    rw [tracks.loaded]
    constructor
    · intro loaded
      exact ⟨.inl loaded, fun failed => tracks.once ⟨loaded, failed⟩⟩
    · rintro ⟨loaded | failed, noFailure⟩
      · exact loaded
      · exact absurd failed noFailure
  constructor
  · intro order
    refine ⟨fun other h _ _ => ?_, fun h => ?_⟩
    · obtain rfl := Option.some.inj (hsub.symm.trans h)
      obtain ⟨entry, started, loaded⟩ := order.call _ (by rw [command])
      exact ⟨entry, tracks.started.mpr started, fun go => load.mp (loaded go)⟩
    · rw [hsub] at h
      cases h
      cases calls
  · intro guarded
    constructor
    · intro call hcall
      rw [command] at hcall
      cases hcall
      obtain ⟨entry, started, loaded⟩ := guarded.call sub hsub calls low
      exact ⟨entry, tracks.started.mp started, fun go => load.mpr (loaded go)⟩
    · intro _ _ _ later accepts
      rw [command] at accepts
      rcases accepts with isStart | fits
      · exact .inl isStart
      · exact .inr (Nat.lt_of_le_of_lt (Nat.le_add_right _ _) fits)

lemma inOrder_iff (s : State) (c : Command) (tracks : Tracks s) : InOrder s c ↔ Guarded s c := by
  cases hsub : c.sub with
  | none =>
    have notStart : c.sub ≠ some .start := by simp [hsub]
    have guarded : Guarded s c := guarded_of_quiet notStart fun sub h => by simp [hsub] at h
    exact iff_of_true (inOrder_of_quiet (command_unknown hsub) (Nat.le_refl _)) guarded
  | some sub =>
    by_cases isStart : sub = .start
    · subst isStart
      exact inOrder_start hsub
    have notStart : c.sub ≠ some .start := by simp [hsub, isStart]
    by_cases refused : sub.number ≤ s.images.state
    · refine iff_of_true (inOrder_of_quiet (command_refused hsub isStart refused)
        (Nat.le_refl _)) (guarded_of_quiet notStart ?_)
      intro other h _
      obtain rfl := Option.some.inj (hsub.symm.trans h)
      exact Nat.not_lt.mpr refused
    have low := Nat.not_le.mp refused
    by_cases calls : sub.callsOs = true
    · exact inOrder_os tracks hsub calls low
    have isLoad : sub = .loados := by
      cases sub
      · exact absurd rfl isStart
      · rfl
      all_goals exact absurd rfl calls
    subst isLoad
    refine iff_of_true (inOrder_of_quiet (command_loados hsub low) (Nat.le_add_right _ _))
      (guarded_of_quiet notStart ?_)
    intro other h callsOther
    obtain rfl := Option.some.inj (hsub.symm.trans h)
    cases callsOther

/-- Every step of a run of sub-commands is in order exactly as long as every step is guarded. -/
theorem subcommands_in_order_iff (commands : List Command) :
    StepsMeet step InOrder init commands ↔ StepsMeet step Guarded init commands :=
  stepsMeet_congr step_tracks inOrder_iff tracks_init commands

def linuxImage : Image :=
  { address := 0x32000000, magic := true, headerCrc := true, dataCrc := true, arch := true,
    type := ihTypeKernel, comp := ihCompNone, os := ihOsLinux, load := 0x30008000,
    imageEnd := 0x32200000, data := 0x32000040, dataLen := 0x1fffc0, firstData := 0,
    firstLen := 0 }

def command (sub : Sub) (image : Image) : Command :=
  { sub := some sub, image := image, verify := true, load := none, ramdisk := true, gunzip := none }

/-- `bootm go` as the first command calls through a null pointer; after a start, `bootm go`
boots without a loados; and a start that fails makes a loados acceptable that was not. -/
theorem go_without_start :
    (doBootmSubcommand init.images (command .go linuxImage)).call = some ⟨.go, some none⟩ ∧
      ¬ InOrder init (command .go linuxImage) ∧
      (∃ s, runFrom step init [command .start linuxImage] = some s ∧
        (doBootmSubcommand s.images (command .go linuxImage)).call =
          some ⟨.go, some (some .linux)⟩ ∧ ¬ InOrder s (command .go linuxImage)) ∧
      ¬ StepsMeet step InOrder init [command .start linuxImage, command .loados linuxImage,
        command .start { linuxImage with magic := false }] := by
  refine ⟨rfl, ?_, ⟨_, rfl, rfl, ?_⟩, ?_⟩
  · intro order
    obtain ⟨fn, entry⟩ := (order.call _ rfl).1
    cases entry
  · intro order
    have loaded := (order.call _ rfl).2.2 rfl
    exact loaded.1 rfl
  · rintro ⟨-, after_start⟩
    obtain ⟨-, after_load⟩ := after_start _ rfl
    obtain ⟨order, -⟩ := after_load _ rfl
    rcases order.failure 1 rfl (by decide) .loados (Or.inr (by decide)) with isStart | low
    · cases isStart
    · exact absurd low (by decide)

end Bootm
