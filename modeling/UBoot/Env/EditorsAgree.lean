import Mathlib.Data.List.TakeWhile
import UBoot.Env.FwSetEnv

/-!
# U-Boot and the Linux tool edit the same area

The same commands go to `_do_setenv`, which works on the copy in RAM, and to
`fw_setenv`, which works on the flash. The entries and what a read returns stay the
same on both sides as long as no definition is deleted for one that does not fit.
-/

namespace EditorsAgree

open ByteMemory EnvArea SetEnv AreaScan SetEnvSpec EnvMap Runs
open FwSetEnv (Tool Flash fwSetenv fwGetenv currentCopy ReadsBack fwEffect)

/-- The strings up to and including the double NUL. -/
def liveContents (n : Nat) (d : Mem) : Option (List UInt8) :=
  (findEnd d (n - 1) 0).map (fun env => slice d 0 (env + 2))

variable {es fs : List Entry} {n : Nat} {d : Mem}

lemma split_at_stop {c : UInt8} {t u x y : List UInt8} (ht : c ∉ t) (hu : c ∉ u)
    (same : t ++ c :: x = u ++ c :: y) : t = u ∧ x = y := by
  induction t generalizing u with
  | nil =>
    cases u with
    | nil => exact ⟨rfl, (List.cons.inj same).2⟩
    | cons b u =>
      obtain ⟨rfl, -⟩ := List.cons.inj same
      exact absurd List.mem_cons_self hu
  | cons a t ih =>
    cases u with
    | nil =>
      obtain ⟨rfl, -⟩ := List.cons.inj same
      exact absurd List.mem_cons_self ht
    | cons b u =>
      obtain ⟨rfl, hrest⟩ := List.cons.inj same
      obtain ⟨rfl, hxy⟩ := ih (fun h => ht (List.mem_cons_of_mem _ h))
        (fun h => hu (List.mem_cons_of_mem _ h)) hrest
      exact ⟨rfl, hxy⟩

lemma text_injective {e f : Entry} (same : e.text = f.text) : e = f := by
  obtain ⟨hname, hvalue⟩ := split_at_stop e.name.property.2 f.name.property.2 same
  cases e
  cases f
  simp only [Entry.mk.injEq]
  exact ⟨Subtype.ext hname, Subtype.ext hvalue⟩

lemma packed_injective {x y : List UInt8} (same : packed es ++ 0 :: x = packed fs ++ 0 :: y) :
    es = fs := by
  -- a list that goes on starts with a name, not with a NUL
  have starts : ∀ (e : Entry) (es : List Entry) (x y : List UInt8),
      packed (e :: es) ++ x ≠ 0 :: y := by
    intro e es x y h
    obtain ⟨c, t, ht⟩ := List.exists_cons_of_ne_nil e.text_ne_nil
    rw [packed_cons, ht] at h
    obtain ⟨rfl, -⟩ := List.cons.inj h
    exact e.text_no_nul (ht ▸ List.mem_cons_self)
  induction es generalizing fs with
  | nil =>
    cases fs with
    | nil => rfl
    | cons f fs => exact absurd same.symm (starts f fs _ _)
  | cons e es ih =>
    cases fs with
    | nil => exact absurd same (starts e es _ _)
    | cons f fs =>
      rw [packed_cons, packed_cons, List.append_assoc, List.append_assoc] at same
      obtain ⟨htext, hrest⟩ := split_at_stop e.text_no_nul f.text_no_nul same
      rw [text_injective htext, ih hrest]

lemma image_injective (same : image es = image fs) : es = fs := by
  obtain ⟨x, hx⟩ := closing_eq_cons es
  obtain ⟨y, hy⟩ := closing_eq_cons fs
  rw [image, image, hx, hy] at same
  exact packed_injective same

lemma liveContents_of_stores (h : Stores n d es) :
    liveContents n d = some (image es) := by
  have happ := appendOffset_of_stores h
  have hslice := slice_of_holds h.1
  rw [appendOffset] at happ
  cases hend : findEnd d (n - 1) 0 with
  | none => simp [hend] at happ
  | some env =>
    simp only [hend, Option.some.injEq] at happ
    have hlen : (image es).length = env + 2 := by
      by_cases hused : 0 < used es
      · rw [FwSetEnv.image_length hused, ← happ]
        split_ifs at happ ⊢ with hpos
        · omega
        · omega
      cases es with
      | nil =>
        split_ifs at happ with hpos
        · simp at happ
        · simp [image, closing]
          omega
      | cons e es =>
        rw [used_cons] at hused
        simp only [Entry.size] at hused
        omega
    rw [liveContents, hend, Option.map_some, ← hlen, hslice]

lemma same_entries {d' : Mem} (h : Stores n d es) (h' : Stores n d' fs)
    (same : liveContents n d = liveContents n d') : es = fs := by
  rw [liveContents_of_stores h, liveContents_of_stores h'] at same
  exact image_injective (Option.some.inj same)

variable {rest : List UInt8} {a : Nat} {tool : Tool}

/-- What both copies of `envmatch` compare: the text up to an '='. -/
def nameOf (s : CStr) : Name :=
  ⟨s.val.takeWhile (· ≠ 61), fun h => s.property (List.takeWhile_subset _ h),
    fun h => by simpa using List.mem_takeWhile_imp h⟩

lemma envmatch_past_equals {s m : List UInt8} (hm0 : (0 : UInt8) ∉ m) (hm : (61 : UInt8) ∉ m)
    (held : Holds d a (m ++ 61 :: rest)) :
    envmatch d s a = envmatch d (s.takeWhile (· ≠ 61)) a := by
  induction s generalizing m a with
  | nil => rfl
  | cons c s ih =>
    by_cases hc : c = 61
    · subst hc
      cases m with
      | nil =>
        have ha : d a = 61 := held.1
        simp [envmatch, ha]
      | cons x m =>
        have ha : d a = x := held.1
        have h0 : x ≠ 0 := fun h => hm0 (h ▸ List.mem_cons_self)
        have h61 : x ≠ 61 := fun h => hm (h ▸ List.mem_cons_self)
        simp [envmatch, ha, h0, h61, h61.symm]
    · rw [List.takeWhile_cons_of_pos (by simpa using hc)]
      simp only [envmatch, if_neg hc]
      cases m with
      | nil =>
        have ha : d a = 61 := held.1
        rw [if_neg (by rw [ha]; exact hc), if_neg (by rw [ha]; exact hc)]
      | cons x m =>
        rw [ih (fun h => hm0 (List.mem_cons_of_mem _ h)) (fun h => hm (List.mem_cons_of_mem _ h))
          held.2]

lemma envmatch_nameOf {e : Entry} (s : CStr) (held : Holds d a (e.text ++ rest)) :
    envmatch d s.val a = envmatch d (nameOf s).val a := by
  apply envmatch_past_equals e.name.property.1 e.name.property.2
  simpa [Entry.text] using held

lemma fw_envmatch_nameOf {e : Entry} (s : CStr) (held : Holds d a (e.text ++ rest)) :
    FwSetEnv.envmatch d s.val a = FwSetEnv.envmatch d (nameOf s).val a := by
  have same := envmatch_nameOf s held
  rw [FwSetEnv.envmatch_eq, FwSetEnv.envmatch_eq] at same
  refine Option.map_injective ?_ same
  intro x y hxy
  cases x <;> cases y <;> simp only at hxy
  · rfl
  · omega
  · omega
  · congr 1
    omega

lemma getenvLoop_nameOf {header : Nat} {tail : List UInt8} (s : CStr) (fuel : Nat)
    (held : Holds d a (packed es ++ 0 :: tail)) (room : a + used es < n) :
    getenvLoop n header d s.val fuel a = getenvLoop n header d (nameOf s).val fuel a := by
  induction es generalizing fuel a with
  | nil =>
    have ha : d a = 0 := held.1
    cases fuel <;> simp [getenvLoop, ha]
  | cons e es ih =>
    obtain ⟨hentry, hrest⟩ := holds_entry held
    have hsize := e.text_length
    rw [used_cons] at room
    have hskip := getenvSkip_text (n + header - a) hentry e.text_no_nul (by omega)
    cases fuel with
    | zero => rfl
    | succ fuel =>
      rw [getenvLoop, getenvLoop, hskip, envmatch_nameOf s hentry]
      have hnext := ih fuel hrest (by omega)
      rw [← hsize, ← add_assoc] at hnext
      simp only [hnext]

lemma search_nameOf {tail : List UInt8} (s : CStr) (fuel : Nat)
    (held : Holds d a (packed es ++ 0 :: tail)) (room : a + used es < n) :
    FwSetEnv.search n d s.val fuel a = FwSetEnv.search n d (nameOf s).val fuel a := by
  induction es generalizing fuel a with
  | nil =>
    have ha : d a = 0 := held.1
    cases fuel <;> simp [FwSetEnv.search, ha]
  | cons e es ih =>
    obtain ⟨hentry, hrest⟩ := holds_entry held
    have hsize := e.text_length
    rw [used_cons] at room
    have hskip := getenvSkip_text (n - a) hentry e.text_no_nul (by omega)
    cases fuel with
    | zero => rfl
    | succ fuel =>
      rw [FwSetEnv.search, FwSetEnv.search, hskip, fw_envmatch_nameOf s hentry]
      have hnext := ih fuel hrest (by omega)
      rw [← hsize, ← add_assoc] at hnext
      simp only [hnext]

lemma getenv_every_name (h : Stores n d es) (header : Nat) (s : CStr) :
    getenv n header d s.val = some ((lookup es (nameOf s)).map Subtype.val) := by
  obtain ⟨tail, htail⟩ := closing_eq_cons es
  have held : Holds d 0 (packed es ++ 0 :: tail) := htail ▸ h.1
  have hlt := used_lt_of_stores h
  rw [← getenv_of_stores h header, getenv, getenvLoop_nameOf s _ held (by omega)]
  rfl

lemma fwGetenv_every_name {flash : Flash}
    (h : Stores n (FwSetEnv.envInit tool n flash).image.data es) (s : CStr) :
    fwGetenv tool n flash s.val = some ((lookup es (nameOf s)).map Subtype.val) := by
  obtain ⟨tail, htail⟩ := closing_eq_cons es
  have held : Holds (FwSetEnv.envInit tool n flash).image.data 0 (packed es ++ 0 :: tail) :=
    htail ▸ h.1
  have hlt := used_lt_of_stores h
  rw [← FwSetEnv.fwGetenv_of_stores h, fwGetenv, search_nameOf s _ held (by omega)]
  rfl

/-- A command for either program; the names with a console file or the baud rate behind them are
left out. -/
structure Command where
  name : Name
  args : List CStr
  named : name.val ≠ []
  plain : name.val ∉ [stdinName, stdoutName, stderrName, baudrateName]

structure Editors where
  board : Board
  flash : Flash

variable {s : Editors}

def step (tool : Tool) (cfg : Config) (s : Editors) (c : Command) : Option Editors :=
  match doSetenv cfg s.board c.name.val (rawArgs c.args) with
  | none => none
  | some r => match fwSetenv tool cfg.envSize s.flash c.name.val (rawArgs c.args) with
    | none => none
    | some w => some ⟨r.board, w.flash⟩

/-- Byte-identical live contents, right checksums in RAM and on the flash, and the same answer to
every name. -/
structure Agree (tool : Tool) (n header : Nat) (s : Editors) : Prop where
  live : liveContents n s.board.env.data = liveContents n (currentCopy tool n s.flash).data
  terminated : (liveContents n s.board.env.data).isSome
  boardCrc : CrcOk n s.board.env
  flashCrc : CrcOk n (currentCopy tool n s.flash)
  reads : ∀ name : CStr, getenv n header s.board.env.data name.val =
    fwGetenv tool n s.flash name.val

/-- The command does not delete a definition for one that does not fit, and what it writes is
what the tool reads next, unless the entries are the same before and after. -/
def Safe (tool : Tool) (n : Nat) (s : Editors) (c : Command) : Prop :=
  ∀ es, Stores n s.board.env.data es →
    match fwEffect n es c.name c.args with
    | .refused => True
    | .overflowed => ¬ Defines es c.name
    | eff => ReadsBack tool n s.flash ∨ entriesAfter es c.name c.args eff = es

lemma effect_of_plain (cfg : Config) (baud : UInt32) (es : List Entry) (c : Command) :
    effect cfg baud es c.name c.args = fwEffect cfg.envSize es c.name c.args := by
  have hplain := c.plain
  simp only [List.mem_cons, List.not_mem_nil, or_false, not_or] at hplain
  obtain ⟨hin, hout, herr, hbaud⟩ := hplain
  have hconsole : checkConsole cfg c.name.val (rawArgs c.args) = none := by
    simp [checkConsole, consoleFile, hin, hout, herr]
  have hdelete : checkDelete cfg c.name.val (rawArgs c.args) baud =
      if c.name.val = serialName ∨ c.name.val = ethaddrName then
        .error [.cantOverwrite c.name.val] else .ok ([], baud) := by
    simp only [checkDelete, if_neg hbaud]
  have hrefusal : (refusal cfg baud es c.name c.args).isSome ↔
      Defines es c.name ∧ (c.name.val = ethaddrName ∨ c.name.val = serialName) := by
    simp only [refusal, hconsole, hdelete]
    split_ifs with hdef hread
    · simp [hdef, hread.symm]
    · rw [not_or] at hread
      simp [hdef, hread.1, hread.2]
    · simp [hdef]
  simp only [effect, fwEffect, hrefusal]

/-- What both programs keep, whatever the commands: areas that can be read. -/
structure Sound (tool : Tool) (n : Nat) (s : Editors) : Prop where
  board : ∃ es, Stores n s.board.env.data es
  flash : ∃ fs, Stores n (currentCopy tool n s.flash).data fs
  flashCrc : CrcOk n (currentCopy tool n s.flash)

lemma agree_iff (header : Nat) (board : Stores n s.board.env.data es)
    (flash : Stores n (currentCopy tool n s.flash).data fs)
    (flashCrc : CrcOk n (currentCopy tool n s.flash)) :
    Agree tool n header s ↔ es = fs ∧ CrcOk n s.board.env := by
  constructor
  · intro agree
    exact ⟨same_entries board flash agree.live, agree.boardCrc⟩
  · rintro ⟨rfl, crcOk⟩
    have hinit := FwSetEnv.envInit_readable flashCrc
    refine ⟨?_, ?_, crcOk, flashCrc, fun name => ?_⟩
    · rw [liveContents_of_stores board, liveContents_of_stores flash]
    · rw [liveContents_of_stores board]
      rfl
    · rw [getenv_every_name board, fwGetenv_every_name (by rw [hinit]; exact flash)]

lemma step_does {cfg : Config} (board : Stores cfg.envSize s.board.env.data es)
    (flash : Stores cfg.envSize (currentCopy tool cfg.envSize s.flash).data fs)
    (flashCrc : CrcOk cfg.envSize (currentCopy tool cfg.envSize s.flash)) (c : Command) :
    ∃ r w, step tool cfg s c = some ⟨r.board, w.flash⟩ ∧
      Does cfg s.board es c.name c.args (fwEffect cfg.envSize es c.name c.args) r ∧
      FwSetEnv.FwDoes tool cfg.envSize s.flash fs c.name c.args
        (fwEffect cfg.envSize fs c.name c.args) w := by
  obtain ⟨r, hr, does⟩ := doSetenv_does cfg s.board board c.name c.args
  obtain ⟨w, hw, fwDoes⟩ := FwSetEnv.fwSetenv_does flash flashCrc c.name c.args
  rw [effect_of_plain] at does
  refine ⟨r, w, ?_, does, fwDoes⟩
  simp only [step, hr, hw]

lemma sound_step {cfg : Config} (h : Sound tool cfg.envSize s) (c : Command) :
    ∃ t, step tool cfg s c = some t ∧ Sound tool cfg.envSize t := by
  obtain ⟨es, hboard⟩ := h.board
  obtain ⟨fs, hflash⟩ := h.flash
  obtain ⟨r, w, hstep, does, fwDoes⟩ := step_does hboard hflash h.flashCrc c
  obtain ⟨gs, hgs, -⟩ := fwDoes.settles
  exact ⟨_, hstep, ⟨_, does.stores⟩, ⟨gs, hgs⟩, fwDoes.crcOk⟩

lemma erase_ne {name : Name} (h : Defines es name) : erase es name ≠ es := by
  obtain ⟨pre, e, post, hes, -, -, herase⟩ := split_at_first h
  intro same
  have hlen := congrArg List.length (herase.symm.trans (same.trans hes))
  simp at hlen

lemma step_agrees_iff {cfg : Config} (header : Nat) {t : Editors} {c : Command}
    (sound : Sound tool cfg.envSize s) (agree : Agree tool cfg.envSize header s)
    (hstep : step tool cfg s c = some t) :
    Safe tool cfg.envSize s c ↔ Agree tool cfg.envSize header t := by
  obtain ⟨es, hboard⟩ := sound.board
  obtain ⟨fs, hflash⟩ := sound.flash
  obtain ⟨rfl, hcrc⟩ := (agree_iff header hboard hflash sound.flashCrc).mp agree
  obtain ⟨r, w, hstep', does, fwDoes⟩ := step_does hboard hflash sound.flashCrc c
  obtain rfl := Option.some.inj (hstep'.symm.trans hstep)
  obtain ⟨gs, hgs, settles⟩ := fwDoes.settles
  -- the area has one list of entries, so `Safe` speaks about this one
  have hsafe : Safe tool cfg.envSize s c ↔
      match fwEffect cfg.envSize es c.name c.args with
      | .refused => True
      | .overflowed => ¬ Defines es c.name
      | eff => ReadsBack tool cfg.envSize s.flash ∨ entriesAfter es c.name c.args eff = es := by
    constructor
    · exact fun h => h es hboard
    · intro h es' hes'
      rw [same_entries hes' hboard rfl]
      exact h
  rw [hsafe, agree_iff header does.stores hgs fwDoes.crcOk]
  -- an edit that was stored is also what the tool reads next, or nothing has changed
  have written : ∀ eff, CrcOk cfg.envSize r.board.env →
      ((ReadsBack tool cfg.envSize s.flash → gs = entriesAfter es c.name c.args eff) ∧
        (¬ ReadsBack tool cfg.envSize s.flash → gs = es)) →
      (ReadsBack tool cfg.envSize s.flash ∨ entriesAfter es c.name c.args eff = es ↔
        entriesAfter es c.name c.args eff = gs ∧ CrcOk cfg.envSize r.board.env) := by
    rintro eff hok ⟨hback, hlost⟩
    by_cases reads : ReadsBack tool cfg.envSize s.flash
    · simp [reads, hback reads, hok]
    · simp [reads, hlost reads, hok]
  cases heff : fwEffect cfg.envSize es c.name c.args with
  | refused =>
    rw [heff] at settles does
    refine iff_of_true trivial ⟨settles.symm, ?_⟩
    rw [does.untouched rfl]
    exact hcrc
  | overflowed =>
    rw [heff] at settles does
    obtain rfl : gs = es := settles
    constructor
    · intro fresh
      refine ⟨erase_not_defined fresh, ?_⟩
      rw [does.not_edited rfl fresh]
      exact hcrc
    · rintro ⟨same, -⟩ hdef
      exact erase_ne hdef same
  | deleted =>
    rw [heff] at settles does
    exact written .deleted (does.crc_updated (.inl rfl)) settles
  | stored =>
    rw [heff] at settles does
    exact written .stored (does.crc_updated (.inr rfl)) settles

/-- Every command returns on both sides, and the two programs agree in every state reached if and
only if every command of the run is safe. -/
theorem editors_agree_iff (tool : Tool) (cfg : Config) (header : Nat) {s : Editors}
    {es : List Entry} (board : Stores cfg.envSize s.board.env.data es)
    (boardCrc : CrcOk cfg.envSize s.board.env)
    (flash : Stores cfg.envSize (currentCopy tool cfg.envSize s.flash).data es)
    (flashCrc : CrcOk cfg.envSize (currentCopy tool cfg.envSize s.flash))
    (commands : List Command) :
    (∃ t, runFrom (step tool cfg) s commands = some t) ∧
      (StepsMeet (step tool cfg) (Safe tool cfg.envSize) s commands ↔
        ∀ done todo, commands = done ++ todo → ∀ t,
          runFrom (step tool cfg) s done = some t → Agree tool cfg.envSize header t) := by
  have hsound : Sound tool cfg.envSize s := ⟨⟨es, board⟩, ⟨es, flash⟩, flashCrc⟩
  have hagree := (agree_iff header board flash flashCrc).mpr ⟨rfl, boardCrc⟩
  constructor
  · obtain ⟨t, hrun, -⟩ := invariant_of_total (fun _ c h => sound_step h c) hsound commands
    exact ⟨t, hrun⟩
  · refine stepsMeet_iff (Sound tool cfg.envSize) ?_ ?_ ?_ hsound hagree commands
    · intro s c sound hstuck
      obtain ⟨t, hstep, -⟩ := sound_step sound c
      simp [hstuck] at hstep
    · intro s c t sound agree hstep
      exact step_agrees_iff header sound agree hstep
    · intro s c t sound _ hstep
      obtain ⟨u, hstep', hu⟩ := sound_step sound c
      obtain rfl := Option.some.inj (hstep'.symm.trans hstep)
      exact hu

def plainTool : Tool := ⟨false, []⟩

/-- "x=AAA…" and "a=b" in RAM, and the same area in the only copy on the flash. -/
def nearlyFull : Editors :=
  ⟨EnvNand.boardWith [EnvNand.padding 131000, EnvNand.small],
    .single (EnvNand.boardWith [EnvNand.padding 131000, EnvNand.small]).env⟩

def deleteSmall : Command := ⟨EnvNand.small.name, [], by decide, by decide⟩

def replaceSmall : Command := ⟨EnvNand.small.name, [EnvNand.tooLong], by decide, by decide⟩

lemma nearlyFull_stores :
    Stores EnvNand.hyq2440.envSize nearlyFull.board.env.data
      [EnvNand.padding 131000, EnvNand.small] :=
  EnvNand.boardWith_stores (by decide)

lemma nearlyFull_flash :
    Stores EnvNand.hyq2440.envSize
      (currentCopy plainTool EnvNand.hyq2440.envSize nearlyFull.flash).data
      [EnvNand.padding 131000, EnvNand.small] :=
  nearlyFull_stores

lemma nearlyFull_flashCrc :
    CrcOk EnvNand.hyq2440.envSize
      (currentCopy plainTool EnvNand.hyq2440.envSize nearlyFull.flash) :=
  EnvNand.boardWith_crcOk _

theorem editors_agree_iff_deletion :
    ∃ t, runFrom (step plainTool EnvNand.hyq2440) nearlyFull [deleteSmall] = some t ∧
      Agree plainTool EnvNand.hyq2440.envSize EnvNand.headerSize t := by
  obtain ⟨⟨t, hrun⟩, hiff⟩ := editors_agree_iff plainTool EnvNand.hyq2440 EnvNand.headerSize
    nearlyFull_stores (EnvNand.boardWith_crcOk _) nearlyFull_flash nearlyFull_flashCrc
    [deleteSmall]
  have hsafe : StepsMeet (step plainTool EnvNand.hyq2440)
      (Safe plainTool EnvNand.hyq2440.envSize) nearlyFull [deleteSmall] := by
    refine ⟨fun es _ => ?_, fun _ _ => trivial⟩
    have heff : fwEffect EnvNand.hyq2440.envSize es deleteSmall.name deleteSmall.args =
        .deleted := by
      rw [fwEffect, if_neg (fun h => absurd h.2 (by decide))]
      exact if_pos rfl
    rw [heff]
    exact Or.inl trivial
  exact ⟨t, hrun, hiff.mp hsafe [deleteSmall] [] rfl t hrun⟩

/-- "a" is gone from RAM while the flash still has "a=b". -/
theorem overflow_parts_editors :
    ∃ t, runFrom (step plainTool EnvNand.hyq2440) nearlyFull [replaceSmall] = some t ∧
      getenv EnvNand.hyq2440.envSize EnvNand.headerSize t.board.env.data [97] = some none ∧
      fwGetenv plainTool EnvNand.hyq2440.envSize t.flash [97] = some (some [98]) ∧
      ¬ Agree plainTool EnvNand.hyq2440.envSize EnvNand.headerSize t := by
  obtain ⟨r, w, hstep, does, fwDoes⟩ := step_does nearlyFull_stores nearlyFull_flash
    nearlyFull_flashCrc replaceSmall
  have heff : fwEffect EnvNand.hyq2440.envSize [EnvNand.padding 131000, EnvNand.small]
      replaceSmall.name replaceSmall.args = .overflowed := by
    rw [← effect_of_plain EnvNand.hyq2440 115200]
    exact EnvNand.boardWith_effect (k := 131000) rfl
  rw [heff] at does fwDoes
  have herase : erase [EnvNand.padding 131000, EnvNand.small] EnvNand.small.name =
      [EnvNand.padding 131000] := by
    simp [erase, EnvNand.padding_not_small]
  have hboard : Stores EnvNand.hyq2440.envSize r.board.env.data [EnvNand.padding 131000] :=
    herase ▸ does.stores
  have hflash : w.flash = nearlyFull.flash := fwDoes.kept (Or.inr rfl)
  have hinit := FwSetEnv.envInit_readable nearlyFull_flashCrc
  have hram : getenv EnvNand.hyq2440.envSize EnvNand.headerSize r.board.env.data [97] =
      some none := by
    have h := getenv_of_stores hboard EnvNand.headerSize EnvNand.small.name
    rw [lookup_cons, if_neg (EnvNand.padding_not_small _)] at h
    exact h
  have htool : fwGetenv plainTool EnvNand.hyq2440.envSize w.flash [97] = some (some [98]) := by
    rw [hflash]
    have h := FwSetEnv.fwGetenv_of_stores (by rw [hinit]; exact nearlyFull_flash)
      EnvNand.small.name
    rw [lookup_cons, if_neg (EnvNand.padding_not_small _), lookup_cons, if_pos rfl] at h
    exact h
  refine ⟨_, runFrom_cons hstep [], hram, htool, fun agree => ?_⟩
  have same := agree.reads ⟨[97], by decide⟩
  rw [hram, htool] at same
  cases same

end EditorsAgree
