import Mathlib.Data.List.TakeWhile
import UBoot.Mtd.CurrentPart

/-!
# The variables that name the current partition

Every call that changes the lists ends with `current_save` or `index_partitions`. They
write up to three variables, and the environment has to have room for them. Over a run the
variables then name the partition that was selected.
-/

namespace PartLists

open EnvArea Mtdparts NumberText PlainVariable SetEnvSpec Runs EnvMap

def cstr (t : Text) : CStr :=
  ⟨t.takeWhile (· ≠ 0), fun h => by simpa using List.mem_takeWhile_imp h⟩

lemma cstr_val {t : Text} (h : (0 : UInt8) ∉ t) : (cstr t).val = t := by
  apply List.takeWhile_eq_self_iff.mpr
  intro c hc
  simpa using fun heq : c = 0 => h (heq ▸ hc)

lemma decimal_no_nul (n : Nat) : (0 : UInt8) ∉ decimal n := by
  induction n using Nat.strongRecOn with
  | ind n ih =>
    have hdigit : ∀ k : Fin 10, (0 : UInt8) ≠ UInt8.ofNat (48 + k) := by decide
    rw [decimal]
    split_ifs with hsmall
    · simpa using hdigit ⟨n, hsmall⟩
    · rw [List.mem_append, not_or]
      exact ⟨ih (n / 10) (by omega), by simpa using hdigit ⟨n % 10, Nat.mod_lt _ (by omega)⟩⟩

lemma partitionText_no_nul (key : DevType × UInt8) (partnum : UInt8) :
    (0 : UInt8) ∉ partitionText key partnum := by
  have htype : (0 : UInt8) ∉ key.1.text := by
    cases key.1 with
    | nor => decide
    | nand => decide
    | onenand => decide
  simp [partitionText, htype, decimal_no_nul]

variable {es : List Entry} {sys : Sys} {next : Nat} {s : State}

def Lists.mtddevnum (l : Lists) (key : DevType × UInt8) : UInt16 :=
  partsBefore key l.devices + l.currentPartnum.toUInt16

def Lists.indexWrites (l : Lists) : List (Name × CStr) :=
  match l.currentDev, l.current with
  | some key, some part =>
    [(mtddevnumName, cstr (decimal (l.mtddevnum key).toNat)),
      (mtddevnameName, ⟨part.name.val, part.name.property.2⟩)]
  | _, _ => []

def Edit.writes (e : Edit) : List (Name × CStr) :=
  match e.save, e.lists.currentDev with
  | true, some key =>
    (partitionName, cstr (partitionText key e.lists.currentPartnum)) :: e.lists.indexWrites
  | _, _ => e.lists.indexWrites

def Room (n : Nat) : List Entry → List (Name × CStr) → Prop
  | _, [] => True
  | es, (name, value) :: rest =>
    ¬ TooLong n es name [value] ∧ Room n (stored es name value) rest

def RoomFor (sys : Sys) (s : State) (e : Edit) : Prop :=
  ∃ es, Stores sys.cfg.envSize s.board.env.data es ∧ Distinct es ∧
    Room sys.cfg.envSize es e.writes

def getenv (sys : Sys) (s : State) (name : Name) : Option (Option Text) :=
  SetEnv.getenv sys.cfg.envSize sys.header s.board.env.data name.val

/-- `partition` and `mtddevname` name the current partition, or there is none of them. -/
def Saved (sys : Sys) (s : State) : Prop :=
  getenv sys s partitionName =
      some (s.lists.currentDev.map (fun key => partitionText key s.lists.currentPartnum)) ∧
    getenv sys s mtddevnameName = some (s.lists.current.map (fun part => part.name.val))

lemma used_erase_le (es : List Entry) (name : Name) : used (erase es name) ≤ used es := by
  by_cases hdef : Defines es name
  · obtain ⟨pre, e, post, rfl, -, -, herase⟩ := split_at_first hdef
    rw [herase, used_append, used_append, used_cons]
    omega
  · rw [erase_not_defined hdef]

lemma room_of_space {n : Nat} {writes : List (Name × CStr)}
    (space : used es + (writes.map (fun w => (Entry.mk w.1 w.2).size)).sum < n) :
    Room n es writes := by
  induction writes generalizing es with
  | nil => trivial
  | cons w writes ih =>
    obtain ⟨name, value⟩ := w
    simp only [List.map_cons, List.sum_cons] at space
    have hle := used_erase_le es name
    have hneeded := neededLen_entry name value []
    rw [newValue_single] at hneeded
    refine ⟨?_, ih ?_⟩
    · rw [TooLong, hneeded]
      omega
    · rw [stored, used_append, used_cons, used_nil]
      omega

lemma setenv_room (s : State) {name : Name} {value : CStr}
    (h : Stores sys.cfg.envSize s.board.env.data es) (plain : Plain name)
    (fits : ¬ TooLong sys.cfg.envSize es name [value]) :
    ∃ board out, setenv sys name (some value.val) s = some { s with board := board, out := out } ∧
      Stores sys.cfg.envSize board.env.data (stored es name value) := by
  obtain ⟨r, hr, hstores⟩ := set_stores h plain fits
  refine ⟨r.board, s.out ++ r.out.map .env, ?_, hstores⟩
  simp only [setenv, Option.toList, hr, Option.map_some]

lemma setenv_unset (s : State) {name : Name} (h : Stores sys.cfg.envSize s.board.env.data es)
    (plain : Plain name) :
    ∃ board out, setenv sys name none s = some { s with board := board, out := out } ∧
      Stores sys.cfg.envSize board.env.data (erase es name) := by
  obtain ⟨r, hr, hstores⟩ := unset_stores h plain
  refine ⟨r.board, s.out ++ r.out.map .env, ?_, hstores⟩
  simp only [setenv, Option.toList, hr, Option.map_some]

lemma plain_names : Plain partitionName ∧ Plain mtddevnumName ∧ Plain mtddevnameName := by
  decide

lemma names_differ : partitionName ≠ mtddevnumName ∧ partitionName ≠ mtddevnameName ∧
    mtddevnameName ≠ mtddevnumName := by
  decide

lemma current_of_inv {l : Lists} (inv : Inv l next) {key : DevType × UInt8}
    (here : l.currentDev = some key) :
    ∃ dev part, l.find key = some dev ∧ l.current = some part ∧
      mtdPartInfo dev l.currentPartnum = ([], some part) := by
  obtain ⟨dev, hdev, -⟩ := inv.current key here
  obtain ⟨part, hpart, -, hinfo⟩ := mtdPartInfo_current inv hdev here
  exact ⟨dev, part, hdev, hpart, hinfo⟩

lemma indexPartitions_room (inv : Inv s.lists next)
    (h : Stores sys.cfg.envSize s.board.env.data es) (distinct : Distinct es)
    (room : Room sys.cfg.envSize es s.lists.indexWrites) :
    ∃ board out fs, indexPartitions sys s = some { s with board := board, out := out } ∧
      Stores sys.cfg.envSize board.env.data fs ∧ Distinct fs ∧
      lookup fs partitionName = lookup es partitionName ∧
      (lookup fs mtddevnameName).map Subtype.val =
        s.lists.current.map (fun part => part.name.val) := by
  obtain ⟨-, hnum, hname⟩ := plain_names
  obtain ⟨hpn, hpm, hmn⟩ := names_differ
  cases hcur : s.lists.currentDev with
  | none =>
    obtain ⟨b1, o1, h1, hs1⟩ := setenv_unset s h hnum
    obtain ⟨b2, o2, h2, hs2⟩ :=
      setenv_unset { s with board := b1, out := o1 } hs1 hname
    have hdistinct := distinct_erase (distinct_erase distinct mtddevnumName) mtddevnameName
    refine ⟨b2, o2, _, ?_, hs2, hdistinct, ?_, ?_⟩
    · simp only [indexPartitions, hcur, h1, Option.bind_some, h2]
    · rw [lookup_erase_other _ hpm, lookup_erase_other _ hpn]
    · rw [lookup_erased (distinct_erase distinct _)]
      simp [Lists.current, hcur]
  | some key =>
    obtain ⟨dev, part, hdev, hpart, hinfo⟩ := current_of_inv inv hcur
    simp only [Lists.indexWrites, hcur, hpart, Room, and_true] at room
    obtain ⟨hfits1, hfits2⟩ := room
    obtain ⟨b1, o1, h1, hs1⟩ := setenv_room s h hnum hfits1
    obtain ⟨b2, o2, h2, hs2⟩ :=
      setenv_room { s with board := b1, out := o1 } hs1 hname hfits2
    have hdistinct := distinct_stored distinct hnum (cstr (decimal (s.lists.mtddevnum key).toNat))
    refine ⟨b2, o2, _, ?_, hs2, distinct_stored hdistinct hname _, ?_, ?_⟩
    · rw [cstr_val (decimal_no_nul _)] at h1
      simp only [indexPartitions, hcur, hdev, hinfo]
      simp only [Lists.mtddevnum] at h1
      simp only [h1, Option.bind_some, h2]
    · rw [lookup_stored_other hpm, lookup_stored_other hpn]
    · rw [lookup_stored hdistinct, hpart]
      rfl

structure Finished (sys : Sys) (s : State) (e : Edit) (t : State) : Prop where
  devices : t.lists.devices = e.lists.devices
  dev : t.lists.currentDev = e.lists.currentDev
  partnum : t.lists.currentPartnum = e.lists.currentPartnum
  next : t.next = s.next
  env : WellFormed sys.cfg.envSize t.board.env.data
  saved : Saved sys t

lemma inv_congr {l l' : Lists} (devices : l'.devices = l.devices)
    (dev : l'.currentDev = l.currentDev) (partnum : l'.currentPartnum = l.currentPartnum)
    (inv : Inv l next) : Inv l' next := by
  obtain ⟨keys, sorted, count, nonempty, distinct, known, current⟩ := inv
  constructor
  case keys => rwa [devices]
  case sorted => rwa [devices]
  case count => rwa [devices]
  case nonempty => rwa [devices]
  case distinct => rwa [devices]
  case known => rwa [devices]
  case current =>
    simp only [Lists.find, devices, dev, partnum]
    exact current

lemma current_congr {l l' : Lists} (devices : l'.devices = l.devices)
    (dev : l'.currentDev = l.currentDev) (partnum : l'.currentPartnum = l.currentPartnum) :
    l'.current = l.current := by
  simp only [Lists.current, Lists.find, devices, dev, partnum]

lemma finish_room (e : Edit) (inv : Inv e.lists next) (saved : Saved sys s)
    (dev : e.save = false → e.lists.currentDev = s.lists.currentDev)
    (partnum : e.save = false → e.lists.currentPartnum = s.lists.currentPartnum)
    (room : RoomFor sys s e) : ∃ t, finish sys e s = some t ∧ Finished sys s e t := by
  obtain ⟨es, hstores, hdistinct, hroom⟩ := room
  obtain ⟨hpartition, -, -⟩ := plain_names
  let s' : State := { s with lists := e.lists, out := e.out }
  -- what is left to show once `partition` has its value
  have index : ∀ (s1 : State) (fs : List Entry), s1.lists.devices = e.lists.devices →
      s1.lists.currentDev = e.lists.currentDev →
      s1.lists.currentPartnum = e.lists.currentPartnum → s1.next = s.next →
      Stores sys.cfg.envSize s1.board.env.data fs → Distinct fs →
      Room sys.cfg.envSize fs e.lists.indexWrites →
      (lookup fs partitionName).map Subtype.val =
        e.lists.currentDev.map (fun key => partitionText key e.lists.currentPartnum) →
      ∃ t, indexPartitions sys s1 = some t ∧ Finished sys s e t := by
    intro s1 fs hdevices hdev hpartnum hnext hfs hfsDistinct hfsRoom hlookup
    have hinv := inv_congr hdevices hdev hpartnum inv
    have hcurrent := current_congr hdevices hdev hpartnum
    have hwrites : s1.lists.indexWrites = e.lists.indexWrites := by
      simp only [Lists.indexWrites, Lists.mtddevnum, hcurrent, hdevices, hdev, hpartnum]
    obtain ⟨board, out, gs, hrun, hgs, hgsDistinct, hsame, hname⟩ :=
      indexPartitions_room hinv hfs hfsDistinct (hwrites ▸ hfsRoom)
    refine ⟨_, hrun, hdevices, hdev, hpartnum, hnext, ⟨gs, hgs, hgsDistinct⟩, ?_, ?_⟩
    · rw [getenv, getenv_of_stores hgs, hsame, hlookup]
      exact congrArg some (by rw [hdev, hpartnum])
    · rw [getenv, getenv_of_stores hgs, hname]
  cases hsave : e.save with
  | false =>
    have hwrites : e.writes = e.lists.indexWrites := by simp only [Edit.writes, hsave]
    have hold := saved.1
    rw [getenv, getenv_of_stores hstores] at hold
    obtain ⟨t, hrun, hfin⟩ := index s' es rfl rfl rfl rfl hstores hdistinct (hwrites ▸ hroom)
      (by rw [Option.some.inj hold, dev hsave, partnum hsave])
    refine ⟨t, ?_, hfin⟩
    simp only [finish, hsave]
    exact hrun
  | true =>
    simp only [finish, hsave, if_true]
    cases hcur : e.lists.currentDev with
    | none =>
      have hnone : e.lists.indexWrites = [] := by simp only [Lists.indexWrites, hcur]
      obtain ⟨b1, o1, h1, hs1⟩ := setenv_unset s' hstores hpartition
      obtain ⟨t, hrun, hfin⟩ := index
        { s' with board := b1, out := o1, lists := { e.lists with lastPartition := [] } } _ rfl rfl
        rfl rfl hs1 (distinct_erase hdistinct _) (by rw [hnone]; trivial)
        (by rw [lookup_erased hdistinct, hcur]; rfl)
      refine ⟨t, ?_, hfin⟩
      simp only [currentSave, hcur]
      rw [show setenv sys partitionName none { s with lists := e.lists, out := e.out } = _ from h1]
      exact hrun
    | some key =>
      have hwrites : e.writes = (partitionName, cstr (partitionText key e.lists.currentPartnum)) ::
          e.lists.indexWrites := by simp only [Edit.writes, hsave, hcur]
      rw [hwrites] at hroom
      obtain ⟨hfits, hrest⟩ := hroom
      have hval := cstr_val (partitionText_no_nul key e.lists.currentPartnum)
      obtain ⟨b1, o1, h1, hs1⟩ := setenv_room s' hstores hpartition hfits
      obtain ⟨t, hrun, hfin⟩ := index
        { s' with
          board := b1
          out := o1
          lists := { e.lists with lastPartition := partitionText key e.lists.currentPartnum } } _
        rfl rfl rfl rfl hs1 (distinct_stored hdistinct hpartition _) hrest
        (by rw [lookup_stored hdistinct, hcur, Option.map_some, Option.map_some, hval])
      refine ⟨t, ?_, hfin⟩
      rw [hval] at h1
      simp only [currentSave, hcur]
      rw [show setenv sys partitionName (some (partitionText key e.lists.currentPartnum))
        { s with lists := e.lists, out := e.out } = _ from h1]
      exact hrun

/-- The lists are in order, and the variables name the current partition. -/
structure Sound (sys : Sys) (s : State) : Prop where
  lists : Inv s.lists s.next
  env : WellFormed sys.cfg.envSize s.board.env.data
  saved : Saved sys s

def OnLists (s : State) : Op → Prop
  | .add key .. => (s.lists.find key).isSome
  | .del key self => ∃ dev, s.lists.find key = some dev ∧ ∃ part ∈ dev.parts, part.self = self

def Good (sys : Sys) (s : State) : Op → Prop
  | .add key name autoName size offset maskFlags => ∀ dev e, s.lists.find key = some dev →
    partAdd sys dev ⟨s.next, name, autoName, size, offset, maskFlags⟩ s.lists = .ok e →
    RoomToAdd s.lists dev offset ∧ RoomFor sys s e
  | .del key self => ∀ dev part, s.lists.find key = some dev → part ∈ dev.parts →
    part.self = self → ToldApart s.lists dev part ∧ RoomFor sys s (partDel dev part s.lists)

def DeletesCurrent (s : State) : Op → Prop
  | .add .. => False
  | .del _ self => ∃ curr, s.lists.current = some curr ∧ curr.self = self

lemma sound_of_keeps (s' : State) {e : Edit} (saved : Saved sys s) (board : s'.board = s.board)
    (lists : s'.lists = s.lists) (keeps : Keeps s.lists s'.next e) (room : RoomFor sys s e) :
    ∃ t, finish sys e s' = some t ∧ Sound sys t ∧ t.lists.current = s.lists.current := by
  have hsaved : Saved sys s' := by
    unfold Saved getenv
    rw [board, lists]
    exact saved
  have hroom : RoomFor sys s' e := by
    unfold RoomFor
    rw [board]
    exact room
  obtain ⟨t, hrun, hfin⟩ := finish_room e keeps.inv hsaved (fun _ => lists ▸ keeps.dev)
    (fun hsave => lists ▸ keeps.partnum hsave) hroom
  refine ⟨t, hrun, ⟨?_, hfin.env, hfin.saved⟩, ?_⟩
  · rw [hfin.next]
    exact inv_congr hfin.devices hfin.dev hfin.partnum keeps.inv
  · exact (current_congr hfin.devices hfin.dev hfin.partnum).trans keeps.current

lemma step_sound {op : Op} (sound : Sound sys s) (on : OnLists s op) (good : Good sys s op) :
    ∃ t, step sys s op = some t ∧ Sound sys t ∧
      (¬ DeletesCurrent s op → t.lists.current = s.lists.current) := by
  obtain ⟨inv, env, saved⟩ := sound
  cases op with
  | add key name autoName size offset maskFlags =>
    obtain ⟨dev, hdev⟩ := Option.isSome_iff_exists.mp on
    cases hadd : partAdd sys dev ⟨s.next, name, autoName, size, offset, maskFlags⟩ s.lists with
    | error out =>
      have hnext : Inv s.lists (s.next + 1) :=
        { inv with known := fun d hd p hp => Nat.lt_succ_of_lt (inv.known d hd p hp) }
      refine ⟨{ s with next := s.next + 1, out := out }, ?_, ⟨hnext, env, saved⟩, fun _ => rfl⟩
      simp only [step, hdev, hadd]
    | ok e =>
      obtain ⟨hroomAdd, hroom⟩ := good dev e hdev hadd
      obtain ⟨valid, hsorted⟩ : ∃ valid : Part, partSortAdd dev
          ⟨s.next, name, autoName, valid.size, offset, maskFlags⟩ s.lists = .ok e := by
        unfold partAdd at hadd
        split at hadd
        · cases hadd
        · exact ⟨_, hadd⟩
      have hkeeps := partSortAdd_keeps inv hdev rfl hroomAdd hsorted
      obtain ⟨t, hrun, hsound, hcurrent⟩ :=
        sound_of_keeps { s with next := s.next + 1 } saved rfl rfl hkeeps hroom
      refine ⟨t, ?_, hsound, fun _ => hcurrent⟩
      simp only [step, hdev, hadd]
      exact hrun
  | del key self =>
    obtain ⟨dev, hdev, part, hpart, hself⟩ := on
    obtain ⟨found, hfound⟩ : ∃ found, dev.parts.find? (fun p => p.self = self) = some found := by
      rw [← Option.isSome_iff_exists, List.find?_isSome]
      exact ⟨part, hpart, by simpa using hself⟩
    have hin := List.mem_of_find?_eq_some hfound
    have hfself : found.self = self := by simpa using List.find?_some hfound
    obtain ⟨hapart, hroom⟩ := good dev found hdev hin hfself
    have hstep : step sys s (.del key self) = finish sys (partDel dev found s.lists) s := by
      simp only [step, hdev, hfound]
    rw [hstep]
    by_cases hcurr : ∃ curr, s.lists.current = some curr ∧ curr.self = self
    · obtain ⟨curr, hcurr, hsame⟩ := hcurr
      by_cases here : s.lists.currentDev = some key
      · obtain ⟨hinv, hsave⟩ := partDel_current inv hdev hin here hcurr (hsame.trans hfself.symm)
        obtain ⟨t, hrun, hfin⟩ := finish_room _ hinv saved (fun h => by simp [hsave] at h)
          (fun h => by simp [hsave] at h) hroom
        refine ⟨t, hrun, ⟨?_, hfin.env, hfin.saved⟩, fun hno => absurd ⟨curr, hcurr, hsame⟩ hno⟩
        rw [hfin.next]
        exact inv_congr hfin.devices hfin.dev hfin.partnum hinv
      · have hkeeps := partDel_keeps inv hdev hin hapart (fun h => absurd h here)
        obtain ⟨t, hrun, hsound, hkept⟩ := sound_of_keeps s saved rfl rfl hkeeps hroom
        exact ⟨t, hrun, hsound, fun _ => hkept⟩
    · have hkeeps := partDel_keeps inv hdev hin hapart
        (fun _ curr hc heq => hcurr ⟨curr, hc, heq.trans hfself⟩)
      obtain ⟨t, hrun, hsound, hkept⟩ := sound_of_keeps s saved rfl rfl hkeeps hroom
      exact ⟨t, hrun, hsound, fun _ => hkept⟩

/-- In a run of such calls the lists stay in order, and the index and the variables stay with
the partition that was selected until it is deleted itself. -/
theorem selection_kept (sys : Sys) {s : State} (sound : Sound sys s) {ops : List Op}
    (meet : StepsMeet (step sys) (fun r op => OnLists r op ∧ Good sys r op) s ops) :
    ∀ done todo, ops = done ++ todo → ∃ t, runFrom (step sys) s done = some t ∧ Sound sys t ∧
      (StepsMeet (step sys) (fun r op => ¬ DeletesCurrent r op) s done →
        t.lists.current = s.lists.current) := by
  induction ops generalizing s with
  | nil =>
    intro done todo split
    obtain ⟨rfl, -⟩ := List.append_eq_nil_iff.mp split.symm
    exact ⟨s, rfl, sound, fun _ => rfl⟩
  | cons op ops ih =>
    intro done todo split
    cases done with
    | nil => exact ⟨s, rfl, sound, fun _ => rfl⟩
    | cons first done =>
      obtain ⟨rfl, hsplit⟩ := List.cons.inj split
      obtain ⟨⟨on, good⟩, hrest⟩ := meet
      obtain ⟨r, hstep, hsound, hkept⟩ := step_sound sound on good
      obtain ⟨t, hrun, htSound, htKept⟩ := ih hsound (hrest r hstep) done todo hsplit
      refine ⟨t, by rw [runFrom_cons hstep]; exact hrun, htSound, ?_⟩
      intro hstays
      obtain ⟨hno, hlater⟩ := hstays
      exact (htKept (hlater r hstep)).trans (hkept hno)

-- nand0 with a at 0x0, c and b at 0x20000, each of 0x20000 bytes, and c selected
def nand0 : MtdId := ⟨.nand, 0, 0x100000, [102]⟩
def partA : PartInfo := ⟨0, ⟨[97], by decide⟩, false, 0x20000, 0, 0⟩
def partB : PartInfo := ⟨1, ⟨[98], by decide⟩, false, 0x20000, 0x20000, 0⟩
def partC : PartInfo := ⟨2, ⟨[99], by decide⟩, false, 0x20000, 0x20000, 0⟩
def flashOne : DevType → UInt8 → Option MtdInfo := fun _ _ => some ⟨0x100000, 0x20000, []⟩
def sysOne : Sys := ⟨⟨128, [], fun _ _ => 0, []⟩, 4, flashOne⟩
lemma partC_no_nul : (0 : UInt8) ∉ ([99] : List UInt8) := by decide

def variablesC : List Entry :=
  [⟨partitionName, ⟨[110, 97, 110, 100, 48, 44, 49], by decide⟩⟩, ⟨mtddevnameName, ⟨[99], partC_no_nul⟩⟩]
def boardC : SetEnv.Board := ⟨⟨0, 0, ByteMemory.ofBytes (image variablesC)⟩, 0, 115200, 0, 0, []⟩
def selectedC : State :=
  ⟨⟨[⟨nand0, 3, [partA, partC, partB]⟩], some (.nand, 0), 1, []⟩, boardC, 3, []⟩

lemma partitionText_nand (partnum : UInt8) (h : partnum.toNat < 10) :
    partitionText (.nand, 0) partnum =
      [110, 97, 110, 100, 48, 44, UInt8.ofNat (48 + partnum.toNat)] := by
  have hzero : decimal 0 = [48] := by rw [decimal]; rfl
  have hnum : decimal partnum.toNat = [UInt8.ofNat (48 + partnum.toNat)] := by
    rw [decimal, if_pos h]
  change DevType.nand.text ++ decimal 0 ++ 44 :: decimal partnum.toNat = _
  rw [hzero, hnum]
  rfl

lemma variablesC_stored : Stores 128 boardC.env.data variablesC ∧ Distinct variablesC :=
  ⟨⟨ByteMemory.holds_ofBytes _, by decide⟩, by decide, by decide⟩

lemma selectedC_sound : Sound sysOne selectedC := by
  obtain ⟨hstores, hdistinct⟩ := variablesC_stored
  constructor
  case lists =>
    constructor
    case keys => decide
    case sorted => decide
    case count => decide
    case nonempty => decide
    case distinct => decide
    case known => decide
    case current =>
      intro key hkey
      cases hkey
      exact ⟨_, rfl, by decide⟩
  case env => exact ⟨variablesC, hstores, hdistinct⟩
  case saved =>
    refine ⟨(getenv_of_stores hstores 4 partitionName).trans ?_,
      (getenv_of_stores hstores 4 mtddevnameName).trans rfl⟩
    change _ = some (some (partitionText (.nand, 0) 1))
    rw [partitionText_nand 1 (by decide)]
    rfl

lemma cstr_length (t : Text) : (cstr t).val.length ≤ t.length :=
  (List.takeWhile_sublist _).length_le

lemma decimal_length {n : Nat} (h : n < 10) : (decimal n).length = 1 := by
  rw [decimal, if_pos h]
  rfl

lemma selectedC_room {e : Edit} {part : PartInfo} (dev : e.lists.currentDev = some (.nand, 0))
    (current : e.lists.current = some part) (small : e.lists.currentPartnum.toNat < 10)
    (index : (e.lists.mtddevnum (.nand, 0)).toNat < 10) (name : part.name.val.length = 1) :
    RoomFor sysOne selectedC e := by
  obtain ⟨hstores, hdistinct⟩ := variablesC_stored
  refine ⟨variablesC, hstores, hdistinct, room_of_space ?_⟩
  have htext : (partitionText (.nand, 0) e.lists.currentPartnum).length = 7 := by
    rw [partitionText_nand _ small]
    rfl
  have hpartition := cstr_length (partitionText (.nand, 0) e.lists.currentPartnum)
  have hnum := cstr_length (decimal (e.lists.mtddevnum (.nand, 0)).toNat)
  rw [decimal_length index] at hnum
  rw [htext] at hpartition
  have hused : used variablesC = 31 := by decide
  have hlengths : partitionName.val.length = 9 ∧ mtddevnumName.val.length = 9 ∧
      mtddevnameName.val.length = 10 := by decide
  change _ < 128
  cases hsave : e.save with
  | false =>
    simp only [Edit.writes, hsave, Lists.indexWrites, dev, current, List.map_cons, List.map_nil,
      List.sum_cons, List.sum_nil, Entry.size]
    omega
  | true =>
    simp only [Edit.writes, hsave, Lists.indexWrites, dev, current, List.map_cons, List.map_nil,
      List.sum_cons, List.sum_nil, Entry.size]
    omega

def addD : Op := .add (.nand, 0) ⟨[100], by decide⟩ false 0x20000 0x40000 0

theorem selection_kept_addition :
    StepsMeet (step sysOne) (fun r op => OnLists r op ∧ Good sysOne r op) selectedC [addD] ∧
      ∃ t, runFrom (step sysOne) selectedC [addD] = some t ∧ Sound sysOne t := by
  have hmeet : StepsMeet (step sysOne) (fun r op => OnLists r op ∧ Good sysOne r op) selectedC
      [addD] := by
    refine ⟨⟨rfl, ?_⟩, fun _ _ => trivial⟩
    intro dev e hdev hadd
    obtain rfl := Option.some.inj hdev
    obtain rfl := Except.ok.inj hadd
    refine ⟨⟨by decide, fun _ curr _ _ => by decide⟩, ?_⟩
    exact selectedC_room rfl rfl (by decide) (by decide) rfl
  obtain ⟨t, hrun, hsound, -⟩ := selection_kept sysOne selectedC_sound hmeet [addD] [] rfl
  exact ⟨hmeet, t, hrun, hsound⟩

def delB : Op := .del (.nand, 0) 1

/-- b stands behind c at the same offset: when it is deleted the index is moved to a. -/
theorem equal_offsets_lose_selection :
    Sound sysOne selectedC ∧ OnLists selectedC delB ∧ ¬ DeletesCurrent selectedC delB ∧
      selectedC.lists.current = some partC ∧
      ∃ t, step sysOne selectedC delB = some t ∧ t.lists.current = some partA ∧
        getenv sysOne t partitionName = some (some (partitionText (.nand, 0) 0)) ∧
        getenv sysOne t mtddevnameName = some (some partA.name.val) := by
  have hnot : ¬ DeletesCurrent selectedC delB := by
    rintro ⟨curr, hcurr, hself⟩
    obtain rfl := Option.some.inj hcurr
    exact absurd hself (by decide)
  refine ⟨selectedC_sound, ⟨_, rfl, partB, by decide, rfl⟩, hnot, rfl, ?_⟩
  let left : Lists := ⟨[⟨nand0, 2, [partA, partC]⟩], some (.nand, 0), 0, []⟩
  have hinv : Inv left 3 := by
    constructor
    case keys => decide
    case sorted => decide
    case count => decide
    case nonempty => decide
    case distinct => decide
    case known => decide
    case current =>
      intro key hkey
      obtain rfl := Option.some.inj hkey
      exact ⟨_, rfl, by decide⟩
  obtain ⟨t, hrun, hfin⟩ := finish_room ⟨left, [], true⟩
    hinv selectedC_sound.saved (by simp) (by simp)
    (selectedC_room rfl rfl (by decide) (by decide) rfl)
  have hcurrent : t.lists.current = some partA :=
    current_congr hfin.devices hfin.dev hfin.partnum
  have hsaved := hfin.saved
  rw [Saved, hfin.dev, hfin.partnum, hcurrent] at hsaved
  exact ⟨t, hrun, hcurrent, hsaved⟩

end PartLists
