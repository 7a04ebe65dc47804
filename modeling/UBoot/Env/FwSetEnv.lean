import UBoot.Env.EnvMap
import UBoot.Env.FwEnv

/-!
# Setting and reading variables from Linux (tools/env/fw_env.c)

Every call reads the flash again, edits the image in memory and writes it back.
The loops that shift entries down, look for their end and copy a new definition
are the text of cmd_nvedit.c and are taken from there; `envmatch`, the search and
the deletion are copies that have changed. Opening, reading and writing the
devices succeed. `none` is a read outside the area, or a string read past its end.
-/

namespace FwSetEnv

open ByteMemory EnvArea SetEnv AreaScan AreaEdit SetEnvSpec RedundantEnv

/-- What the tool is built with: the signedness of `char`, and its own default environment. -/
structure Tool where
  charSigned : Bool
  defaultEnvironment : List UInt8

/-- FLAG_BOOLEAN on NOR flash, FLAG_INCREMENTAL on NAND. -/
inductive FlagScheme where
  | boolean
  | incremental

/-- What lies on the flash: one copy of the environment (FLAG_NONE), or two. -/
inductive Flash where
  | single (image : EnvT)
  | redundant (scheme : FlagScheme) (copies : Copies)

inductive Message where
  | badCrc                              -- Warning: Bad CRC, using default environment
  | notTerminated                       -- ## Error: environment not terminated
  | cantOverwrite (name : List UInt8)   -- Can't overwrite "%s"
  | overflow (name : List UInt8)        -- Error: environment overflow, "%s" deleted
  deriving DecidableEq

def activeFlag : UInt8 := 1
def obsoleteFlag : UInt8 := 0

def flagBoolean (charSigned : Bool) (b0 b1 : UInt8) : Slot :=
  let flag0 := FwEnv.charValue charSigned b0
  let flag1 := FwEnv.charValue charSigned b1
  if flag0 = activeFlag.toNat ∧ flag1 = obsoleteFlag.toNat then .one
  else if flag0 = obsoleteFlag.toNat ∧ flag1 = activeFlag.toNat then .two
  else if flag0 = flag1 then .one
  else if flag0 = 0xFF then .one
  else if flag1 = 0xFF then .two
  else .one

/-- `dev_current` after `env_init`, 0 and 1 for the copies one and two. -/
def devCurrent (tool : Tool) (n : Nat) (scheme : FlagScheme) (c : Copies) : Slot :=
  match scheme with
  | .incremental => FwEnv.devCurrent tool.charSigned n c
  | .boolean =>
    if CrcOk n c.one ∧ ¬ CrcOk n c.two then .one
    else if ¬ CrcOk n c.one ∧ CrcOk n c.two then .two
    else if ¬ CrcOk n c.one ∧ ¬ CrcOk n c.two then .one
    else flagBoolean tool.charSigned c.one.flags c.two.flags

structure Init where
  err : List Message
  image : EnvT

/-- `env_init`: the image in memory, and the warning it printed. -/
def envInit (tool : Tool) (n : Nat) : Flash → Init
  | .single image =>
    if CrcOk n image then ⟨[], image⟩
    else ⟨[.badCrc], { image with data := blit image.data 0 tool.defaultEnvironment }⟩
  | .redundant scheme c =>
    let image := c.get (devCurrent tool n scheme c)
    if ¬ CrcOk n c.one ∧ ¬ CrcOk n c.two then
      ⟨[.badCrc], { image with data := blit image.data 0 tool.defaultEnvironment }⟩
    else ⟨[], image⟩

/-- `flash_io (O_RDWR)`: the image goes to the copy that is not current; on NOR flash the
current one is then marked obsolete. -/
def flashWrite (tool : Tool) (n : Nat) (flash : Flash) (image : EnvT) : Flash :=
  match flash with
  | .single _ => .single image
  | .redundant .incremental c =>
    let target := (devCurrent tool n .incremental c).other
    .redundant .incremental (c.put target { image with flags := image.flags + 1 })
  | .redundant .boolean c =>
    let current := devCurrent tool n .boolean c
    .redundant .boolean ((c.put current.other { image with flags := activeFlag }).put current
      { c.get current with flags := obsoleteFlag })

/-- The inner `none` is NULL. Two NULs compare equal here as well. -/
def envmatch (d : Mem) : List UInt8 → Nat → Option (Option Nat)
  | [], s2 =>
    if d s2 = 0 then none
    else if d s2 = 61 then some (some (s2 + 1)) else some none
  | c :: s1, s2 =>
    if c = d s2 then
      if c = 61 then some (some (s2 + 1)) else envmatch d s1 (s2 + 1)
    else some none

inductive Search where
  | notTerminated
  | ended
  | found (oldval env nxt : Nat)
  deriving DecidableEq

/-- The loop over the strings, the same in `fw_getenv` and `fw_setenv`. -/
def search (n : Nat) (d : Mem) (name : List UInt8) : Nat → Nat → Option Search
  | 0, _ => none
  | fuel + 1, env =>
    if n ≤ env then none
    else if d env = 0 then some .ended
    else match getenvSkip d (n - env) env with
      | none => some .notTerminated
      | some nxt => match envmatch d name env with
        | none => none
        | some none => search n d name fuel (nxt + 1)
        | some (some oldval) => some (.found oldval env nxt)

/-- `fw_getenv`: the string its caller reads, `some none` for NULL. -/
def fwGetenv (tool : Tool) (n : Nat) (flash : Flash) (name : List UInt8) :
    Option (Option (List UInt8)) :=
  let d := (envInit tool n flash).image.data
  match search n d name (n + 1) 0 with
  | none => none
  | some (.found val _ _) => match skipToNul d (n - val) val with
    | none => none
    | some e => some (some (slice d val (e - val)))
  | some _ => some none

/-- Delete the entry at `env`, whose NUL is at `nxt`. Here the start of a last entry is
overwritten where it is. -/
def deleteEntry (n : Nat) (d : Mem) (env nxt : Nat) : Option Mem :=
  let nxt := nxt + 1
  if n ≤ nxt then none
  else if d nxt = 0 then some (store (store d env 0) (env + 1) 0)
  else match shiftDown d (n - 1 - nxt) env nxt with
    | none => none
    | some (d, env) => some (store d (env + 1) 0)

def appendDefinition (n : Nat) (d : Mem) (name : List UInt8) (args : List (List UInt8)) :
    Option (Except Message Mem) :=
  match args with
  | [] => some (.ok d)
  | _ :: _ => match appendOffset n d with
    | none => none
    | some env =>
      if n - env < neededLen name args then some (.error (.overflow name))
      else some (.ok (writeEntry d env name args))

/-- What `fw_setenv` makes of the area, or why it gives up. -/
def editArea (n : Nat) (d : Mem) (name : List UInt8) (args : List (List UInt8)) :
    Option (Except Message Mem) :=
  match search n d name (n + 1) 0 with
  | none => none
  | some .notTerminated => some (.error .notTerminated)
  | some .ended => appendDefinition n d name args
  | some (.found _ env nxt) =>
    if name = ethaddrName ∨ name = serialName then some (.error (.cantOverwrite name))
    else match deleteEntry n d env nxt with
      | none => none
      | some d => appendDefinition n d name args

structure FwResult where
  rc : Int
  err : List Message
  flash : Flash

/-- `fw_setenv (argc, argv)` with `argv[1]` the name and `argv[2]` .. the arguments. Only
WRITE_FLASH stores anything: what was edited before an early return is lost. -/
def fwSetenv (tool : Tool) (n : Nat) (flash : Flash) (name : List UInt8)
    (args : List (List UInt8)) : Option FwResult :=
  let init := envInit tool n flash
  match editArea n init.image.data name args with
  | none => none
  | some (.error m) => some ⟨-1, init.err ++ [m], flash⟩
  | some (.ok data) =>
    some ⟨0, init.err, flashWrite tool n flash (envCrcUpdate n { init.image with data := data })⟩

/-!
## What one call of `fw_setenv` does to a well-formed area

The same four effects as in U-Boot, with one difference: a definition that does
not fit leaves the flash as it was, old definition included.
-/

open EnvMap

variable {d : Mem} {e : Entry} {rest : List UInt8} {a n : Nat} {name : Name}
    {es pre post : List Entry}

lemma envmatch_eq (d : Mem) (s : List UInt8) (a : Nat) :
    SetEnv.envmatch d s a =
      (envmatch d s a).map (fun r => match r with | none => -1 | some v => (v : Int)) := by
  induction s generalizing a with
  | nil =>
    simp only [SetEnv.envmatch, envmatch]
    split_ifs <;> simp
  | cons c s ih =>
    simp only [SetEnv.envmatch, envmatch]
    split_ifs
    · simp
    · exact ih (a + 1)
    · simp

lemma envmatch_entry (name : Name) (held : Holds d a (e.text ++ rest)) :
    envmatch d name.val a =
      some (if e.name = name then some (a + name.val.length + 1) else none) := by
  have h := AreaScan.envmatch_entry name held
  rw [envmatch_eq] at h
  obtain ⟨r, hr, hval⟩ := Option.map_eq_some_iff.mp h
  rw [hr]
  by_cases hname : e.name = name
  · rw [if_pos hname] at hval ⊢
    cases r with
    | none => simp only at hval; omega
    | some v => congr 2; simp only at hval; omega
  · rw [if_neg hname] at hval ⊢
    cases r with
    | none => rfl
    | some v => simp only at hval; omega

lemma search_entry (name : Name) (fuel : Nat) (held : Holds d a (packed (e :: es) ++ rest))
    (room : a + e.size ≤ n) :
    search n d name.val (fuel + 1) a =
      if e.name = name then some (.found (a + name.val.length + 1) a (a + e.text.length))
      else search n d name.val fuel (a + e.size) := by
  obtain ⟨hentry, -⟩ := holds_entry held
  have hsize := e.text_length
  have hin : ¬ n ≤ a := by omega
  have hskip := getenvSkip_text (n - a) hentry e.text_no_nul (by omega)
  rw [search, if_neg hin, if_neg (entry_first_ne_zero hentry), hskip]
  simp only [envmatch_entry name hentry]
  split_ifs
  · rfl
  · exact congrArg (search n d name.val fuel) (by omega)

lemma search_absent {tail : List UInt8} (fuel : Nat) (held : Holds d a (packed es ++ 0 :: tail))
    (absent : ¬ Defines es name) (room : a + used es < n) (enough : es.length < fuel) :
    search n d name.val fuel a = some .ended := by
  induction es generalizing fuel a with
  | nil =>
    obtain ⟨fuel, rfl⟩ := Nat.exists_eq_add_of_lt enough
    have ha : d a = 0 := held.1
    have hin : ¬ n ≤ a := by simpa using room
    simp [search, ha, hin]
  | cons e es ih =>
    obtain ⟨fuel, rfl⟩ := Nat.exists_eq_add_of_lt enough
    rw [used_cons] at room
    have hother : e.name ≠ name := fun h => absent ⟨e, List.mem_cons_self, h⟩
    rw [search_entry _ _ held (by omega), if_neg hother]
    apply ih _ (holds_entry held).2
    · rintro ⟨f, hf, hname⟩
      exact absent ⟨f, List.mem_cons_of_mem _ hf, hname⟩
    · omega
    · simp; omega

lemma search_present {tail : List UInt8} (fuel : Nat)
    (held : Holds d a (packed (pre ++ e :: post) ++ 0 :: tail)) (absent : ¬ Defines pre name)
    (present : e.name = name) (room : a + used (pre ++ e :: post) < n) (enough : pre.length < fuel)
    :
    search n d name.val fuel a = some (.found (a + used pre + name.val.length + 1)
      (a + used pre) (a + used pre + e.text.length)) := by
  induction pre generalizing fuel a with
  | nil =>
    obtain ⟨fuel, rfl⟩ := Nat.exists_eq_add_of_lt enough
    rw [List.nil_append] at held room
    rw [used_cons] at room
    rw [search_entry _ _ held (by omega), if_pos present]
    rfl
  | cons f pre ih =>
    obtain ⟨fuel, rfl⟩ := Nat.exists_eq_add_of_lt enough
    rw [List.cons_append] at held room
    rw [used_cons] at room
    have hother : f.name ≠ name := fun h => absent ⟨f, List.mem_cons_self, h⟩
    rw [search_entry _ _ held (by omega), if_neg hother]
    have hnext := ih ((f :: pre).length + fuel) (holds_entry held).2
      (fun ⟨g, hg, hname⟩ => absent ⟨g, List.mem_cons_of_mem _ hg, hname⟩)
      (by omega) (by simp; omega)
    rw [hnext, used_cons, add_assoc a f.size]

lemma stores_behind (h : Stores n d es) {i : Nat} (behind : (image es).length ≤ i) (b : UInt8) :
    Stores n (store d i b) es := by
  refine ⟨holds_congr (fun j _ hj => store_other d b ?_) h.1, h.2⟩
  omega

lemma image_length (h : 0 < used es) : (image es).length = used es + 1 := by
  cases es with
  | nil => simp at h
  | cons e es => simp [image, closing, used]

lemma last_of_closed (h : Stores n d (pre ++ e :: post))
    (closed : d (used pre + e.text.length + 1) = 0) :
    post = [] := by
  have held := h.1
  rw [image_split, holds_append, zero_add] at held
  obtain ⟨-, hpost⟩ := holds_entry held.2
  have hsize := e.text_length
  cases post with
  | nil => rfl
  | cons f post =>
    apply absurd closed
    rw [add_assoc, hsize]
    exact entry_first_ne_zero (holds_entry hpost).1

lemma deleteEntry_of_stores (h : Stores n d (pre ++ e :: post)) :
    ∃ d', deleteEntry n d (used pre) (used pre + e.text.length) = some d' ∧
      Stores n d' (pre ++ post) := by
  obtain ⟨d', hdel, hstores, -⟩ := AreaEdit.deleteEntry_of_stores h
  simp only [SetEnv.deleteEntry] at hdel
  simp only [deleteEntry]
  split_ifs at hdel with hin hlast hpre
  · cases hdel
    obtain rfl := last_of_closed h hlast
    refine ⟨_, by rw [if_neg hin, if_pos hlast], ?_⟩
    apply stores_behind hstores
    rw [List.append_nil, image_length hpre]
  · cases hdel
    have hzero : used pre = 0 := Nat.eq_zero_of_not_pos hpre
    refine ⟨_, by rw [if_neg hin, if_pos hlast], ?_⟩
    rw [hzero]
    exact hstores
  · exact ⟨d', by rw [if_neg hin, if_neg hlast]; exact hdel, hstores⟩

/-- The effect of a call on the area, as in U-Boot for the names without a console or baud rate
behind them. -/
def fwEffect (n : Nat) (es : List Entry) (name : Name) (args : List CStr) : Effect :=
  if Defines es name ∧ (name.val = ethaddrName ∨ name.val = serialName) then .refused
  else if args = [] then .deleted
  else if TooLong n es name args then .overflowed
  else .stored

def EditOf (n : Nat) (es : List Entry) (name : Name) (args : List CStr)
    (res : Except Message Mem) : Effect → Prop
  | .refused => res = .error (.cantOverwrite name.val)
  | .overflowed => res = .error (.overflow name.val)
  | eff => ∃ d', res = .ok d' ∧ Stores n d' (entriesAfter es name args eff)

lemma appendDefinition_does (h : Stores n d (erase es name)) (args : List CStr)
    (allowed : ¬ (Defines es name ∧ (name.val = ethaddrName ∨ name.val = serialName))) :
    ∃ res, appendDefinition n d name.val (rawArgs args) = some res ∧
      EditOf n es name args res (fwEffect n es name args) := by
  rw [fwEffect, if_neg allowed]
  cases args with
  | nil => exact ⟨.ok d, rfl, d, rfl, h⟩
  | cons v vs =>
    have happ := appendOffset_of_stores h
    rw [if_neg (List.cons_ne_nil v vs)]
    by_cases hlong : TooLong n es name (v :: vs)
    · refine ⟨.error (.overflow name.val), ?_, ?_⟩
      · simp only [appendDefinition, rawArgs, List.map_cons, happ]
        exact if_pos hlong
      · rw [if_pos hlong]
        rfl
    · obtain ⟨hstores, -⟩ := stores_append h name v vs (not_lt.mp hlong)
      refine ⟨.ok (writeEntry d (used (erase es name)) name.val (rawArgs (v :: vs))), ?_, ?_⟩
      · simp only [appendDefinition, rawArgs, List.map_cons, happ]
        exact if_neg hlong
      · rw [if_neg hlong]
        exact ⟨_, rfl, hstores⟩

lemma editArea_does (h : Stores n d es) (name : Name) (args : List CStr) :
    ∃ res, editArea n d name.val (rawArgs args) = some res ∧
      EditOf n es name args res (fwEffect n es name args) := by
  obtain ⟨tail, htail⟩ := closing_eq_cons es
  have held : Holds d 0 (packed es ++ 0 :: tail) := htail ▸ h.1
  have hlt := used_lt_of_stores h
  have hle := length_le_used es
  by_cases hdef : Defines es name
  · obtain ⟨pre, e, post, rfl, hname, hpre, herase⟩ := split_at_first hdef
    have hfuel : pre.length < n + 1 := by simp at hle; omega
    have hsearch := search_present (n := n) (n + 1) held hpre hname (by omega) hfuel
    simp only [editArea, hsearch, zero_add]
    by_cases hread : name.val = ethaddrName ∨ name.val = serialName
    · refine ⟨_, if_pos hread, ?_⟩
      rw [fwEffect, if_pos ⟨hdef, hread⟩]
      rfl
    · obtain ⟨d', hdel, hstores⟩ := deleteEntry_of_stores h
      rw [if_neg hread, hdel]
      exact appendDefinition_does (herase ▸ hstores) args (fun both => hread both.2)
  · have hsearch := search_absent (n := n) (n + 1) held hdef (by omega) (by omega)
    simp only [editArea, hsearch]
    rw [← erase_not_defined hdef] at h
    exact appendDefinition_does h args (fun both => hdef both.1)

variable {tool : Tool} {flash : Flash}

lemma fwGetenv_of_stores (h : Stores n (envInit tool n flash).image.data es) (name : Name) :
    fwGetenv tool n flash name.val = some ((lookup es name).map Subtype.val) := by
  obtain ⟨tail, htail⟩ := closing_eq_cons es
  have held : Holds (envInit tool n flash).image.data 0 (packed es ++ 0 :: tail) := htail ▸ h.1
  have hlt := used_lt_of_stores h
  have hle := length_le_used es
  by_cases hdef : Defines es name
  · obtain ⟨pre, e, post, rfl, hname, hpre, -⟩ := split_at_first hdef
    have hfuel : pre.length < n + 1 := by simp at hle; omega
    have hsearch := search_present (n := n) (n + 1) held hpre hname (by omega) hfuel
    have hlook : lookup (pre ++ e :: post) name = some e.value := by
      rw [lookup_append, lookup_not_defined hpre, lookup_cons, if_pos hname]
      rfl
    have hvalue : Holds (envInit tool n flash).image.data (used pre + name.val.length + 1)
        (e.value.val ++ 0 :: (packed post ++ 0 :: tail)) := by
      rw [packed_append, List.append_assoc, holds_append, zero_add] at held
      obtain ⟨hentry, -⟩ := holds_entry held.2
      have hsplit : Holds (envInit tool n flash).image.data (used pre)
          (e.name.val ++ 61 :: (e.value.val ++ 0 :: (packed post ++ 0 :: tail))) := by
        simpa [Entry.text, used] using hentry
      rw [← hname]
      exact (holds_append.mp hsplit).2.2
    rw [used_append, used_cons] at hlt
    simp only [Entry.size] at hlt
    rw [hname] at hlt
    have hskip := skipToNul_text (n - (used pre + name.val.length + 1)) hvalue e.value.property
      (by omega)
    have hslice := slice_of_holds (holds_append.mp hvalue).1
    simp only [fwGetenv, hsearch, zero_add, hskip, hlook, Option.map_some,
      Nat.add_sub_cancel_left, hslice]
  · have hsearch := search_absent (n := n) (n + 1) held hdef (by omega) (by omega)
    simp only [fwGetenv, hsearch, lookup_not_defined hdef, Option.map_none]

/-- The copy `env_init` takes, as it lies on the flash. -/
def currentCopy (tool : Tool) (n : Nat) : Flash → EnvT
  | .single image => image
  | .redundant scheme c => c.get (devCurrent tool n scheme c)

lemma envInit_readable (crcOk : CrcOk n (currentCopy tool n flash)) :
    envInit tool n flash = ⟨[], currentCopy tool n flash⟩ := by
  cases flash with
  | single image => exact if_pos crcOk
  | redundant scheme c =>
    refine if_neg ?_
    rintro ⟨bad1, bad2⟩
    simp only [currentCopy] at crcOk
    cases hslot : devCurrent tool n scheme c with
    | one =>
      rw [hslot] at crcOk
      exact bad1 crcOk
    | two =>
      rw [hslot] at crcOk
      exact bad2 crcOk

/-- The copy a write produces is the one the next `env_init` takes. With two serials this fails
where `env_init` misjudges a wrap. -/
def ReadsBack (tool : Tool) (n : Nat) : Flash → Prop
  | .redundant .incremental c =>
    let current := devCurrent tool n .incremental c
    CrcOk n (c.get current) →
      FwEnv.Counts tool.charSigned (c.get current).flags current.other
  | _ => True

lemma devCurrent_boolean (tool : Tool) {c : Copies} {slot : Slot} (crcOk : CrcOk n (c.get slot))
    (active : (c.get slot).flags = activeFlag) (obsolete : (c.get slot.other).flags = obsoleteFlag)
    :
    devCurrent tool n .boolean c = slot := by
  have hfirst : flagBoolean tool.charSigned activeFlag obsoleteFlag = .one := by
    cases tool.charSigned <;> rfl
  have hsecond : flagBoolean tool.charSigned obsoleteFlag activeFlag = .two := by
    cases tool.charSigned <;> rfl
  cases slot with
  | one =>
    simp only [Copies.get, Slot.other] at crcOk active obsolete
    simp only [devCurrent, crcOk, active, obsolete, hfirst]
    split_ifs <;> first | rfl | simp_all
  | two =>
    simp only [Copies.get, Slot.other] at crcOk active obsolete
    simp only [devCurrent, crcOk, active, obsolete, hsecond]
    split_ifs <;> first | rfl | simp_all

lemma slot_of_ne_other {a b : Slot} (h : a ≠ b.other) : a = b := by
  cases a <;> cases b <;> first | rfl | exact absurd rfl h

lemma currentCopy_flashWrite {image : EnvT} (crcOk : CrcOk n image)
    (serial : image.flags = (currentCopy tool n flash).flags) :
    (ReadsBack tool n flash →
      (currentCopy tool n (flashWrite tool n flash image)).data = image.data ∧
      CrcOk n (currentCopy tool n (flashWrite tool n flash image))) ∧
    (¬ ReadsBack tool n flash →
      currentCopy tool n (flashWrite tool n flash image) = currentCopy tool n flash) := by
  cases flash with
  | single old => exact ⟨fun _ => ⟨rfl, crcOk⟩, fun h => absurd trivial h⟩
  | redundant scheme c =>
    cases scheme with
    | boolean =>
      refine ⟨fun _ => ?_, fun h => absurd trivial h⟩
      let slot := devCurrent tool n .boolean c
      let written := (c.put slot.other { image with flags := activeFlag }).put slot
        { c.get slot with flags := obsoleteFlag }
      have hnew : written.get slot.other = { image with flags := activeFlag } := by
        simp only [written]
        cases slot <;> rfl
      have hold : written.get slot.other.other = { c.get slot with flags := obsoleteFlag } := by
        simp only [written, Slot.other_other, Copies.get_put]
      have hcurrent : devCurrent tool n .boolean written = slot.other :=
        devCurrent_boolean tool (by rw [hnew]; exact crcOk) (by rw [hnew]) (by rw [hold])
      change (written.get (devCurrent tool n .boolean written)).data = image.data ∧
        CrcOk n (written.get (devCurrent tool n .boolean written))
      rw [hcurrent, hnew]
      exact ⟨rfl, crcOk⟩
    | incremental =>
      let slot := FwEnv.devCurrent tool.charSigned n c
      let next : EnvT := { image with flags := image.flags + 1 }
      have hput := FwEnv.devCurrent_put tool.charSigned c slot (show CrcOk n next from crcOk)
        (fun _ => congrArg (· + 1) serial)
      change (_ → ((c.put slot.other next).get
        (FwEnv.devCurrent tool.charSigned n (c.put slot.other next))).data = image.data ∧
        CrcOk n ((c.put slot.other next).get
          (FwEnv.devCurrent tool.charSigned n (c.put slot.other next)))) ∧
        (_ → (c.put slot.other next).get
          (FwEnv.devCurrent tool.charSigned n (c.put slot.other next)) = c.get slot)
      constructor
      · intro reads
        rw [hput.mpr reads, Copies.get_put]
        exact ⟨rfl, crcOk⟩
      · intro stuck
        rw [slot_of_ne_other (mt hput.mp stuck), Copies.get_put_other]

/-- On two copies in NAND flash a write is the save the tool makes between U-Boot's. -/
theorem fwSetenv_incremental {c : Copies} {name : List UInt8} {args : List (List UInt8)}
    {r : FwResult} {data : Mem}
    (edited : editArea n (envInit tool n (.redundant .incremental c)).image.data name args =
      some (.ok data)) (h : fwSetenv tool n (.redundant .incremental c) name args = some r) :
    let w := FwEnv.fwSetenv tool.charSigned n tool.defaultEnvironment (fun _ => data) c
    r.flash = .redundant .incremental (c.put w.1 w.2) := by
  simp only [fwSetenv, edited, Option.some.injEq] at h
  subst h
  have hinit : (envInit tool n (.redundant .incremental c)).image =
      FwEnv.envInit tool.charSigned n tool.defaultEnvironment c := by
    simp only [envInit, FwEnv.envInit, devCurrent]
    split_ifs <;> rfl
  simp only [flashWrite, hinit]
  rfl

def Settles (tool : Tool) (n : Nat) (flash : Flash) (es : List Entry) (name : Name)
    (args : List CStr) (fs : List Entry) : Effect → Prop
  | .refused => fs = es
  | .overflowed => fs = es
  | eff => (ReadsBack tool n flash → fs = entriesAfter es name args eff) ∧
      (¬ ReadsBack tool n flash → fs = es)

/-- One call of `fw_setenv`, described by its effect. -/
structure FwDoes (tool : Tool) (n : Nat) (flash : Flash) (es : List Entry) (name : Name)
    (args : List CStr) (eff : Effect) (r : FwResult) : Prop where
  rc_zero : r.rc = 0 ↔ eff = .deleted ∨ eff = .stored
  kept : eff = .refused ∨ eff = .overflowed → r.flash = flash
  crcOk : CrcOk n (currentCopy tool n r.flash)
  settles : ∃ fs, Stores n (currentCopy tool n r.flash).data fs ∧
    Settles tool n flash es name args fs eff

lemma fwSetenv_does (h : Stores n (currentCopy tool n flash).data es)
    (crcOk : CrcOk n (currentCopy tool n flash)) (name : Name) (args : List CStr) :
    ∃ r, fwSetenv tool n flash name.val (rawArgs args) = some r ∧
      FwDoes tool n flash es name args (fwEffect n es name args) r := by
  have hinit := envInit_readable crcOk
  obtain ⟨res, hedit, hres⟩ := editArea_does h name args
  -- the two ways to give up, and the two edits that are written
  have refuses : ∀ m, res = .error m →
      ∃ r, fwSetenv tool n flash name.val (rawArgs args) = some r ∧ r.rc = -1 ∧
        r.flash = flash := by
    rintro m rfl
    exact ⟨⟨-1, [] ++ [m], flash⟩, by simp only [fwSetenv, hinit, hedit], rfl, rfl⟩
  have writes : ∀ d', res = .ok d' → ∀ fs, Stores n d' fs →
      ∃ r, fwSetenv tool n flash name.val (rawArgs args) = some r ∧ r.rc = 0 ∧
        CrcOk n (currentCopy tool n r.flash) ∧
        ∃ gs, Stores n (currentCopy tool n r.flash).data gs ∧
          (ReadsBack tool n flash → gs = fs) ∧ (¬ ReadsBack tool n flash → gs = es) := by
    rintro d' rfl fs hfs
    let image := envCrcUpdate n { currentCopy tool n flash with data := d' }
    have hserial : image.flags = (currentCopy tool n flash).flags := rfl
    obtain ⟨hback, hlost⟩ := currentCopy_flashWrite (crcOk_update n _) hserial
    refine ⟨⟨0, [], flashWrite tool n flash image⟩, by simp only [fwSetenv, hinit, hedit, image],
      rfl, ?_⟩
    by_cases reads : ReadsBack tool n flash
    · obtain ⟨hdata, hcrc⟩ := hback reads
      have hstores : Stores n (currentCopy tool n (flashWrite tool n flash image)).data fs := by
        rw [hdata]
        exact hfs
      exact ⟨hcrc, fs, hstores, fun _ => rfl, fun h => absurd reads h⟩
    · have hsame : currentCopy tool n (flashWrite tool n flash image) = currentCopy tool n flash :=
        hlost reads
      simp only [hsame]
      exact ⟨crcOk, es, h, fun h => absurd h reads, fun _ => rfl⟩
  cases heff : fwEffect n es name args with
  | refused =>
    rw [heff] at hres
    obtain ⟨r, hr, hrc, hflash⟩ := refuses _ hres
    exact ⟨r, hr, by simp [hrc], fun _ => hflash, hflash ▸ crcOk, es, hflash ▸ h, rfl⟩
  | overflowed =>
    rw [heff] at hres
    obtain ⟨r, hr, hrc, hflash⟩ := refuses _ hres
    exact ⟨r, hr, by simp [hrc], fun _ => hflash, hflash ▸ crcOk, es, hflash ▸ h, rfl⟩
  | deleted =>
    rw [heff] at hres
    obtain ⟨d', hd, hstores⟩ := hres
    obtain ⟨r, hr, hrc, hcrc, settles⟩ := writes d' hd _ hstores
    exact ⟨r, hr, by simp [hrc], by simp, hcrc, settles⟩
  | stored =>
    rw [heff] at hres
    obtain ⟨d', hd, hstores⟩ := hres
    obtain ⟨r, hr, hrc, hcrc, settles⟩ := writes d' hd _ hstores
    exact ⟨r, hr, by simp [hrc], by simp, hcrc, settles⟩

end FwSetEnv
