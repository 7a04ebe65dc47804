import UBoot.Env.SetEnvSpec
import UBoot.Lib.Runs

/-!
# Saving the environment to NAND (common/env_nand.c, one copy)

`saveenv` writes the image as it is, checksum included; nothing recomputes it.
What a reboot loads therefore depends on every exit of `_do_setenv` leaving the
checksum right.
-/

namespace EnvNand

open ByteMemory EnvArea SetEnv AreaScan AreaEdit SetEnvSpec Runs

structure Nand where
  eraseSize : Nat
  eraseSize_pos : 0 < eraseSize
  isBad : Nat → Bool
  erase : Mem → Nat → Nat → Int × Mem
  write : Mem → Nat → List UInt8 → Int × Mem
  read : Mem → Nat → Nat → Int × List UInt8

structure Nand.Keeps (nand : Nand) : Prop where
  write : ∀ cells ofs buf, (nand.write cells ofs buf).1 = 0 →
    (nand.write cells ofs buf).2 = blit cells ofs buf
  read : ∀ cells ofs len, nand.read cells ofs len = (0, slice cells ofs len)

/-- CONFIG_ENV_OFFSET, CONFIG_ENV_RANGE and the default environment. -/
structure Layout where
  offset : Nat
  range : Nat
  defaultEnvironment : List UInt8

def headerSize : Nat := 4

def toBytes (e : EnvT) : Mem := blit (fun i => e.data (i - headerSize)) 0 (leBytes 4 e.crc.toNat)

/-- `(env_t *) buf`; there is no flags byte in this layout. -/
def ofBuffer (buf : Mem) : EnvT :=
  ⟨UInt32.ofNat (leValue (slice buf 0 4)), 0, fun i => buf (headerSize + i)⟩

/-- The loop of `writeenv`: the result code of the write that failed, or 0 and the amount saved. -/
def writeLoop (nand : Nand) (size stop : Nat) (buf : Mem) (offset saved : Nat) (cells : Mem) :
    Int × Mem × Nat :=
  if saved < size ∧ offset < stop then
    if nand.isBad offset then
      writeLoop nand size stop buf (offset + nand.eraseSize) saved cells
    else
      let len := min nand.eraseSize size
      let w := nand.write cells offset (slice buf saved len)
      if w.1 ≠ 0 then (w.1, w.2, saved)
      else writeLoop nand size stop buf (offset + nand.eraseSize) (saved + len) w.2
  else (0, cells, saved)
termination_by stop - offset
decreasing_by
  · have := nand.eraseSize_pos; omega
  · have := nand.eraseSize_pos; omega

def writeenv (nand : Nand) (layout : Layout) (size : Nat) (buf cells : Mem) : Int × Mem :=
  let w := writeLoop nand size (layout.offset + layout.range) buf layout.offset 0 cells
  if w.1 ≠ 0 then (1, w.2.1)
  else if w.2.2 ≠ size then (1, w.2.1)
  else (0, w.2.1)

def readLoop (nand : Nand) (size stop : Nat) (cells : Mem) (offset loaded : Nat) (buf : Mem) :
    Int × Mem × Nat :=
  if loaded < size ∧ offset < stop then
    if nand.isBad offset then
      readLoop nand size stop cells (offset + nand.eraseSize) loaded buf
    else
      let len := min nand.eraseSize size
      let r := nand.read cells offset len
      if r.1 ≠ 0 then (r.1, buf, loaded)
      else readLoop nand size stop cells (offset + nand.eraseSize) (loaded + len)
        (blit buf loaded r.2)
  else (0, buf, loaded)
termination_by stop - offset
decreasing_by
  · have := nand.eraseSize_pos; omega
  · have := nand.eraseSize_pos; omega

def readenv (nand : Nand) (layout : Layout) (size : Nat) (cells buf : Mem) : Int × Mem :=
  let r := readLoop nand size (layout.offset + layout.range) cells layout.offset 0 buf
  if r.1 ≠ 0 then (1, r.2.1)
  else if r.2.2 ≠ size then (1, r.2.1)
  else (0, r.2.1)

/-- `saveenv`; CONFIG_ENV_SIZE is the header and the `n` bytes of data. -/
def saveenv (nand : Nand) (layout : Layout) (n : Nat) (env : EnvT) (cells : Mem) : Int × Mem :=
  if layout.range < headerSize + n then (1, cells)
  else
    let e := nand.erase cells layout.offset layout.range
    if e.1 ≠ 0 then (1, e.2)
    else
      let w := writeenv nand layout (headerSize + n) (toBytes env) e.2
      if w.1 ≠ 0 then (1, w.2) else (0, w.2)

def setDefaultEnv (n : Nat) (layout : Layout) (env : EnvT) : EnvT :=
  if n < layout.defaultEnvironment.length then env
  else
    let zeroed : Mem := fun i => if i < n then 0 else env.data i
    envCrcUpdate n { env with data := blit zeroed 0 layout.defaultEnvironment }

structure Loaded where
  env : EnvT
  usedDefault : Bool

/-- `env_relocate_spec`; `buf` is the buffer `env_relocate` allocated for `env_ptr`. -/
def envRelocateSpec (nand : Nand) (layout : Layout) (n : Nat) (cells buf : Mem) : Loaded :=
  let r := readenv nand layout (headerSize + n) cells buf
  let env := ofBuffer r.2
  if r.1 ≠ 0 then ⟨setDefaultEnv n layout env, true⟩
  else if Crc32.crc32 0 (env.payload n) ≠ env.crc then ⟨setDefaultEnv n layout env, true⟩
  else ⟨env, false⟩

variable {nand : Nand} {buf cells' : Mem} {n : Nat} {layout : Layout}

lemma writeLoop_below (keeps : nand.Keeps) {size stop : Nat} (offset saved : Nat) (cells : Mem)
    {saved' : Nat} (h : writeLoop nand size stop buf offset saved cells = (0, cells', saved')) :
    saved ≤ saved' ∧ ∀ i, i < offset → cells' i = cells i := by
  fun_induction writeLoop nand size stop buf offset saved cells with
  | case1 offset saved cells hin hbad ih =>
    obtain ⟨hle, hbelow⟩ := ih h
    exact ⟨hle, fun i hi => hbelow i (by omega)⟩
  | case2 offset saved cells hin hgood len w hfail => simp_all
  | case3 offset saved cells hin hgood len w hok ih =>
    obtain ⟨hle, hbelow⟩ := ih h
    have hw : w.2 = blit cells offset (slice buf saved len) := keeps.write _ _ _ (by simpa using hok)
    refine ⟨by omega, fun i hi => ?_⟩
    rw [hbelow i (by omega), hw]
    exact blit_before _ _ hi
  | case4 offset saved cells hout =>
    obtain ⟨-, rfl, rfl⟩ := h
    exact ⟨le_rfl, fun _ _ => rfl⟩

lemma readLoop_writeLoop (keeps : nand.Keeps) {size stop : Nat} (offset saved : Nat) (cells : Mem)
    {saved' : Nat} (h : writeLoop nand size stop buf offset saved cells = (0, cells', saved'))
    (dst : Mem) :
    ∃ dst', readLoop nand size stop cells' offset saved dst = (0, dst', saved') ∧
      (∀ i, i < saved → dst' i = dst i) ∧
      ∀ i, saved ≤ i → i < saved' → dst' i = buf i := by
  fun_induction writeLoop nand size stop buf offset saved cells generalizing dst with
  | case1 offset saved cells hin hbad ih =>
    obtain ⟨dst', hrun, hold, hnew⟩ := ih h dst
    refine ⟨dst', ?_, hold, hnew⟩
    rw [readLoop, if_pos hin, if_pos hbad]
    exact hrun
  | case2 offset saved cells hin hgood len w hfail => simp_all
  | case3 offset saved cells hin hgood len w hok ih =>
    have hw : w.2 = blit cells offset (slice buf saved len) := keeps.write _ _ _ (by simpa using hok)
    obtain ⟨-, hbelow⟩ := writeLoop_below keeps _ _ _ h
    -- the block just written is still there at the end
    have hblock : slice cells' offset len = slice buf saved len := by
      have hheld : Holds cells' offset (slice buf saved len) := by
        refine holds_congr (fun i _ hi => ?_) (holds_blit cells offset (slice buf saved len))
        rw [slice_length] at hi
        rw [hbelow i (by omega), hw]
      have hslice := slice_of_holds hheld
      rwa [slice_length] at hslice
    obtain ⟨dst', hrun, hold, hnew⟩ := ih h (blit dst saved (slice buf saved len))
    refine ⟨dst', ?_, ?_, ?_⟩
    · rw [readLoop, if_pos hin, if_neg hgood]
      simp only [keeps.read]
      rw [if_neg (by simp)]
      change readLoop nand size stop cells' (offset + nand.eraseSize) (saved + len)
        (blit dst saved (slice cells' offset len)) = _
      rw [hblock]
      exact hrun
    · intro i hi
      rw [hold i (by omega)]
      exact blit_before _ _ hi
    · intro i hlo hhi
      by_cases hi : i < saved + len
      · rw [hold i hi, blit_slice _ _ hlo hi]
        congr 1
        omega
      · exact hnew i (by omega) hhi
  | case4 offset saved cells hout =>
    obtain ⟨-, rfl, rfl⟩ := h
    refine ⟨dst, ?_, fun _ _ => rfl, fun i hlo hhi => absurd hhi (by omega)⟩
    rw [readLoop, if_neg hout]

lemma toBytes_crc (e : EnvT) : slice (toBytes e) 0 4 = leBytes 4 e.crc.toNat := by
  have h := slice_of_holds (holds_blit (fun i => e.data (i - headerSize)) 0 (leBytes 4 e.crc.toNat))
  rwa [leBytes_length] at h

lemma toBytes_data (e : EnvT) (i : Nat) : toBytes e (headerSize + i) = e.data i := by
  have h : toBytes e (headerSize + i) = e.data (headerSize + i - headerSize) :=
    blit_after _ _ (by simp [headerSize])
  rwa [Nat.add_sub_cancel_left] at h

lemma ofBuffer_of_image {e : EnvT} (h : ∀ i, i < headerSize + n → buf i = toBytes e i) :
    (ofBuffer buf).crc = e.crc ∧ (ofBuffer buf).payload n = e.payload n := by
  constructor
  · have hcrc : slice buf 0 4 = leBytes 4 e.crc.toNat := by
      rw [← toBytes_crc e]
      refine slice_congr (fun i _ hi => h i ?_)
      simp only [headerSize]
      omega
    have hval : leValue (slice buf 0 4) = e.crc.toNat := by
      rw [hcrc, leValue_leBytes]
      exact Nat.mod_eq_of_lt e.crc.toNat_lt
    rw [ofBuffer, hval]
    exact UInt32.ofNat_toNat
  · refine slice_congr (fun i _ hi => ?_)
    have hi' := h (headerSize + i) (by omega)
    rw [toBytes_data] at hi'
    exact hi'

lemma writeenv_returns_zero {size : Nat} {cells : Mem}
    (h : writeenv nand layout size buf cells = (0, cells')) :
    writeLoop nand size (layout.offset + layout.range) buf layout.offset 0 cells =
      (0, cells', size) := by
  rcases hloop : writeLoop nand size (layout.offset + layout.range) buf layout.offset 0 cells with
    ⟨rc, cells1, saved⟩
  simp only [writeenv, hloop] at h
  by_cases hrc : rc = 0
  · by_cases hsize : saved = size
    · simp only [hrc, hsize, ne_eq, not_true_eq_false, if_false, Prod.mk.injEq, true_and] at h
      rw [hrc, hsize, h]
    · simp [hrc, hsize] at h
  · simp [hrc] at h

lemma saveenv_returns_zero {env : EnvT} {cells : Mem}
    (h : saveenv nand layout n env cells = (0, cells')) :
    writeenv nand layout (headerSize + n) (toBytes env)
      (nand.erase cells layout.offset layout.range).2 = (0, cells') := by
  rcases hwrite : writeenv nand layout (headerSize + n) (toBytes env)
    (nand.erase cells layout.offset layout.range).2 with ⟨rc, cells1⟩
  by_cases hrange : layout.range < headerSize + n
  · simp [saveenv, hrange] at h
  by_cases herase : (nand.erase cells layout.offset layout.range).1 = 0
  · by_cases hrc : rc = 0
    · simpa [saveenv, hrange, herase, hwrite, hrc] using h
    · simp [saveenv, hrange, herase, hwrite, hrc] at h
  · simp [saveenv, hrange, herase] at h

lemma relocate_after_save (keeps : nand.Keeps) {env : EnvT} (crcOk : CrcOk n env) {cells : Mem}
    (saved : saveenv nand layout n env cells = (0, cells')) (buf : Mem) :
    (envRelocateSpec nand layout n cells' buf).usedDefault = false ∧
      (envRelocateSpec nand layout n cells' buf).env.crc = env.crc ∧
      (envRelocateSpec nand layout n cells' buf).env.payload n = env.payload n := by
  have hloop := writeenv_returns_zero (saveenv_returns_zero saved)
  obtain ⟨buf', hread, -, hsame⟩ := readLoop_writeLoop keeps _ _ _ hloop buf
  have hreadenv : readenv nand layout (headerSize + n) cells' buf = (0, buf') := by
    simp [readenv, hread]
  obtain ⟨hcrc, hpayload⟩ := ofBuffer_of_image (e := env) (fun i hi => hsame i (by omega) hi)
  have hok : Crc32.crc32 0 ((ofBuffer buf').payload n) = (ofBuffer buf').crc := by
    rw [hcrc, hpayload]
    exact crcOk.symm
  simp only [envRelocateSpec, hreadenv, ne_eq, not_true_eq_false, if_false, hok]
  exact ⟨trivial, hcrc, hpayload⟩

def hyq2440 : Config :=
  ⟨0x20000 - headerSize, [9600, 19200, 38400, 57600, 115200], fun _ _ => 0, []⟩

def padding (k : Nat) : Entry :=
  ⟨⟨[120], by decide⟩, ⟨List.replicate k 65, fun h => by simp [List.mem_replicate] at h⟩⟩

def small : Entry := ⟨⟨[97], by decide⟩, ⟨[98], by decide⟩⟩

def boardWith (es : List Entry) : Board :=
  ⟨envCrcUpdate hyq2440.envSize ⟨0, 0, ofBytes (image es)⟩, 0, 115200, 0, 0, []⟩

lemma padding_size (k : Nat) : (padding k).size = k + 3 := by
  simp only [Entry.size, padding, List.length_replicate, List.length_singleton]
  omega

lemma padding_not_small (k : Nat) : (padding k).name ≠ small.name := by
  simp [padding, small]

lemma boardWith_crcOk (es : List Entry) : CrcOk hyq2440.envSize (boardWith es).env :=
  crcOk_update _ _

lemma boardWith_stores {k : Nat} (room : k + 8 ≤ hyq2440.envSize) :
    Stores hyq2440.envSize (boardWith [padding k, small]).env.data [padding k, small] := by
  refine ⟨holds_ofBytes _, ?_⟩
  have hused : used [padding k, small] = k + 7 := by
    simp only [used_cons, used_nil, padding_size]
    rfl
  rw [image, closing_of_ne (by simp), List.length_append]
  change used [padding k, small] + 1 ≤ _
  omega

def setenvStep (cfg : Config) (b : Board) (c : Name × List CStr) : Option Board :=
  (doSetenv cfg b c.1.val (rawArgs c.2)).map SetResult.board

def DeletesThenOverflows (cfg : Config) (b : Board) (c : Name × List CStr) : Prop :=
  ∃ es, Stores cfg.envSize b.env.data es ∧ Defines es c.1 ∧
    effect cfg b.baudrate es c.1 c.2 = .overflowed

/-- What the calls keep as long as none of them deletes and then overflows. -/
structure Sound (cfg : Config) (b : Board) : Prop where
  stores : ∃ es, Stores cfg.envSize b.env.data es
  crcOk : CrcOk cfg.envSize b.env

lemma sound_setenv {cfg : Config} {b : Board} (h : Sound cfg b) {c : Name × List CStr}
    (ok : ¬ DeletesThenOverflows cfg b c) :
    ∃ t, setenvStep cfg b c = some t ∧ Sound cfg t := by
  obtain ⟨es, hes⟩ := h.stores
  obtain ⟨r, hr, does⟩ := doSetenv_does cfg b hes c.1 c.2
  refine ⟨r.board, by simp [setenvStep, hr], ⟨_, does.stores⟩, ?_⟩
  cases heff : effect cfg b.baudrate es c.1 c.2 with
  | refused =>
    rw [does.untouched heff]
    exact h.crcOk
  | deleted => exact does.crc_updated (.inl heff)
  | stored => exact does.crc_updated (.inr heff)
  | overflowed =>
    have hfresh : ¬ Defines es c.1 := fun hdef => ok ⟨es, hes, hdef, heff⟩
    rw [does.not_edited heff hfresh]
    exact h.crcOk

/-- As long as no call deletes a definition and then overflows, the checksum is right after each
call, and a save made there is what a reboot loads. -/
theorem checksum_follows_calls (cfg : Config) {b : Board} {es : List Entry}
    (start : Stores cfg.envSize b.env.data es) (crcOk : CrcOk cfg.envSize b.env)
    {nand : Nand} (keeps : nand.Keeps) (layout : Layout) (calls : List (Name × List CStr))
    (meet : StepsMeet (setenvStep cfg) (fun s c => ¬ DeletesThenOverflows cfg s c) b calls)
    (done todo : List (Name × List CStr)) (split : calls = done ++ todo) :
    ∃ t, runFrom (setenvStep cfg) b done = some t ∧ CrcOk cfg.envSize t.env ∧
      ∀ cells cells', saveenv nand layout cfg.envSize t.env cells = (0, cells') → ∀ buf,
        (envRelocateSpec nand layout cfg.envSize cells' buf).usedDefault = false ∧
        (envRelocateSpec nand layout cfg.envSize cells' buf).env.crc = t.env.crc ∧
        (envRelocateSpec nand layout cfg.envSize cells' buf).env.payload cfg.envSize =
          t.env.payload cfg.envSize := by
  subst split
  have hstart : Sound cfg b := ⟨⟨es, start⟩, crcOk⟩
  obtain ⟨t, hrun, ht⟩ := invariant_of_run (fun s c hs hok => sound_setenv hs hok) hstart
    (stepsMeet_append.mp meet).1
  refine ⟨t, hrun, ht.crcOk, fun cells cells' saved buf => ?_⟩
  exact relocate_after_save keeps ht.crcOk saved buf

def plainNand : Nand where
  eraseSize := 0x20000
  eraseSize_pos := by decide
  isBad _ := false
  erase cells ofs len := (0, fun i => if ofs ≤ i ∧ i < ofs + len then 0xff else cells i)
  write cells ofs buf := (0, blit cells ofs buf)
  read cells ofs len := (0, slice cells ofs len)

lemma plainNand_keeps : plainNand.Keeps := ⟨fun _ _ _ _ => rfl, fun _ _ _ => rfl⟩

theorem checksum_follows_deletion :
    ∃ t, runFrom (setenvStep hyq2440) (boardWith [padding 131000, small]) [(small.name, [])] =
        some t ∧ CrcOk hyq2440.envSize t.env ∧
      ∀ cells cells', saveenv plainNand ⟨0x60000, 0x20000, []⟩ hyq2440.envSize t.env cells =
        (0, cells') → ∀ buf,
        (envRelocateSpec plainNand ⟨0x60000, 0x20000, []⟩ hyq2440.envSize cells' buf).env.payload
          hyq2440.envSize = t.env.payload hyq2440.envSize := by
  obtain ⟨t, hrun, hcrc, hload⟩ := checksum_follows_calls hyq2440
    (boardWith_stores (k := 131000) (by decide)) (boardWith_crcOk _)
    plainNand_keeps ⟨0x60000, 0x20000, []⟩ [(small.name, [])]
    ⟨fun ⟨_, _, _, eff⟩ => effect_no_args _ _ _ _ eff, fun _ _ => trivial⟩
    [(small.name, [])] [] rfl
  exact ⟨t, hrun, hcrc, fun cells cells' saved buf => (hload cells cells' saved buf).2.2⟩

variable {pre : List Entry}

lemma deleteEntry_last {d : Mem} {e : Entry} (h : Stores n d (pre ++ [e])) (others : pre ≠ []) :
    deleteEntry n d (used pre) (used pre + e.text.length) = some (store d (used pre) 0) ∧
      d (used pre) ≠ 0 ∧ used pre < n := by
  have hlt := used_lt_of_stores h
  have hroom := h.2
  have hheld := h.1
  rw [image_split] at hheld hroom
  rw [holds_append, zero_add] at hheld
  obtain ⟨hentry, hclosing⟩ := holds_entry hheld.2
  have hsize := e.text_length
  rw [used_append, used_cons, used_nil] at hlt
  have hnext : used pre + e.text.length + 1 = used pre + e.size := by omega
  have hclosed : d (used pre + e.size) = 0 := hclosing.1
  have hin : ¬ n ≤ used pre + e.size := by omega
  have hpos : 0 < used pre := by
    obtain ⟨f, fs, rfl⟩ := List.exists_cons_of_ne_nil others
    rw [used_cons]
    simp only [Entry.size]
    omega
  refine ⟨?_, entry_first_ne_zero hentry, by omega⟩
  simp only [deleteEntry, hnext, if_neg hin, if_pos hclosed, if_pos hpos]

lemma payload_store_ne {e : EnvT} {a : Nat} (inside : a < n) (differ : e.data a ≠ 0) :
    Crc32.crc32 0 (e.payload n) ≠
      Crc32.crc32 0 ({ e with data := store e.data a 0 }.payload n) := by
  have hsplit : ∀ d : Mem, slice d 0 n = slice d 0 a ++ d a :: slice d (a + 1) (n - a - 1) := by
    intro d
    have hn : n = a + ((n - a - 1) + 1) := by omega
    conv_lhs => rw [hn]
    rw [slice_append, zero_add, slice]
  have hbefore : slice (store e.data a 0) 0 a = slice e.data 0 a :=
    slice_congr (fun i _ hi => store_other _ 0 (by omega))
  have hafter : slice (store e.data a 0) (a + 1) (n - a - 1) = slice e.data (a + 1) (n - a - 1) :=
    slice_congr (fun i hi _ => store_other _ 0 (by omega))
  simp only [EnvT.payload]
  rw [hsplit e.data, hsplit (store e.data a 0), hbefore, hafter, store_same]
  exact Crc32.crc32_detects_byte 0 _ _ differ

lemma last_definition {pre' post : List Entry} {e e' : Entry}
    (split : pre ++ [e] = pre' ++ e' :: post) (same : e'.name = e.name)
    (fresh : ¬ Defines pre e.name) : pre' = pre ∧ e' = e := by
  rcases List.eq_nil_or_concat post with rfl | ⟨q, x, rfl⟩
  · obtain ⟨hpre, he⟩ := List.append_inj' split rfl
    exact ⟨hpre.symm, by simpa using he.symm⟩
  have hassoc : pre ++ [e] = (pre' ++ e' :: q) ++ [x] := by
    simpa using split
  obtain ⟨hpre, -⟩ := List.append_inj' hassoc rfl
  exact absurd ⟨e', by simp [hpre], same⟩ fresh

lemma overflow_after_last_entry {cfg : Config} {b : Board} {e : Entry}
    (h : Stores cfg.envSize b.env.data (pre ++ [e])) (others : pre ≠ [])
    (fresh : ¬ Defines pre e.name) (crcOk : CrcOk cfg.envSize b.env) {args : List CStr}
    (eff : effect cfg b.baudrate (pre ++ [e]) e.name args = .overflowed) :
    ∃ t, setenvStep cfg b (e.name, args) = some t ∧ ¬ CrcOk cfg.envSize t.env := by
  obtain ⟨hdel, hopen, hin⟩ := deleteEntry_last h others
  obtain ⟨r, hr, does⟩ := doSetenv_does cfg b h e.name args
  refine ⟨r.board, by simp [setenvStep, hr], fun hok => ?_⟩
  have hstale := does.crc_stale eff
  have hdata : r.board.env.data = store b.env.data (used pre) 0 := by
    obtain ⟨pre', e', post', hsplit, hname, -, hdel'⟩ :=
      does.old_gone eff ⟨e, by simp, rfl⟩
    obtain ⟨rfl, rfl⟩ := last_definition hsplit hname fresh
    exact Option.some.inj (hdel'.symm.trans hdel)
  apply payload_store_ne (e := b.env) hin hopen
  have hpayload : r.board.env.payload cfg.envSize =
      slice (store b.env.data (used pre) 0) 0 cfg.envSize := by
    rw [EnvT.payload, hdata]
  have hsame : r.board.env.crc = Crc32.crc32 0 (r.board.env.payload cfg.envSize) := hok
  rw [hstale, hpayload] at hsame
  exact crcOk.symm.trans hsame

def tooLong : CStr := ⟨List.replicate 62 99, by decide⟩

lemma boardWith_effect {k : Nat} (full : hyq2440.envSize = k + 68) :
    effect hyq2440 115200 ([padding k] ++ [small]) small.name [tooLong] = .overflowed := by
  have hrefusal : refusal hyq2440 115200 ([padding k] ++ [small]) small.name [tooLong] = none := by
    have hconsole : checkConsole hyq2440 small.name.val (rawArgs [tooLong]) = none := by decide
    have hdelete : checkDelete hyq2440 small.name.val (rawArgs [tooLong]) 115200 =
        .ok ([], 115200) := rfl
    simp only [refusal, hconsole, hdelete]
    split_ifs <;> rfl
  have hlong : TooLong hyq2440.envSize ([padding k] ++ [small]) small.name [tooLong] := by
    have herase : erase ([padding k] ++ [small]) small.name = [padding k] := by
      simp [erase, padding_not_small]
    have hneed : neededLen small.name.val (rawArgs [tooLong]) = 66 := by decide
    rw [TooLong, herase, used_cons, used_nil, padding_size, hneed, full]
    omega
  rw [effect, hrefusal, if_neg (by simp), if_neg (by simp), if_pos hlong]

/-- "a=b" is deleted, its replacement does not fit, and the checksum is still the old one. -/
theorem overflow_leaves_stale_checksum :
    Stores hyq2440.envSize (boardWith [padding 131000, small]).env.data [padding 131000, small] ∧
      CrcOk hyq2440.envSize (boardWith [padding 131000, small]).env ∧
      ∃ t, runFrom (setenvStep hyq2440) (boardWith [padding 131000, small])
          [(small.name, [tooLong])] = some t ∧
        ¬ CrcOk hyq2440.envSize t.env := by
  have hstores : Stores hyq2440.envSize (boardWith [padding 131000, small]).env.data
      ([padding 131000] ++ [small]) := boardWith_stores (by decide)
  have hfresh : ¬ Defines [padding 131000] small.name := by
    rintro ⟨e, he, hname⟩
    rw [List.mem_singleton.mp he] at hname
    exact padding_not_small _ hname
  obtain ⟨t, hstep, hstale⟩ := overflow_after_last_entry hstores
    (List.cons_ne_nil _ _) hfresh (boardWith_crcOk _) (boardWith_effect rfl)
  exact ⟨hstores, boardWith_crcOk _, t, runFrom_cons hstep [], hstale⟩

end EnvNand
