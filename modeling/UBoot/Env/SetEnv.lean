import UBoot.Env.Crc32
import UBoot.Lib.ByteMemory
import UBoot.Lib.NumberText

/-!
# The environment area

"name=value" strings, each closed by a NUL, the last one followed by a second
NUL. An entry carries the proofs that it can be written and read back: no NUL
anywhere and no '=' in the name.
-/

namespace EnvArea

open ByteMemory

/-- A C string: the bytes before the terminating NUL. -/
abbrev CStr := {s : List UInt8 // (0 : UInt8) ∉ s}

abbrev Name := {s : List UInt8 // (0 : UInt8) ∉ s ∧ (61 : UInt8) ∉ s}

structure Entry where
  name : Name
  value : CStr
  deriving DecidableEq

namespace Entry

def text (e : Entry) : List UInt8 := e.name.val ++ 61 :: e.value.val

def size (e : Entry) : Nat := e.name.val.length + e.value.val.length + 2

lemma text_length (e : Entry) : e.text.length + 1 = e.size := by
  simp [text, size]; omega

lemma text_no_nul (e : Entry) : (0 : UInt8) ∉ e.text := by
  simp [text, e.name.property.1, e.value.property]

lemma text_ne_nil (e : Entry) : e.text ≠ [] := by simp [text]

end Entry

variable {es : List Entry}

/-- The entries one after the other, each with its NUL. -/
def packed (es : List Entry) : List UInt8 := es.flatMap (fun e => e.text ++ [0])

/-- What closes the list: the second NUL, or both when there is no entry. -/
def closing : List Entry → List UInt8
  | [] => [0, 0]
  | _ :: _ => [0]

def image (es : List Entry) : List UInt8 := packed es ++ closing es

def used (es : List Entry) : Nat := (packed es).length

@[simp] theorem packed_nil : packed [] = [] := rfl
@[simp] theorem used_nil : used [] = 0 := rfl

lemma packed_cons (e : Entry) (es : List Entry) :
    packed (e :: es) = e.text ++ 0 :: packed es := by
  simp [packed]

lemma packed_append (es fs : List Entry) : packed (es ++ fs) = packed es ++ packed fs := by
  simp [packed]

lemma used_cons (e : Entry) (es : List Entry) : used (e :: es) = e.size + used es := by
  have h := e.text_length
  simp only [used, packed_cons, List.length_append, List.length_cons]
  omega

lemma used_append (es fs : List Entry) : used (es ++ fs) = used es + used fs := by
  simp [used, packed_append]

lemma closing_of_ne (h : es ≠ []) : closing es = [0] := by
  cases es with
  | nil => exact False.elim (h rfl)
  | cons e es => rfl

lemma closing_eq_cons (es : List Entry) : ∃ tail, closing es = 0 :: tail := by
  cases es with
  | nil => exact ⟨[0], rfl⟩
  | cons e es => exact ⟨[], rfl⟩

lemma length_le_used (es : List Entry) : es.length ≤ used es := by
  induction es with
  | nil => simp
  | cons e es ih =>
    rw [used_cons]
    simp only [Entry.size, List.length_cons]
    omega

lemma image_length_ge (es : List Entry) : used es + 1 ≤ (image es).length := by
  cases es with
  | nil => simp [image, closing]
  | cons e es => simp [image, closing, used]

/-- The area of `n` bytes at address 0 of `d` holds exactly these entries. -/
def Stores (n : Nat) (d : Mem) (es : List Entry) : Prop :=
  Holds d 0 (image es) ∧ (image es).length ≤ n

def Distinct (es : List Entry) : Prop :=
  (es.map Entry.name).Nodup ∧ ∀ e ∈ es, e.name.val ≠ []

def WellFormed (n : Nat) (d : Mem) : Prop := ∃ es, Stores n d es ∧ Distinct es

def lookup (es : List Entry) (name : Name) : Option CStr :=
  (es.find? (fun e => e.name = name)).map Entry.value

def erase (es : List Entry) (name : Name) : List Entry :=
  es.eraseP (fun e => e.name = name)

def Defines (es : List Entry) (name : Name) : Prop := ∃ e ∈ es, e.name = name

instance (es : List Entry) (name : Name) : Decidable (Defines es name) :=
  inferInstanceAs (Decidable (∃ e ∈ es, e.name = name))

lemma erase_not_defined {name : Name} (h : ¬ Defines es name) :
    erase es name = es := by
  apply List.eraseP_of_forall_not
  intro e he heq
  exact h ⟨e, he, by simpa using heq⟩

lemma split_at_first {name : Name} (h : Defines es name) :
    ∃ pre e post, es = pre ++ e :: post ∧ e.name = name ∧ ¬ Defines pre name ∧
      erase es name = pre ++ post := by
  obtain ⟨e, he, hname⟩ := h
  obtain ⟨f, pre, post, hpre, hf, hes, herase⟩ :=
    List.exists_of_eraseP (p := fun e => decide (e.name = name)) he (by simpa using hname)
  refine ⟨pre, f, post, hes, by simpa using hf, ?_, herase⟩
  rintro ⟨g, hg, hgname⟩
  exact hpre g hg (by simpa using hgname)

lemma erase_sublist (es : List Entry) (name : Name) : (erase es name).Sublist es :=
  List.eraseP_sublist

end EnvArea

/-!
## Setting and reading variables (common/cmd_nvedit.c)

The board is the configured one: CONFIG_ENV_OVERWRITE, CONFIG_HAS_UID and
CONFIG_CONSOLE_MUX are unset, CONFIG_CMD_NET is set. The environment has been
relocated to RAM, so `env_get_addr(0)` is `env_ptr->data`. `none` is a read or
write outside the area, or a string read past its end. Waiting for ENTER after
a change of baud rate has no effect on any state and is left out.
-/

namespace SetEnv

open ByteMemory EnvArea NumberText

/-- `env_t`; the flags byte exists in the redundant layout only. -/
structure EnvT where
  crc : UInt32
  flags : UInt8
  data : Mem

/-- What `_do_setenv` reads besides the environment: ENV_SIZE, the baud rate table,
`console_assign` and the string found at address 0. -/
structure Config where
  envSize : Nat
  baudrateTable : List UInt32
  consoleAssign : Nat → List UInt8 → Int
  textAtNull : List UInt8

structure Board where
  env : EnvT
  envId : Nat
  baudrate : UInt32
  biIpAddr : UInt32
  loadAddr : UInt32
  bootFile : List UInt8

inductive Message where
  | illegalCharacter (name : List UInt8)  -- ## Error: illegal character '=' in variable name "%s"
  | cantDelete (name : List UInt8)        -- Can't delete "%s"
  | cantOverwrite (name : List UInt8)     -- Can't overwrite "%s"
  | baudUnsupported (rate : UInt32)       -- ## Baudrate %d bps not supported
  | baudSwitch (rate : UInt32)            -- ## Switch baudrate to %d bps and press ENTER ...
  | overflow (name : List UInt8)          -- ## Error: environment overflow, "%s" deleted
  deriving DecidableEq

structure SetResult where
  rc : Int
  out : List Message
  board : Board

def EnvT.payload (n : Nat) (e : EnvT) : List UInt8 := slice e.data 0 n

/-- `env_ptr->crc == crc32(0, env_ptr->data, ENV_SIZE)`. -/
def CrcOk (n : Nat) (e : EnvT) : Prop := e.crc = Crc32.crc32 0 (e.payload n)

instance (n : Nat) (e : EnvT) : Decidable (CrcOk n e) :=
  inferInstanceAs (Decidable (e.crc = Crc32.crc32 0 (e.payload n)))

def envCrcUpdate (n : Nat) (e : EnvT) : EnvT := { e with crc := Crc32.crc32 0 (e.payload n) }

/-- `for (nxt = env; *nxt; ++nxt) ;` with so many bytes of the area left. -/
def skipToNul (d : Mem) : Nat → Nat → Option Nat
  | 0, _ => none
  | left + 1, nxt => if d nxt = 0 then some nxt else skipToNul d left (nxt + 1)

/-- Two NULs compare equal in the source too, and then both strings are read past their end. -/
def envmatch (d : Mem) : List UInt8 → Nat → Option Int
  | [], i2 =>
    if d i2 = 0 then none
    else if d i2 = 61 then some (i2 + 1) else some (-1)
  | c :: s1, i2 =>
    if c = d i2 then
      if c = 61 then some (i2 + 1) else envmatch d s1 (i2 + 1)
    else some (-1)

structure Found where
  oldval : Int
  env : Nat
  nxt : Nat

def search (n : Nat) (d : Mem) (name : List UInt8) : Nat → Nat → Nat → Option Found
  | 0, _, _ => none
  | fuel + 1, env, nxt =>
    if n ≤ env then none
    else if d env = 0 then some ⟨-1, env, nxt⟩
    else match skipToNul d (n - env) env with
      | none => none
      | some nxt => match envmatch d name env with
        | none => none
        | some oldval =>
          if 0 ≤ oldval then some ⟨oldval, env, nxt⟩ else search n d name fuel (nxt + 1) nxt

/-- `for (;;) { *env = *nxt++; if ((*env == 0) && (*nxt == 0)) break; ++env; }`. -/
def shiftDown (d : Mem) : Nat → Nat → Nat → Option (Mem × Nat)
  | 0, _, _ => none
  | left + 1, env, nxt =>
    let d := store d env (d nxt)
    if d env = 0 ∧ d (nxt + 1) = 0 then some (d, env) else shiftDown d left (env + 1) (nxt + 1)

/-- Delete the entry at `env`, whose NUL is at `nxt`. -/
def deleteEntry (n : Nat) (d : Mem) (env nxt : Nat) : Option Mem :=
  let nxt := nxt + 1
  if n ≤ nxt then none
  else if d nxt = 0 then
    if 0 < env then some (store d env 0) else some (store (store d 0 0) 1 0)
  else match shiftDown d (n - 1 - nxt) env nxt with
    | none => none
    | some (d, env) => some (store d (env + 1) 0)

/-- `for (env=env_data; *env || *(env+1); ++env) ;`. -/
def findEnd (d : Mem) : Nat → Nat → Option Nat
  | 0, _ => none
  | left + 1, env =>
    if d env = 0 ∧ d (env + 1) = 0 then some env else findEnd d left (env + 1)

/-- `strlen(name) + 2`, and for each argument its length and the '=' or ' ' before it. -/
def neededLen (name : List UInt8) (args : List (List UInt8)) : Nat :=
  name.length + 2 + (args.map (fun v => v.length + 1)).sum

/-- Copy the arguments, each after its separator; every copy also stores a NUL. -/
def copyArgs (d : Mem) (env : Nat) : UInt8 → List (List UInt8) → Mem × Nat
  | _, [] => (d, env)
  | sep, v :: vs =>
    copyArgs (blit (store d env sep) (env + 1) (v ++ [0])) (env + 1 + v.length) 32 vs

def writeEntry (d : Mem) (env : Nat) (name : List UInt8) (args : List (List UInt8)) : Mem :=
  let (d, env) := copyArgs (blit d env (name ++ [0])) (env + name.length) 61 args
  store d (env + 1) 0

def appendOffset (n : Nat) (d : Mem) : Option Nat :=
  match findEnd d (n - 1) 0 with
  | none => none
  | some env => some (if 0 < env then env + 1 else env)

-- "stdin", "stdout", "stderr", "serial#", "ethaddr", "baudrate", "ipaddr", "loadaddr", "bootfile"
def stdinName : List UInt8 := [115, 116, 100, 105, 110]
def stdoutName : List UInt8 := [115, 116, 100, 111, 117, 116]
def stderrName : List UInt8 := [115, 116, 100, 101, 114, 114]
def serialName : List UInt8 := [115, 101, 114, 105, 97, 108, 35]
def ethaddrName : List UInt8 := [101, 116, 104, 97, 100, 100, 114]
def baudrateName : List UInt8 := [98, 97, 117, 100, 114, 97, 116, 101]
def ipaddrName : List UInt8 := [105, 112, 97, 100, 100, 114]
def loadaddrName : List UInt8 := [108, 111, 97, 100, 97, 100, 100, 114]
def bootfileName : List UInt8 := [98, 111, 111, 116, 102, 105, 108, 101]

def consoleFile (name : List UInt8) : Option Nat :=
  if name = stdinName then some 0
  else if name = stdoutName then some 1
  else if name = stderrName then some 2
  else none

def checkConsole (cfg : Config) (name : List UInt8) (args : List (List UInt8)) :
    Option (List Message) :=
  match consoleFile name with
  | none => none
  | some console => match args with
    | [] => some [.cantDelete name]
    | dev :: _ => if cfg.consoleAssign console dev < 0 then some [] else none

/-- The checks made before an existing definition is deleted: refused, or the messages
printed and the baud rate in force afterwards. -/
def checkDelete (cfg : Config) (name : List UInt8) (args : List (List UInt8)) (baud : UInt32) :
    Except (List Message) (List Message × UInt32) :=
  if name = serialName ∨ name = ethaddrName then .error [.cantOverwrite name]
  else if name = baudrateName then
    let rate := (simpleStrtoul (args.headD cfg.textAtNull) 10).1
    if rate ∈ cfg.baudrateTable then .ok ([.baudSwitch rate], rate)
    else .error [.baudUnsupported rate]
  else .ok ([], baud)

def htonl (x : UInt32) : UInt32 :=
  (x <<< 24) ||| ((x &&& (0xff00 : UInt32)) <<< 8) ||| ((x >>> 8) &&& (0xff00 : UInt32)) |||
    (x >>> 24)

/-- The four-part loop over an address; `s` stays at the end of the text once there. -/
def parseIp : Nat → List UInt8 → UInt32 → UInt32
  | 0, _, addr => addr
  | i + 1, s, addr =>
    let (val, e) := simpleStrtoul s 10
    parseIp i (e.drop 1) ((addr <<< 8) ||| (val &&& (0xff : UInt32)))

/-- `copy_filename (dst, src, size)`: the text between the quotes, if it starts with one. -/
def copyFilename (src : List UInt8) (size : Nat) : List UInt8 :=
  match src with
  | 34 :: rest => (rest.takeWhile (· ≠ 34)).take (size - 2)
  | _ => (src.takeWhile (· ≠ 34)).take (size - 1)

def afterSet (b : Board) (name : List UInt8) (value : List UInt8) : Board :=
  if name = ethaddrName then b
  else if name = ipaddrName then { b with biIpAddr := htonl (parseIp 4 value 0) }
  else if name = loadaddrName then { b with loadAddr := (simpleStrtoul value 16).1 }
  else if name = bootfileName then { b with bootFile := copyFilename value 128 }
  else b

/-- From "Delete only ?" on: `b` holds the area after the deletion, if there was one. -/
def appendDefinition (cfg : Config) (b : Board) (out : List Message) (name : List UInt8)
    (args : List (List UInt8)) : Option SetResult :=
  let n := cfg.envSize
  match args with
  | [] => some ⟨0, out, { b with env := envCrcUpdate n b.env }⟩
  | value :: _ => match appendOffset n b.env.data with
    | none => none
    | some env =>
      if n - env < neededLen name args then some ⟨1, out ++ [.overflow name], b⟩
      else
        let data := writeEntry b.env.data env name args
        let env := envCrcUpdate n { b.env with data := data }
        some ⟨0, out, afterSet { b with env := env } name value⟩

/-- `_do_setenv (flag, argc, argv)` with `argv[1]` the name and `argv[2]` .. the arguments. -/
def doSetenv (cfg : Config) (b : Board) (name : List UInt8) (args : List (List UInt8)) :
    Option SetResult :=
  let n := cfg.envSize
  if 61 ∈ name then some ⟨1, [.illegalCharacter name], b⟩
  else
    let b := { b with envId := b.envId + 1 }
    match search n b.env.data name (n + 1) 0 0 with
    | none => none
    | some found => match checkConsole cfg name args with
      | some out => some ⟨1, out, b⟩
      | none =>
        if 0 ≤ found.oldval then
          match checkDelete cfg name args b.baudrate with
          | .error out => some ⟨1, out, b⟩
          | .ok (out, baud) => match deleteEntry n b.env.data found.env found.nxt with
            | none => none
            | some data =>
              appendDefinition cfg { b with baudrate := baud, env := { b.env with data := data } }
                out name args
        else appendDefinition cfg b [] name args

/-- The inner loop of `getenv`: the NUL that ends the string at `nxt`, and NULL once the
index has passed CONFIG_ENV_SIZE. -/
def getenvSkip (d : Mem) : Nat → Nat → Option Nat
  | 0, nxt => if d nxt = 0 then some nxt else none
  | left + 1, nxt => if d nxt = 0 then some nxt else getenvSkip d left (nxt + 1)

/-- `getenv`: the index of the value, -1 for NULL. `header` is ENV_HEADER_SIZE. -/
def getenvLoop (n header : Nat) (d : Mem) (name : List UInt8) : Nat → Nat → Option Int
  | 0, _ => none
  | fuel + 1, i =>
    if d i = 0 then some (-1)
    else match getenvSkip d (n + header - i) i with
      | none => some (-1)
      | some nxt => match envmatch d name i with
        | none => none
        | some val => if val < 0 then getenvLoop n header d name fuel (nxt + 1) else some val

/-- The string the caller of `getenv` reads at the address it gets. -/
def getenv (n header : Nat) (d : Mem) (name : List UInt8) : Option (Option (List UInt8)) :=
  match getenvLoop n header d name (n + header + 1) 0 with
  | none => none
  | some val =>
    if val < 0 then some none
    else match skipToNul d (n - val.toNat) val.toNat with
      | none => none
      | some e => some (some (slice d val.toNat (e - val.toNat)))

end SetEnv
