import UBoot.Lib.ByteOrder

/-!
# Writing to CFI flash (drivers/mtd/cfi_flash.c)

`write_buff` with and without CONFIG_SYS_FLASH_USE_BUFFER_WRITE, on a little-endian processor.
A command sequence that programs a word or a buffer is one `Op`, and what the chips make of it a
`Reaction`. The sectors at which commands are sent, delays and messages are left out.
-/

namespace CfiFlash

open LittleEndian

abbrev Mem := Nat → UInt8

inductive Vendor where
  | intelProgRegions
  | intelStandard
  | intelExtended
  | amdStandard
  | amdExtended

def Vendor.isIntel : Vendor → Bool
  | intelProgRegions | intelStandard | intelExtended => true
  | amdStandard | amdExtended => false

/-- What `write_buff` reads of `flash_info_t`. All sizes are powers of two. -/
structure Info where
  portShift : Fin 4
  chipShift : Nat
  chip_le : chipShift ≤ portShift
  bufferShift : Nat
  vendor : Vendor

def Info.portwidth (info : Info) : Nat := 2 ^ info.portShift.val

def Info.chipwidth (info : Info) : Nat := 2 ^ info.chipShift

def Info.buffer_size (info : Info) : Nat := 2 ^ info.bufferShift

/-- Words to be programmed from `dest` on, and how many of them were announced to the chips. -/
structure Op where
  dest : Nat
  words : List Nat
  announced : Nat

def Op.byte (info : Info) (op : Op) (k : Nat) : UInt8 :=
  LittleEndian.byte (op.words.getD (k / info.portwidth) 0) (k % info.portwidth)

def Op.size (info : Info) (op : Op) : Nat := op.words.length * info.portwidth

structure Reaction where
  available : Bool               -- they offer their write buffer in time
  ready : Bool                   -- they are ready in time
  errors : Nat                   -- the error bits in their status
  read : Nat                     -- what is read when they were not ready and are reset
  left : Mem → Mem               -- the contents, unless the operation was carried out

def programmed (info : Info) (mem : Mem) (op : Op) : Mem := fun a =>
  if op.dest ≤ a ∧ a < op.dest + op.size info then mem a &&& op.byte info (a - op.dest) else mem a

def Reaction.apply (r : Reaction) (info : Info) (mem : Mem) (op : Op) : Mem :=
  if r.ready ∧ r.errors = 0 ∧ op.announced = op.words.length then programmed info mem op
  else r.left mem

abbrev Chips := Nat → Reaction

structure State where
  mem : Mem
  ops : List Op

def State.issue (s : State) (info : Info) (chips : Chips) (op : Op) : State :=
  ⟨(chips s.ops.length).apply info s.mem op, s.ops ++ [op]⟩

inductive Rc where
  | ok
  | timout
  | notErased
  | prot
  | inval
deriving DecidableEq

/-- `flash_make_cmd`: the command on the lines of each chip. -/
def flashMakeCmd (info : Info) (cmd : Nat) : Nat :=
  word info.portwidth fun i =>
    if i % info.chipwidth < 4 then byte cmd (i % info.chipwidth) else 0

def flashIsset (info : Info) (read cmd : Nat) : Bool :=
  read &&& flashMakeCmd info cmd = flashMakeCmd info cmd

def flashIsequal (info : Info) (read cmd : Nat) : Bool := read = flashMakeCmd info cmd

/-- `flash_status_check`. Chips of AMD's go on toggling when there is an error. -/
def flashStatusCheck (info : Info) (r : Reaction) : Rc :=
  if r.ready ∧ (info.vendor.isIntel ∨ r.errors = 0) then .ok else .timout

def flashFullStatusCheck (info : Info) (r : Reaction) : Rc :=
  let retcode := flashStatusCheck info r
  if info.vendor.isIntel then
    if retcode ≠ .ok ∧ !flashIsequal info r.read 0x80 then
      if flashIsset info r.read 0x02 then .prot
      else if flashIsset info r.read 0x30 then .inval
      else if flashIsset info r.read 0x20 then .notErased
      else .inval
    else retcode
  else retcode

def flashAddByte (info : Info) (cword : Nat) (c : UInt8) : Nat := shiftIn info.portwidth cword c

def flashRead (info : Info) (mem : Mem) (a : Nat) : Nat := word info.portwidth fun i => mem (a + i)

def flashWriteCfiword (info : Info) (chips : Chips) (s : State) (dest cword : Nat) : Rc × State :=
  if flashRead info s.mem dest &&& cword = cword then
    (flashFullStatusCheck info (chips s.ops.length), s.issue info chips ⟨dest, [cword], 1⟩)
  else (.notErased, s)

def erasedLoop (info : Info) (mem src : Mem) : (cnt dst2 off : Nat) → Bool
  | 0, _, _ => false
  | cnt + 1, dst2, off =>
    if flashRead info mem dst2 &&& flashRead info src off = flashRead info src off then true
    else erasedLoop info mem src cnt (dst2 + info.portwidth) (off + info.portwidth)

/-- The words that go to the buffer; `cnt - 1` is what the chips read on their lines. -/
def bufferOp (info : Info) (src : Mem) (dest off cnt : Nat) : Op where
  dest := dest
  words := (List.range cnt).map fun j => flashRead info src (off + j * info.portwidth)
  announced := flashMakeCmd info (cnt - 1) % 256 ^ info.chipwidth + 1

/-- `flash_write_cfibuffer`; Intel's chips are asked for their buffer first. -/
def flashWriteCfibuffer (info : Info) (chips : Chips) (src : Mem) (s : State)
    (dest off len : Nat) : Rc × State :=
  let cnt := len >>> info.portShift.val
  if !erasedLoop info s.mem src cnt dest off then (.notErased, s)
  else if info.vendor.isIntel ∧ !(chips s.ops.length).available then (.timout, s)
  else (flashFullStatusCheck info (chips s.ops.length),
    s.issue info chips (bufferOp info src dest off cnt))

structure Progress where
  rc : Rc
  s : State
  wp : Nat
  off : Nat
  cnt : Nat

def bytesOf (mem : Mem) (a n : Nat) : List UInt8 := (List.range n).map fun i => mem (a + i)

/-- `flash_add_byte` for all the bytes of a word. The upper half of a 64-bit `cword` is not
cleared before, but shifted out. -/
def cwordOf (info : Info) (bytes : List UInt8) : Nat := bytes.foldl (flashAddByte info) 0

lemma portwidth_pos (info : Info) : 0 < info.portwidth := Nat.two_pow_pos _

def wordLoop (info : Info) (chips : Chips) (src : Mem) (s : State) (wp off cnt : Nat) : Progress :=
  if cnt < info.portwidth then ⟨.ok, s, wp, off, cnt⟩
  else
    let (rc, s) := flashWriteCfiword info chips s wp
      (cwordOf info (bytesOf src off info.portwidth))
    if rc ≠ .ok then ⟨rc, s, wp, off, cnt⟩
    else wordLoop info chips src s (wp + info.portwidth) (off + info.portwidth)
      (cnt - info.portwidth)
termination_by cnt
decreasing_by
  have := portwidth_pos info
  omega

def Info.bufferedSize (info : Info) : Nat := info.portwidth / info.chipwidth * info.buffer_size

def chunkSize (info : Info) (wp cnt : Nat) : Nat :=
  let i := info.bufferedSize - wp % info.bufferedSize
  if cnt < i then cnt else i

lemma cfibuffer_short {info : Info} {len : Nat} (chips : Chips) (src : Mem) (s : State)
    (dest off : Nat) (short : len < info.portwidth) :
    flashWriteCfibuffer info chips src s dest off len = (.notErased, s) := by
  have none_left : len >>> info.portShift.val = 0 := by
    rw [Nat.shiftRight_eq_div_pow]
    exact Nat.div_eq_of_lt short
  unfold flashWriteCfibuffer
  rw [none_left]
  rfl

lemma cfibuffer_long {info : Info} {chips : Chips} {src : Mem} {s : State} {dest off len : Nat}
    (done : (flashWriteCfibuffer info chips src s dest off len).1 = .ok) :
    info.portwidth ≤ len := by
  apply not_lt.mp
  intro short
  rw [cfibuffer_short chips src s dest off short] at done
  cases done

def bufferLoop (info : Info) (chips : Chips) (src : Mem) (s : State) (wp off cnt : Nat) :
    Progress :=
  if cnt < info.portwidth then ⟨.ok, s, wp, off, cnt⟩
  else
    let i := chunkSize info wp cnt
    let r := flashWriteCfibuffer info chips src s wp off i
    if _failed : r.1 ≠ .ok then ⟨r.1, r.2, wp, off, cnt⟩
    else
      let i := i - (i &&& (info.portwidth - 1))
      bufferLoop info chips src r.2 (wp + i) (off + i) (cnt - i)
termination_by cnt
decreasing_by
  have long := cfibuffer_long (not_not.mp _failed)
  have mask : chunkSize info wp cnt &&& (info.portwidth - 1) =
      chunkSize info wp cnt % info.portwidth := Nat.and_two_pow_sub_one_eq_mod _ _
  have := Nat.mod_lt (chunkSize info wp cnt) (portwidth_pos info)
  have : chunkSize info wp cnt ≤ cnt := by
    unfold chunkSize
    dsimp only
    split <;> omega
  omega

def writeAligned (buffered : Bool) (info : Info) (chips : Chips) (src : Mem) (s : State)
    (wp off cnt : Nat) : Progress :=
  if buffered ∧ info.buffer_size ≠ 1 then bufferLoop info chips src s wp off cnt
  else wordLoop info chips src s wp off cnt

def writeHead (info : Info) (chips : Chips) (src : Mem) (s : State) (wp aln cnt : Nat) :
    Progress :=
  if aln = 0 then ⟨.ok, s, wp, 0, cnt⟩
  else
    let n := min (info.portwidth - aln) cnt
    let (rc, s) := flashWriteCfiword info chips s wp (cwordOf info (bytesOf s.mem wp aln ++
      bytesOf src 0 n ++ bytesOf s.mem (wp + aln + n) (info.portwidth - aln - n)))
    ⟨rc, s, wp + info.portwidth, n, cnt - n⟩

def writeTail (info : Info) (chips : Chips) (src : Mem) (p : Progress) : Rc × State :=
  if p.cnt = 0 then (.ok, p.s)
  else flashWriteCfiword info chips p.s p.wp (cwordOf info (bytesOf src p.off p.cnt ++
    bytesOf p.s.mem (p.wp + p.cnt) (info.portwidth - p.cnt)))

/-- `write_buff`, with CONFIG_SYS_FLASH_USE_BUFFER_WRITE if `buffered`. -/
def writeBuff (buffered : Bool) (info : Info) (chips : Chips) (src : Mem) (s : State)
    (addr cnt : Nat) : Rc × State :=
  let aln := addr &&& (info.portwidth - 1)
  let head := writeHead info chips src s (addr - aln) aln cnt
  if head.rc ≠ .ok then (head.rc, head.s)
  else
    let p := writeAligned buffered info chips src head.s head.wp head.off head.cnt
    if p.rc ≠ .ok then (p.rc, p.s)
    else writeTail info chips src p

end CfiFlash
