import UBoot.Flash.BankTable
import UBoot.Lib.Align
import UBoot.Lib.ByteOrder

/-!
# Programming halfwords (board/samsung/hyq2440/flash.c)

`write_buff` of this board. The start, the middle and the end of the range are put together in three
ways, and each halfword is one call of `write_hword`. What is read from the source has memory of its
own. The command cycles are left out: a chip reacts to a halfword that it is given as a whole.
-/

namespace HalfwordFlash

open Memory32 LittleEndian FlashBanks

/-! ## The chip -/

def errNotErased : Nat := 2
def errProgError : Nat := 128

def ready : Nat := 1
def err : Nat := 2
def timeout : Nat := 4

structure Reaction where
  status : Nat → Nat        -- what is read while it works
  polls : Nat               -- how often, before the timer has run out
  left : Nat                -- the halfword when the chip is reset

def poll (status : Nat → Nat) (data : Nat) : (polls i : Nat) → Nat
  | 0, _ => err ||| timeout
  | polls + 1, i =>
    if status i &&& 0x80 = data &&& 0x80 then ready
    else if status i &&& 0x20 ≠ 0 then
      if status (i + 1) &&& 0x80 = data &&& 0x80 then ready else err
    else poll status data polls (i + 1)

/-- A chip changes the halfword it is given towards its data, as far as it gets. -/
structure Chip where
  react : (dest : UInt32) → (old data : Nat) → Reaction
  clears : ∀ dest old data, old &&& data = data → old &&& (react dest old data).left =
    (react dest old data).left
  keeps : ∀ dest old data, old &&& data = data → (react dest old data).left &&& data = data

/-- `*(vu_short *) a` of the flash, where `a` is even. -/
def half (mem : Mem) (a : UInt32) : Nat := word 2 fun i => mem (a + UInt32.ofNat i)

def writeHword (chip : Chip) (mem : Mem) (dest : UInt32) (data : Nat) : Nat × Mem :=
  if half mem dest &&& data ≠ data then (errNotErased, mem)
  else
    let r := chip.react dest (half mem dest) data
    (if poll r.status data r.polls 0 = err ∨ r.left ≠ data then errProgError else errOk,
      filled mem dest (byte r.left) 2)

/-! ## `write_buff` -/

/-- `data = (data >> 8) | (*cp++ << 8)`, `n` times. -/
def shiftBytes (mem : Mem) : (n : Nat) → (cp : UInt32) → (data : Nat) → Nat
  | 0, _, data => data
  | n + 1, cp, data => shiftBytes mem n (cp + 1) (shiftIn 2 data (mem cp))

structure Progress where
  rc : Nat
  src : UInt32
  wp : UInt32
  cnt : Nat
  flash : Mem

def writeHead (chip : Chip) (ram : Mem) (src addr : UInt32) (cnt : Nat) (flash : Mem) : Progress :=
  let wp := addr &&& ~~~1
  let l := (addr - wp).toNat
  if l = 0 then ⟨errOk, src, wp, cnt, flash⟩
  else
    let n := min (2 - l) cnt
    let data := shiftBytes flash l wp 0
    let data := shiftBytes ram n src data
    let data :=
      if cnt - n = 0 then shiftBytes flash (2 - l - n) (wp + UInt32.ofNat (l + n)) data else data
    let r := writeHword chip flash wp data
    ⟨r.1, src + UInt32.ofNat n, wp + 2, cnt - n, r.2⟩

/-- `*((vu_short *) src)`: the processor checks alignment (cpu/arm920t/start.S). -/
def loadHalf (ram : Mem) (src : UInt32) : Option Nat :=
  if src.toNat % 2 = 0 then some (half ram src) else none

def wordLoop (chip : Chip) (ram : Mem) : (cnt : Nat) → (src wp : UInt32) → (flash : Mem) →
    Option Progress
  | cnt + 2, src, wp, flash =>
    (loadHalf ram src).bind fun data =>
      let r := writeHword chip flash wp data
      if r.1 ≠ errOk then some ⟨r.1, src, wp, cnt + 2, r.2⟩
      else wordLoop chip ram cnt (src + 2) (wp + 2) r.2
  | cnt, src, wp, flash => some ⟨errOk, src, wp, cnt, flash⟩

def writeTail (chip : Chip) (ram : Mem) (p : Progress) : Nat × Mem :=
  let n := min 2 p.cnt
  let data := shiftBytes ram n p.src 0
  let data := shiftBytes p.flash (2 - n) (p.wp + UInt32.ofNat n) data
  writeHword chip p.flash p.wp data

/-- `write_buff`, unless a load is not aligned. -/
def writeBuff (chip : Chip) (ram : Mem) (src addr cnt : UInt32) (flash : Mem) :
    Option (Nat × Mem) :=
  let head := writeHead chip ram src addr cnt.toNat flash
  if head.rc ≠ errOk then some (head.rc, head.flash)
  else
    (wordLoop chip ram head.cnt head.src head.wp head.flash).map fun p =>
      if p.rc ≠ errOk then (p.rc, p.flash)
      else if p.cnt = 0 then (errOk, p.flash)
      else writeTail chip ram p

/-! ## What is promised -/

/-- The halfword with byte `i` of the range; the first of them has the number 0. -/
def halfNo (addr : UInt32) (i : Nat) : Nat := (addr.toNat % 2 + i) / 2

structure StopsAt (addr : UInt32) (cnt : Nat) (source : Nat → UInt8) (flash : Mem) (r : Nat × Mem)
    (k : Nat) : Prop where
  before : ∀ i < cnt, halfNo addr i < k → r.2 (addr + UInt32.ofNat i) = source i
  behind : ∀ i < cnt, k < halfNo addr i →
    r.2 (addr + UInt32.ofNat i) = flash (addr + UInt32.ofNat i)
  cause : r.1 = errProgError ∨ r.1 = errNotErased ∧ ∃ i < cnt, halfNo addr i = k ∧
    flash (addr + UInt32.ofNat i) &&& source i ≠ source i

/-- What `flash_write` relies on, and where it ended. -/
structure Outcome (addr : UInt32) (cnt : Nat) (source : Nat → UInt8) (flash : Mem) (r : Nat × Mem) :
    Prop where
  written : Written addr cnt source flash r
  stops : r.1 ≠ errOk → ∃ k, StopsAt addr cnt source flash r k

def WritesRight (chip : Chip) (ram : Mem) (src addr cnt : UInt32) (flash : Mem) : Prop :=
  ∃ r, writeBuff chip ram src addr cnt flash = some r ∧
    Outcome addr cnt.toNat (fun i => ram (src + UInt32.ofNat i)) flash r

def Reaction.Took (r : Reaction) (data : Nat) : Prop :=
  poll r.status data r.polls 0 ≠ err ∧ r.left = data

def HeadTaken (chip : Chip) (flash : Mem) (addr : UInt32) (first : UInt8) : Prop :=
  let data := (flash (addr - 1)).toNat + 256 * first.toNat
  flash addr &&& first = first ∧ (chip.react (addr - 1) (half flash (addr - 1)) data).Took data

/-- No halfword is read from an odd address: less than two bytes are left behind the first halfword,
or source and range start alike, or the range starts in a halfword that is not written. -/
def LoadsRight (chip : Chip) (ram : Mem) (src addr cnt : UInt32) (flash : Mem) : Prop :=
  cnt.toNat < addr.toNat % 2 + 2 ∨ src.toNat % 2 = addr.toNat % 2 ∨
    addr.toNat % 2 = 1 ∧ ¬ HeadTaken chip flash addr (ram src)

/-! ## One halfword -/

section
variable {chip : Chip} {mem : Mem} {dest : UInt32} {g : Nat → UInt8}

variable {data : Nat}

lemma half_byte (mem : Mem) (dest : UInt32) (g : Nat → UInt8) :
    half mem dest &&& word 2 g = word 2 g ↔
      ∀ i < 2, mem (dest + UInt32.ofNat i) &&& g i = g i :=
  land_word_iff 2 _ g

lemma left_same (erased : half mem dest &&& word 2 g = word 2 g) {i : Nat} (low : i < 2)
    (same : g i = mem (dest + UInt32.ofNat i)) :
    byte (chip.react dest (half mem dest) (word 2 g)).left i = mem (dest + UInt32.ofNat i) := by
  have clears := chip.clears dest _ _ erased
  have keeps := chip.keeps dest _ _ erased
  set left := (chip.react dest (half mem dest) (word 2 g)).left
  have small : left < 256 ^ 2 := by
    rw [← clears]
    exact lt_of_le_of_lt Nat.and_le_left (word_lt 2 _)
  rw [← word_byte small] at clears keeps
  have cleared := (land_word_iff 2 _ _).mp clears i low
  have kept := (land_word_iff 2 _ _).mp keeps i low
  rw [same] at kept
  rw [← cleared, UInt8.and_comm]
  exact kept

lemma writeHword_blocked (blocked : half mem dest &&& data ≠ data) :
    writeHword chip mem dest data = (errNotErased, mem) := if_pos blocked

lemma writeHword_erased (erased : half mem dest &&& data = data) :
    writeHword chip mem dest data =
      (if poll (chip.react dest (half mem dest) data).status data
          (chip.react dest (half mem dest) data).polls 0 = err ∨
          (chip.react dest (half mem dest) data).left ≠ data then errProgError else errOk,
        filled mem dest (byte (chip.react dest (half mem dest) data).left) 2) :=
  if_neg (not_not.mpr erased)

lemma writeHword_ok_iff : (writeHword chip mem dest data).1 = errOk ↔
    half mem dest &&& data = data ∧ (chip.react dest (half mem dest) data).Took data := by
  by_cases erased : half mem dest &&& data = data
  · rw [writeHword_erased erased, Reaction.Took]
    dsimp only
    split
    case isTrue failed =>
      refine iff_of_false (by decide) ?_
      rintro ⟨-, done, left⟩
      rcases failed with status | other
      · exact done status
      · exact other left
    case isFalse fine =>
      obtain ⟨done, left⟩ := not_or.mp fine
      exact iff_of_true rfl ⟨erased, done, not_not.mp left⟩
  · rw [writeHword_blocked erased]
    refine iff_of_false ?_ fun ⟨fits, _⟩ => erased fits
    change ¬ errNotErased = errOk
    decide

lemma writeHword_ok (ok : (writeHword chip mem dest (word 2 g)).1 = errOk) :
    (writeHword chip mem dest (word 2 g)).2 = filled mem dest g 2 := by
  obtain ⟨erased, -, took⟩ := writeHword_ok_iff.mp ok
  rw [writeHword_erased erased, took]
  exact filled_congr fun i low => byte_word g low

lemma writeHword_outside {a : UInt32} (far : 2 ≤ (a - dest).toNat) :
    (writeHword chip mem dest data).2 a = mem a := by
  by_cases erased : half mem dest &&& data = data
  · rw [writeHword_erased erased]
    exact if_neg (not_lt.mpr far)
  · rw [writeHword_blocked erased]

lemma writeHword_same {i : Nat} (low : i < 2) (same : g i = mem (dest + UInt32.ofNat i)) :
    (writeHword chip mem dest (word 2 g)).2 (dest + UInt32.ofNat i) =
      mem (dest + UInt32.ofNat i) := by
  by_cases erased : half mem dest &&& word 2 g = word 2 g
  · have offset := offset_toNat dest (k := i) (by omega)
    rw [writeHword_erased erased]
    dsimp only
    rw [filled, offset, if_pos low]
    exact left_same erased low same
  · rw [writeHword_blocked erased]

lemma writeHword_failed (failed : (writeHword chip mem dest (word 2 g)).1 ≠ errOk) :
    (writeHword chip mem dest (word 2 g)).1 = errProgError ∨
      (writeHword chip mem dest (word 2 g)).1 = errNotErased ∧
        ∃ i < 2, mem (dest + UInt32.ofNat i) &&& g i ≠ g i := by
  by_cases erased : half mem dest &&& word 2 g = word 2 g
  · left
    rw [writeHword_erased erased] at failed ⊢
    split at failed
    case isTrue bad => exact if_pos bad
    case isFalse => exact absurd rfl failed
  · right
    rw [writeHword_blocked erased]
    refine ⟨rfl, ?_⟩
    rw [half_byte] at erased
    simpa only [not_forall, exists_prop] using erased

end

/-! ## Halfword after halfword -/

variable {j left : Nat} {mem : Mem} {s wp : UInt32}

def startOf (addr : UInt32) : UInt32 := addr &&& ~~~1

lemma startOf_toNat (addr : UInt32) : (startOf addr).toNat = addr.toNat - addr.toNat % 2 := by
  have mask : (~~~1 : UInt32).toNat = 2 ^ 32 - 1 - (2 ^ 1 - 1) := by decide
  rw [startOf, UInt32.toNat_and, mask, Align.and_mask (by decide) addr.toNat_lt]
  omega

lemma startOf_add (addr : UInt32) : startOf addr + UInt32.ofNat (addr.toNat % 2) = addr := by
  have start := startOf_toNat addr
  have := addr.toNat_lt
  apply UInt32.toNat_inj.mp
  rw [UInt32.toNat_add, start, UInt32.toNat_ofNat']
  omega

/-- The first `j` bytes from `base` on are new. -/
def upTo (flash new : Mem) (base : UInt32) (j : Nat) : Mem := fun a =>
  if (a - base).toNat < j then new a else flash a

lemma upTo_zero (flash new : Mem) (base : UInt32) : upTo flash new base 0 = flash :=
  funext fun _ => if_neg (Nat.not_lt_zero _)

lemma upTo_at {flash new : Mem} {base : UInt32} {d : Nat} (bound : d < 4294967296) :
    upTo flash new base j (base + UInt32.ofNat d) =
      if d < j then new (base + UInt32.ofNat d) else flash (base + UInt32.ofNat d) := by
  rw [upTo, offset_toNat base bound]

lemma exists_offset (base a : UInt32) : ∃ d < 4294967296, a = base + UInt32.ofNat d := by
  refine ⟨(a - base).toNat, UInt32.toNat_lt _, ?_⟩
  rw [UInt32.ofNat_toNat]
  grind

lemma offset_sub (base : UInt32) {d : Nat} (d_lt : d < 4294967296) (j_lt : j < 4294967296) :
    (base + UInt32.ofNat d - (base + UInt32.ofNat j)).toNat =
      if j ≤ d then d - j else d + (4294967296 - j) := by
  have moved := sub_offset (base + UInt32.ofNat d) base j_lt
  rwa [offset_toNat base d_lt] at moved

lemma upTo_filled {flash new : Mem} {base : UInt32} {g : Nat → UInt8} (room : j + 2 ≤ 4294967296)
    (bytes : ∀ i < 2, g i = new (base + UInt32.ofNat (j + i))) :
    filled (upTo flash new base j) (base + UInt32.ofNat j) g 2 = upTo flash new base (j + 2) := by
  funext a
  obtain ⟨d, bound, rfl⟩ := exists_offset base a
  have distance := offset_sub base (j := j) bound (by omega)
  rw [filled, distance, upTo_at bound, upTo_at bound]
  by_cases before : d < j
  · rw [if_neg (not_le.mpr before), if_neg (by omega), if_pos before, if_pos (by omega)]
  rw [if_pos (Nat.le_of_not_lt before), if_neg before]
  by_cases here : d < j + 2
  · have there : j + (d - j) = d := by omega
    rw [if_pos (by omega), if_pos here, bytes (d - j) (by omega), there]
  · rw [if_neg (by omega), if_neg here]

section
variable {chip : Chip} {flash : Mem} {addr : UInt32} {cnt : Nat} {source : Nat → UInt8}

lemma filled_at (short : cnt < 4294967296) {d : Nat} (bound : d < 4294967296) :
    filled flash addr source cnt (startOf addr + UInt32.ofNat d) =
      if addr.toNat % 2 ≤ d ∧ d < addr.toNat % 2 + cnt then source (d - addr.toNat % 2)
      else flash (startOf addr + UInt32.ofNat d) := by
  have distance := offset_sub (startOf addr) (j := addr.toNat % 2) bound (by omega)
  rw [startOf_add] at distance
  rw [filled, distance]
  by_cases before : d < addr.toNat % 2
  · rw [if_neg (not_le.mpr before), if_neg (by omega), if_neg (by omega)]
  rw [if_pos (Nat.le_of_not_lt before)]
  by_cases inside : d < addr.toNat % 2 + cnt
  · rw [if_pos (by omega), if_pos ⟨by omega, inside⟩]
  · rw [if_neg (by omega), if_neg (by omega)]

lemma range_at (i : Nat) :
    addr + UInt32.ofNat i = startOf addr + UInt32.ofNat (addr.toNat % 2 + i) := by
  rw [UInt32.ofNat_add, ← UInt32.add_assoc, startOf_add]

lemma upTo_all (short : cnt < 4294967296) (whole : addr.toNat % 2 + cnt ≤ j) :
    upTo flash (filled flash addr source cnt) (startOf addr) j =
      filled flash addr source cnt := by
  funext a
  obtain ⟨d, bound, rfl⟩ := exists_offset (startOf addr) a
  rw [upTo_at bound]
  by_cases before : d < j
  · exact if_pos before
  · rw [if_neg before, filled_at short bound, if_neg (by omega)]

lemma outcome_done (addr : UInt32) (cnt : Nat) (source : Nat → UInt8) (flash : Mem) :
    Outcome addr cnt source flash (errOk, filled flash addr source cnt) where
  written :=
    { ok := fun _ => rfl
      outside := fun _ far => if_neg (not_lt.mpr far)
      codes := by simp [errOk, errInval, errProtected] }
  stops failed := absurd rfl failed

/-- The halfword behind the first `j` bytes gets those of the range. -/
structure HalfStep (chip : Chip) (addr : UInt32) (cnt : Nat) (source : Nat → UInt8) (flash : Mem)
    (g : Nat → UInt8) (j : Nat) (r : Nat × Mem) : Prop where
  short : cnt < 4294967296
  room : j + 2 ≤ 4294967296
  even : j % 2 = 0
  bytes : ∀ i < 2, g i = filled flash addr source cnt (startOf addr + UInt32.ofNat (j + i))
  result : r = writeHword chip (upTo flash (filled flash addr source cnt) (startOf addr) j)
    (startOf addr + UInt32.ofNat j) (word 2 g)

section
variable {g : Nat → UInt8} {j : Nat} {r : Nat × Mem}
  (step : HalfStep chip addr cnt source flash g j r)
include step

lemma HalfStep.away {d : Nat} (bound : d < 4294967296) (off : d < j ∨ j + 2 ≤ d) :
    r.2 (startOf addr + UInt32.ofNat d) =
      if d < j then filled flash addr source cnt (startOf addr + UInt32.ofNat d)
      else flash (startOf addr + UInt32.ofNat d) := by
  have room := step.room
  have distance := offset_sub (startOf addr) (j := j) bound (by omega)
  rw [step.result, writeHword_outside, upTo_at bound]
  rw [distance]
  split <;> omega

lemma HalfStep.old {i : Nat} (low : i < 2) :
    upTo flash (filled flash addr source cnt) (startOf addr) j
      (startOf addr + UInt32.ofNat j + UInt32.ofNat i) =
      flash (startOf addr + UInt32.ofNat (j + i)) := by
  have room := step.room
  rw [UInt32.add_assoc, ← UInt32.ofNat_add, upTo_at (by omega), if_neg (by omega)]

lemma HalfStep.outside {a : UInt32} (far : cnt ≤ (a - addr).toNat) : r.2 a = flash a := by
  obtain ⟨d, bound, rfl⟩ := exists_offset (startOf addr) a
  have kept : filled flash addr source cnt (startOf addr + UInt32.ofNat d) =
      flash (startOf addr + UInt32.ofNat d) := if_neg (not_lt.mpr far)
  by_cases off : d < j ∨ j + 2 ≤ d
  · rw [step.away bound off, kept, ite_self]
  obtain ⟨i, rfl⟩ := Nat.exists_eq_add_of_le (Nat.le_of_not_lt fun less => off (.inl less))
  have low : i < 2 := by omega
  have same : g i = flash (startOf addr + UInt32.ofNat (j + i)) := (step.bytes i low).trans kept
  rw [← step.old low] at same ⊢
  rw [step.result, UInt32.ofNat_add, ← UInt32.add_assoc]
  exact writeHword_same low same

lemma HalfStep.stopsAt (failed : r.1 ≠ errOk) : StopsAt addr cnt source flash r (j / 2) := by
  have short := step.short
  have room := step.room
  have even := step.even
  constructor
  case before =>
    intro i inside before
    unfold halfNo at before
    have bound : addr.toNat % 2 + i < 4294967296 := by omega
    rw [range_at, step.away bound (by omega), if_pos (by omega), filled_at short bound,
      if_pos (by omega), Nat.add_sub_cancel_left]
  case behind =>
    intro i inside behind
    unfold halfNo at behind
    rw [range_at, step.away (by omega) (by omega), if_neg (by omega)]
  case cause =>
    rw [step.result] at failed ⊢
    refine (writeHword_failed failed).imp_right fun ⟨code, i, low, blocked⟩ => ⟨code, ?_⟩
    have bound : j + i < 4294967296 := by omega
    rw [step.old low, step.bytes i low, filled_at short bound] at blocked
    by_cases inside : addr.toNat % 2 ≤ j + i ∧ j + i < addr.toNat % 2 + cnt
    · rw [if_pos inside] at blocked
      have there : addr.toNat % 2 + (j + i - addr.toNat % 2) = j + i := by omega
      refine ⟨j + i - addr.toNat % 2, by omega, ?_, ?_⟩
      · unfold halfNo
        omega
      · rw [range_at, there]
        exact blocked
    · rw [if_neg inside] at blocked
      exact absurd UInt8.and_self blocked

lemma HalfStep.comes :
    (r.1 = errOk ∧ r.2 = upTo flash (filled flash addr source cnt) (startOf addr) (j + 2)) ∨
      (r.1 ≠ errOk ∧ Outcome addr cnt source flash r) := by
  by_cases ok : r.1 = errOk
  · left
    refine ⟨ok, ?_⟩
    rw [step.result] at ok ⊢
    rw [writeHword_ok ok]
    exact upTo_filled step.room step.bytes
  · right
    have stops := step.stopsAt ok
    refine ⟨ok, ⟨fun done => absurd done ok, fun _ far => step.outside far, ?_⟩,
      fun _ => ⟨_, stops⟩⟩
    rcases stops.cause with code | ⟨code, _⟩ <;> rw [code] <;> decide

end

/-! ## The three parts -/

variable {ram : Mem} {src : UInt32}

structure Placed (addr : UInt32) (cnt : Nat) (source : Nat → UInt8) (flash : Mem) (src : UInt32)
    (p : Progress) (j : Nat) : Prop where
  flash_eq : p.flash = upTo flash (filled flash addr source cnt) (startOf addr) j
  even : j % 2 = 0
  cnt_eq : p.cnt = addr.toNat % 2 + cnt - j
  wp_eq : p.wp = startOf addr + UInt32.ofNat j
  src_eq : p.cnt ≠ 0 → p.src + UInt32.ofNat (addr.toNat % 2) = src + UInt32.ofNat j

lemma Placed.source_at {p : Progress} {i : Nat} (short : cnt < 4294967296)
    (placed : Placed addr cnt (fun i => ram (src + UInt32.ofNat i)) flash src p j)
    (behind : addr.toNat % 2 ≤ j) (inside : i < p.cnt) :
    filled flash addr (fun i => ram (src + UInt32.ofNat i)) cnt
      (startOf addr + UInt32.ofNat (j + i)) = ram (p.src + UInt32.ofNat i) := by
  have left := placed.cnt_eq
  have moved := placed.src_eq (by omega)
  have there : p.src + UInt32.ofNat i = src + UInt32.ofNat (j + i - addr.toNat % 2) := by
    have parts : UInt32.ofNat (j + i - addr.toNat % 2) + UInt32.ofNat (addr.toNat % 2) =
        UInt32.ofNat j + UInt32.ofNat i := by
      rw [← UInt32.ofNat_add, ← UInt32.ofNat_add, Nat.sub_add_cancel (by omega)]
    grind
  rw [filled_at short (by omega), if_pos (by omega), there]

lemma shiftIn_two (first second : UInt8) : shiftIn 2 (shiftIn 2 0 first) second =
    word 2 fun i => if i = 0 then first else second :=
  foldl_shiftIn (n := 2) (show [first, second].length = 2 from rfl) fun _ => 0

lemma offset_startOf (addr : UInt32) : (addr - (addr &&& ~~~1)).toNat = addr.toNat % 2 := by
  have distance := offset_toNat (startOf addr) (k := addr.toNat % 2) (by omega)
  rw [startOf_add] at distance
  exact distance

lemma startOf_even (even : addr.toNat % 2 = 0) : startOf addr = addr := by
  have start := startOf_toNat addr
  rw [even] at start
  exact UInt32.toNat_inj.mp start

lemma writeHead_even (chip : Chip) (ram : Mem) (src : UInt32) (cnt : Nat) (flash : Mem)
    (even : addr.toNat % 2 = 0) :
    writeHead chip ram src addr cnt flash = ⟨errOk, src, addr, cnt, flash⟩ := by
  have start := startOf_even even
  rw [startOf] at start
  rw [writeHead, offset_startOf, start]
  exact if_pos even

lemma startOf_odd (odd : addr.toNat % 2 = 1) : startOf addr = addr - 1 := by
  have start := startOf_add addr
  rw [odd] at start
  exact (UInt32.sub_eq_iff_eq_add.mpr start.symm).symm

lemma writeHead_odd (chip : Chip) (ram : Mem) (src : UInt32) (cnt : Nat) (flash : Mem)
    (odd : addr.toNat % 2 = 1) : ∃ r, writeHead chip ram src addr cnt flash =
      ⟨r.1, src + UInt32.ofNat (min 1 cnt), startOf addr + 2, cnt - min 1 cnt, r.2⟩ ∧
      r = writeHword chip flash (startOf addr) (word 2 fun i =>
        if i = 0 then flash (startOf addr) else if cnt = 0 then flash addr else ram src) := by
  have second : startOf addr + 1 = addr := by
    have start := startOf_add addr
    rw [odd] at start
    exact start
  refine ⟨_, ?_, rfl⟩
  rw [← shiftIn_two, writeHead, offset_startOf, odd, if_neg Nat.one_ne_zero]
  unfold startOf at second ⊢
  cases cnt with
  | zero => simp [shiftBytes, second]
  | succ cnt => simp [shiftBytes]

lemma headBytes (short : cnt < 4294967296) (odd : addr.toNat % 2 = 1) (i : Nat) (low : i < 2) :
    (if i = 0 then flash (startOf addr) else if cnt = 0 then flash addr else ram src) =
      filled flash addr (fun i => ram (src + UInt32.ofNat i)) cnt
        (startOf addr + UInt32.ofNat (0 + i)) := by
  have second := startOf_add addr
  rw [odd] at second
  rw [filled_at short (by omega), odd]
  rcases (by omega : i = 0 ∨ i = 1) with rfl | rfl
  · rw [if_pos rfl, if_neg (by omega)]
    exact congrArg flash (UInt32.add_zero _).symm
  rw [if_neg Nat.one_ne_zero, zero_add, second]
  by_cases empty : cnt = 0
  · rw [if_pos empty, if_neg (by omega)]
  · rw [if_neg empty, if_pos (by omega)]
    exact congrArg ram (UInt32.add_zero src).symm

lemma placed_even (even : addr.toNat % 2 = 0) :
    Placed addr cnt source flash src ⟨errOk, src, addr, cnt, flash⟩ 0 where
  flash_eq := (upTo_zero _ _ _).symm
  even := rfl
  cnt_eq := by rw [even, zero_add, Nat.sub_zero]
  wp_eq := by
    rw [startOf_even even]
    exact (UInt32.add_zero addr).symm
  src_eq _ := by rw [even]

lemma placed_odd (odd : addr.toNat % 2 = 1) {rc : Nat}
    (flash_eq : mem = upTo flash (filled flash addr source cnt) (startOf addr) 2) :
    Placed addr cnt source flash src
      ⟨rc, src + UInt32.ofNat (min 1 cnt), startOf addr + 2, cnt - min 1 cnt, mem⟩ 2 where
  flash_eq := flash_eq
  even := rfl
  cnt_eq := by
    change cnt - min 1 cnt = _
    omega
  wp_eq := rfl
  src_eq more := by
    change cnt - min 1 cnt ≠ 0 at more
    have one : min 1 cnt = 1 := by omega
    rw [odd, one, UInt32.add_assoc]
    rfl

lemma Placed.advance {rc : Nat} {mem' : Mem}
    (placed : Placed addr cnt source flash src ⟨rc, s, wp, left + 2, mem⟩ j)
    (flash_eq : mem' = upTo flash (filled flash addr source cnt) (startOf addr) (j + 2)) :
    Placed addr cnt source flash src ⟨rc, s + 2, wp + 2, left, mem'⟩ (j + 2) where
  flash_eq := flash_eq
  even := by rw [Nat.add_mod_right, placed.even]
  cnt_eq := by
    have cnt_eq := placed.cnt_eq
    change left + 2 = _ at cnt_eq
    change left = _
    omega
  wp_eq := by
    have wp_eq := placed.wp_eq
    change wp = _ at wp_eq
    change wp + 2 = _
    rw [wp_eq, UInt32.ofNat_add, UInt32.add_assoc]
    rfl
  src_eq _ := by
    have moved := placed.src_eq (Nat.succ_ne_zero _)
    change s + 2 + _ = _
    rw [UInt32.ofNat_add, ← UInt32.add_assoc, ← moved, UInt32.add_assoc, UInt32.add_comm 2,
      ← UInt32.add_assoc]
    rfl

lemma writeHead_comes (chip : Chip) (ram : Mem) (src : UInt32) (short : cnt < 4294967296)
    (flash : Mem) {p : Progress} (result : p = writeHead chip ram src addr cnt flash) :
    (p.rc = errOk ∧ ∃ j, addr.toNat % 2 ≤ j ∧
      Placed addr cnt (fun i => ram (src + UInt32.ofNat i)) flash src p j) ∨
    (p.rc ≠ errOk ∧
      Outcome addr cnt (fun i => ram (src + UInt32.ofNat i)) flash (p.rc, p.flash)) := by
  rcases Nat.mod_two_eq_zero_or_one addr.toNat with even | odd
  · left
    rw [result, writeHead_even chip ram src cnt flash even]
    exact ⟨rfl, 0, le_of_eq even, placed_even even⟩
  obtain ⟨r, head, r_eq⟩ := writeHead_odd chip ram src cnt flash odd
  have first : startOf addr + UInt32.ofNat 0 = startOf addr := UInt32.add_zero _
  have step : HalfStep chip addr cnt (fun i => ram (src + UInt32.ofNat i)) flash (fun i =>
      if i = 0 then flash (startOf addr) else if cnt = 0 then flash addr else ram src) 0 r := by
    refine ⟨short, by decide, rfl, headBytes short odd, ?_⟩
    rw [upTo_zero, first]
    exact r_eq
  rw [result, head]
  refine step.comes.imp ?_ id
  rintro ⟨ok, flash_eq⟩
  exact ⟨ok, 2, by omega, placed_odd odd flash_eq⟩

lemma Placed.halfStep (chip : Chip) (short : cnt < 4294967296) {rc : Nat}
    (placed : Placed addr cnt (fun i => ram (src + UInt32.ofNat i)) flash src
      ⟨rc, s, wp, left + 2, mem⟩ j) (behind : addr.toNat % 2 ≤ j) :
    HalfStep chip addr cnt (fun i => ram (src + UInt32.ofNat i)) flash
      (fun i => ram (s + UInt32.ofNat i)) j (writeHword chip mem wp (half ram s)) := by
  have cnt_eq := placed.cnt_eq
  have wp_eq := placed.wp_eq
  have flash_eq := placed.flash_eq
  dsimp only at cnt_eq wp_eq flash_eq
  refine ⟨short, by omega, placed.even, ?_, ?_⟩
  · intro i low
    have inside : i < left + 2 := by omega
    exact (placed.source_at short behind inside).symm
  · rw [← flash_eq, ← wp_eq]
    rfl

lemma wordLoop_comes (chip : Chip) (short : cnt < 4294967296)
    (placed : Placed addr cnt (fun i => ram (src + UInt32.ofNat i)) flash src
      ⟨errOk, s, wp, left, mem⟩ j) (behind : addr.toNat % 2 ≤ j)
    (aligned : left < 2 ∨ s.toNat % 2 = 0) : ∃ p, wordLoop chip ram left s wp mem = some p ∧
      ((p.rc = errOk ∧ p.cnt < 2 ∧ ∃ j, addr.toNat % 2 ≤ j ∧
        Placed addr cnt (fun i => ram (src + UInt32.ofNat i)) flash src p j) ∨
      (p.rc ≠ errOk ∧
        Outcome addr cnt (fun i => ram (src + UInt32.ofNat i)) flash (p.rc, p.flash))) := by
  induction left using Nat.twoStepInduction generalizing s wp mem j with
  | zero => exact ⟨_, rfl, .inl ⟨rfl, Nat.zero_lt_two, j, behind, placed⟩⟩
  | one => exact ⟨_, rfl, .inl ⟨rfl, Nat.one_lt_two, j, behind, placed⟩⟩
  | more left ih _ =>
    have even : s.toNat % 2 = 0 := aligned.resolve_left (by omega)
    rw [wordLoop, loadHalf, if_pos even, Option.bind_some]
    rcases (placed.halfStep chip short behind).comes with ⟨ok, mem_eq⟩ | ⟨failed, outcome⟩
    · rw [if_neg (not_not.mpr ok)]
      apply ih (placed.advance mem_eq) (by omega)
      right
      have two : (s + 2).toNat = (s.toNat + 2) % 4294967296 := UInt32.toNat_add s 2
      omega
    · exact ⟨_, if_pos failed, .inr ⟨failed, outcome⟩⟩

lemma outcome_whole (short : cnt < 4294967296) {r : Nat × Mem} (ok : r.1 = errOk)
    (flash_eq : r.2 = upTo flash (filled flash addr source cnt) (startOf addr) j)
    (whole : addr.toNat % 2 + cnt ≤ j) : Outcome addr cnt source flash r := by
  obtain ⟨code, mem⟩ := r
  dsimp only at ok flash_eq
  rw [ok, flash_eq, upTo_all short whole]
  exact outcome_done addr cnt source flash

lemma writeTail_comes (chip : Chip) (short : cnt < 4294967296) {p : Progress}
    (placed : Placed addr cnt (fun i => ram (src + UInt32.ofNat i)) flash src p j)
    (behind : addr.toNat % 2 ≤ j) (one : p.cnt = 1) :
    Outcome addr cnt (fun i => ram (src + UInt32.ofNat i)) flash (writeTail chip ram p) := by
  have even := placed.even
  have cnt_eq := placed.cnt_eq
  have bytes : ∀ i < 2, (if i = 0 then ram p.src else p.flash (p.wp + UInt32.ofNat 1)) =
      filled flash addr (fun i => ram (src + UInt32.ofNat i)) cnt
        (startOf addr + UInt32.ofNat (j + i)) := by
    intro i low
    rcases (by omega : i = 0 ∨ i = 1) with rfl | rfl
    · rw [if_pos rfl, placed.source_at short behind (by omega)]
      exact congrArg ram (UInt32.add_zero _).symm
    · rw [if_neg Nat.one_ne_zero, placed.flash_eq, placed.wp_eq, UInt32.add_assoc,
        ← UInt32.ofNat_add, upTo_at (by omega), if_neg (by omega), filled_at short (by omega),
        if_neg (by omega)]
  have tail : writeTail chip ram p = writeHword chip
      (upTo flash (filled flash addr (fun i => ram (src + UInt32.ofNat i)) cnt) (startOf addr) j)
      (startOf addr + UInt32.ofNat j)
      (word 2 fun i => if i = 0 then ram p.src else p.flash (p.wp + UInt32.ofNat 1)) := by
    rw [← shiftIn_two, ← placed.flash_eq, ← placed.wp_eq, writeTail, one]
    rfl
  have step : HalfStep chip addr cnt (fun i => ram (src + UInt32.ofNat i)) flash (fun i =>
      if i = 0 then ram p.src else p.flash (p.wp + UInt32.ofNat 1)) j (writeTail chip ram p) :=
    ⟨short, by omega, even, bytes, tail⟩
  rcases step.comes with ⟨ok, flash_eq⟩ | ⟨_, outcome⟩
  · exact outcome_whole short ok flash_eq (by omega)
  · exact outcome

end

/-! ## Aligned loads -/

section
variable (chip : Chip) (ram : Mem) (src addr cnt : UInt32) (flash : Mem)

def HeadAligned : Prop :=
  (writeHead chip ram src addr cnt.toNat flash).rc = errOk →
    (writeHead chip ram src addr cnt.toNat flash).cnt < 2 ∨
      (writeHead chip ram src addr cnt.toNat flash).src.toNat % 2 = 0

lemma headAligned_writesRight (aligned : HeadAligned chip ram src addr cnt flash) :
    WritesRight chip ram src addr cnt flash := by
  unfold HeadAligned at aligned
  unfold WritesRight writeBuff
  have short := cnt.toNat_lt
  have head := writeHead_comes (p := writeHead chip ram src addr cnt.toNat flash) chip ram src
    short flash rfl
  generalize writeHead chip ram src addr cnt.toNat flash = h at aligned head
  rcases head with ⟨ok, j, behind, placed⟩ | ⟨failed, outcome⟩
  · rw [if_neg (not_not.mpr ok)]
    obtain ⟨rc, s, wp, left, mem⟩ := h
    obtain rfl : rc = errOk := ok
    obtain ⟨p, loop, result⟩ := wordLoop_comes chip short placed behind (aligned rfl)
    rw [loop]
    refine ⟨_, rfl, ?_⟩
    dsimp only
    rcases result with ⟨ok, less, j, behind, placed⟩ | ⟨failed, outcome⟩
    · rw [if_neg (not_not.mpr ok)]
      by_cases finished : p.cnt = 0
      · have cnt_eq := placed.cnt_eq
        rw [if_pos finished]
        exact outcome_whole short rfl placed.flash_eq (by omega)
      · rw [if_neg finished]
        exact writeTail_comes chip short placed behind (by omega)
    · rw [if_pos failed]
      exact outcome
  · rw [if_pos failed]
    exact ⟨_, rfl, outcome⟩

lemma wordLoop_odd (more : 2 ≤ left) (odd : ¬ s.toNat % 2 = 0) :
    wordLoop chip ram left s wp mem = none := by
  obtain ⟨left, rfl⟩ := Nat.exists_eq_add_of_le' more
  rw [wordLoop, loadHalf, if_neg odd]
  rfl

lemma writesRight_iff_headAligned :
    WritesRight chip ram src addr cnt flash ↔ HeadAligned chip ram src addr cnt flash := by
  refine ⟨?_, headAligned_writesRight chip ram src addr cnt flash⟩
  rintro ⟨r, result, _⟩ ok
  apply Classical.byContradiction
  intro neither
  obtain ⟨more, odd⟩ := not_or.mp neither
  unfold writeBuff at result
  rw [if_neg (not_not.mpr ok), wordLoop_odd chip ram (Nat.le_of_not_lt more) odd] at result
  cases result

lemma headTaken_iff (cnt : Nat) (odd : addr.toNat % 2 = 1) (more : cnt ≠ 0) :
    (writeHword chip flash (startOf addr) (word 2 fun i =>
      if i = 0 then flash (startOf addr) else if cnt = 0 then flash addr else ram src)).1 = errOk ↔
      HeadTaken chip flash addr (ram src) := by
  have second := startOf_add addr
  rw [odd] at second
  have erased : half flash (startOf addr) &&& word 2 (fun i =>
      if i = 0 then flash (startOf addr) else ram src) = word 2 (fun i =>
        if i = 0 then flash (startOf addr) else ram src) ↔ flash addr &&& ram src = ram src := by
    rw [half_byte]
    constructor
    · intro fits
      have last := fits 1 Nat.one_lt_two
      rw [if_neg Nat.one_ne_zero, second] at last
      exact last
    · intro last i low
      rcases (by omega : i = 0 ∨ i = 1) with rfl | rfl
      · rw [if_pos rfl]
        have first : startOf addr + UInt32.ofNat 0 = startOf addr := UInt32.add_zero _
        rw [first, UInt8.and_self]
      · rw [if_neg Nat.one_ne_zero, second]
        exact last
  have data : word 2 (fun i => if i = 0 then flash (startOf addr) else ram src) =
      (flash (addr - 1)).toNat + 256 * (ram src).toNat := by
    rw [← startOf_odd odd]
    rfl
  simp only [if_neg more]
  rw [writeHword_ok_iff, erased, data, startOf_odd odd]
  rfl

/-- `write_buff` is right exactly where no halfword is read from an odd address. -/
theorem right_iff_loadsRight : WritesRight chip ram src addr cnt flash ↔
    LoadsRight chip ram src addr cnt flash := by
  rw [writesRight_iff_headAligned, HeadAligned, LoadsRight]
  rcases Nat.mod_two_eq_zero_or_one addr.toNat with even | odd
  · rw [writeHead_even chip ram src cnt.toNat flash even, even]
    dsimp only
    simp
  · obtain ⟨r, head, r_eq⟩ := writeHead_odd chip ram src cnt.toNat flash odd
    rw [head, odd]
    dsimp only
    by_cases few : cnt.toNat < 3
    · exact iff_of_true (fun _ => .inl (by omega)) (.inl few)
    have one : min 1 cnt.toNat = 1 := by omega
    have taken := headTaken_iff chip ram src addr flash cnt.toNat odd (by omega)
    have next : (src + UInt32.ofNat 1).toNat = (src.toNat + 1) % 4294967296 :=
      UInt32.toNat_add src 1
    rw [← r_eq] at taken
    rw [one, taken]
    constructor
    · intro aligned
      by_cases head : HeadTaken chip flash addr (ram src)
      · have even := (aligned head).resolve_left (by omega)
        exact .inr (.inl (by omega))
      · exact .inr (.inr ⟨rfl, head⟩)
    · intro right head
      rcases right with less | same | ⟨_, fails⟩
      · exact absurd less few
      · exact .inr (by omega)
      · exact absurd head fails

end

def exactChip : Chip where
  react _ _ data := ⟨fun _ => data, 1, data⟩
  clears _ _ _ erased := erased
  keeps _ _ data _ := Nat.and_self data

/-- Two bytes from an odd address to an even one. -/
theorem odd_source_faults : ¬ WritesRight exactChip (fun _ => 0) 1 0 2 (fun _ => 0xFF) := by
  rw [writesRight_iff_headAligned, HeadAligned]
  have even : (0 : UInt32).toNat % 2 = 0 := by decide
  rw [writeHead_even exactChip _ 1 _ _ even]
  decide

end HalfwordFlash
