import Mathlib.Data.List.Basic
import UBoot.Lib.Memory32

/-!
# Writing through the table of banks (common/flash.c)

`flash_write` looks up the two ends of a range and goes through the banks between them in the order
of the table. How a bank is written is `write_buff`, which each board has its own of.
-/

namespace FlashBanks

open Memory32

def flashUnknown : UInt32 := 0xFFFF

def errOk : Nat := 0
def errProtected : Nat := 4
def errInval : Nat := 8

structure Bank where
  size : UInt32
  sectorCount : UInt16
  flashId : UInt32
  start : Nat → UInt32
  protect : Nat → UInt8

/-- `addr2info`: the place in the table. The `- 1` is for a bank at the end of the addresses. -/
def addr2info (banks : List Bank) (addr : UInt32) : Option Nat :=
  banks.findIdx? fun info =>
    info.flashId ≠ flashUnknown ∧ info.start 0 ≤ addr ∧ addr ≤ info.start 0 + info.size - 1

def Bank.sEnd (info : Bank) : Int := Int.bmod (info.sectorCount.toNat - 1) (2 ^ 16)

def Bank.eAddr (info : Bank) (i : Nat) : UInt32 :=
  if (i : Int) = info.sEnd then info.start 0 + info.size else info.start (i + 1)

def Bank.hit (info : Bank) (addr stop : UInt32) : Bool :=
  (List.range info.sectorCount.toNat).any fun i =>
    info.start i ≤ stop ∧ addr < info.eAddr i ∧ info.protect i ≠ 0

/-- `write_buff (info, src, addr, len)`: what it returns, and the flash behind it. -/
abbrev WriteBuff := Bank → (ram : Mem) → (src addr len : UInt32) → (flash : Mem) → Nat × Mem

def writeLoop (write : WriteBuff) (ram : Mem) :
    List Bank → (src addr cnt : UInt32) → (flash : Mem) → Nat × Mem
  | [], _, _, _, flash => (errOk, flash)
  | info :: infos, src, addr, cnt, flash =>
    if cnt = 0 then (errOk, flash)
    else
      let len := info.start 0 + info.size - addr
      let len := if cnt < len then cnt else len
      let r := write info ram src addr len flash
      if r.1 ≠ 0 then r else writeLoop write ram infos (src + len) (addr + len) (cnt - len) r.2

def between (banks : List Bank) (first last : Nat) : List Bank := (banks.take (last + 1)).drop first

def flashWrite (write : WriteBuff) (banks : List Bank) (ram : Mem) (src addr cnt : UInt32)
    (flash : Mem) : Nat × Mem :=
  let stop := addr + cnt - 1
  if cnt = 0 then (errOk, flash)
  else
    match addr2info banks addr, addr2info banks stop with
    | some first, some last =>
      let infos := between banks first last
      if infos.any (fun info => info.hit addr stop) then (errProtected, flash)
      else writeLoop write ram infos src addr cnt flash
    | _, _ => (errInval, flash)

/-- A write of `cnt` bytes from `source`: if it is reported as done, all of them; otherwise some,
for another reason than a wrong or protected address. -/
structure Written (addr : UInt32) (cnt : Nat) (source : Nat → UInt8) (flash : Mem) (r : Nat × Mem) :
    Prop where
  ok : r.1 = errOk → r.2 = filled flash addr source cnt
  outside : ∀ a, cnt ≤ (a - addr).toNat → r.2 a = flash a
  codes : r.1 ≠ errInval ∧ r.1 ≠ errProtected

def Lawful (write : WriteBuff) : Prop := ∀ info ram src addr len flash,
  Written addr len.toNat (fun i => ram (src + UInt32.ofNat i)) flash
    (write info ram src addr len flash)

def Bank.Known (b : Bank) : Prop := b.flashId ≠ flashUnknown

instance Bank.decidableKnown (b : Bank) : Decidable b.Known :=
  inferInstanceAs (Decidable (b.flashId ≠ flashUnknown))

def Bank.stop (b : Bank) : Nat := (b.start 0).toNat + b.size.toNat

def Bank.sectorStop (b : Bank) (i : Nat) : Nat :=
  if i + 1 = b.sectorCount.toNat then b.stop else (b.start (i + 1)).toNat

structure Bank.Tiled (b : Bank) : Prop where
  nonempty : 0 < b.sectorCount.toNat
  sectors : ∀ i < b.sectorCount.toNat, (b.start i).toNat < b.sectorStop i
  fits : b.stop ≤ 4294967296

def InFlash (banks : List Bank) (a : UInt32) : Prop :=
  ∃ b ∈ banks, b.Known ∧ (b.start 0).toNat ≤ a.toNat ∧ a.toNat < b.stop

def InProtected (banks : List Bank) (a : UInt32) : Prop :=
  ∃ b ∈ banks, b.Known ∧ ∃ i < b.sectorCount.toNat, b.protect i ≠ 0 ∧
    (b.start i).toNat ≤ a.toNat ∧ a.toNat < b.sectorStop i

def InRange (addr cnt a : UInt32) : Prop :=
  addr.toNat ≤ a.toNat ∧ a.toNat < addr.toNat + cnt.toNat

structure Kept (banks : List Bank) (ram : Mem) (src addr cnt : UInt32) (flash : Mem)
    (r : Nat × Mem) : Prop where
  outside : ∀ a, ¬ InRange addr cnt a → r.2 a = flash a
  unprotected : ∀ a, InProtected banks a → r.2 a = flash a
  refused : r.1 = errInval ∨ r.1 = errProtected → r.2 = flash
  ok : r.1 = errOk → ∀ i < cnt.toNat, addr.toNat + i < 4294967296 ∧
    InFlash banks (addr + UInt32.ofNat i) ∧
    r.2 (addr + UInt32.ofNat i) = ram (src + UInt32.ofNat i)

def WritesRight (banks : List Bank) (addr cnt : UInt32) : Prop :=
  ∀ write, Lawful write → ∀ ram src flash,
    Kept banks ram src addr cnt flash (flashWrite write banks ram src addr cnt flash)

def Refused (banks : List Bank) (addr cnt : UInt32) : Prop :=
  match addr2info banks addr, addr2info banks (addr + cnt - 1) with
  | some first, some last =>
    (between banks first last).any (fun info => info.hit addr (addr + cnt - 1)) = true
  | _, _ => True

/-- The banks of the ends are in the order of the table, and the bytes in flash that is not
protected. -/
structure Sound (banks : List Bank) (addr cnt : UInt32) : Prop where
  ends : addr.toNat + cnt.toNat ≤ 4294967296
  order : ∀ first last, addr2info banks addr = some first →
    addr2info banks (addr + cnt - 1) = some last → first ≤ last
  inFlash : ∀ a, InRange addr cnt a → InFlash banks a
  unprotected : ∀ a, InRange addr cnt a → ¬ InProtected banks a

variable {b : Bank} {addr cnt : UInt32} {banks : List Bank}

lemma Bank.Tiled.start_zero_le (tiled : b.Tiled) {i : Nat} (sector : i < b.sectorCount.toNat) :
    (b.start 0).toNat ≤ (b.start i).toNat := by
  induction i with
  | zero => exact Nat.le_refl _
  | succ i ih =>
    have before := tiled.sectors i (by omega)
    rw [Bank.sectorStop, if_neg (by omega)] at before
    omega

lemma Bank.Tiled.start_lt_stop (tiled : b.Tiled) : (b.start 0).toNat < b.stop := by
  have nonempty := tiled.nonempty
  have first := tiled.start_zero_le (i := b.sectorCount.toNat - 1) (by omega)
  have last := tiled.sectors (b.sectorCount.toNat - 1) (by omega)
  rw [Bank.sectorStop, if_pos (by omega)] at last
  omega

lemma Bank.Tiled.lt_stop (tiled : b.Tiled) (below : addr ≤ b.start 0 + b.size - 1) :
    addr.toNat < b.stop := by
  have nonempty := tiled.start_lt_stop
  have fits := tiled.fits
  have compared := UInt32.le_iff_toNat_le.mp below
  rw [UInt32.toNat_sub, UInt32.toNat_add, UInt32.toNat_one] at compared
  unfold Bank.stop at nonempty fits ⊢
  omega

lemma addr2info_spec (tiled : ∀ b ∈ banks, b.Known → b.Tiled) {place : Nat}
    (found : addr2info banks addr = some place) :
    ∃ b, banks[place]? = some b ∧ b.Tiled ∧ (b.start 0).toNat ≤ addr.toNat ∧
      addr.toNat < b.stop := by
  unfold addr2info at found
  obtain ⟨inside, holds, -⟩ := List.findIdx?_eq_some_iff_getElem.mp found
  obtain ⟨known, above, below⟩ := of_decide_eq_true holds
  have mine := tiled _ (List.getElem_mem inside) known
  exact ⟨_, List.getElem?_eq_getElem inside, mine, UInt32.le_iff_toNat_le.mp above,
    mine.lt_stop below⟩

lemma addr2info_known {place : Nat} (found : addr2info banks addr = some place)
    (here : banks[place]? = some b) : b.Known := by
  unfold addr2info at found
  obtain ⟨inside, holds, -⟩ := List.findIdx?_eq_some_iff_getElem.mp found
  obtain rfl := Option.some.inj ((List.getElem?_eq_getElem inside).symm.trans here)
  exact (of_decide_eq_true holds).1

variable {flash ram : Mem} {write : WriteBuff} {src : UInt32}

def chunk (info : Bank) (addr cnt : UInt32) : UInt32 :=
  if cnt < info.start 0 + info.size - addr then cnt else info.start 0 + info.size - addr

lemma chunk_le (info : Bank) (addr cnt : UInt32) : (chunk info addr cnt).toNat ≤ cnt.toNat := by
  unfold chunk
  split
  · exact Nat.le_refl _
  case isFalse more => exact UInt32.le_iff_toNat_le.mp (UInt32.not_lt.mp more)

lemma sub_chunk (info : Bank) (addr cnt : UInt32) :
    (cnt - chunk info addr cnt).toNat = cnt.toNat - (chunk info addr cnt).toNat :=
  UInt32.toNat_sub_of_le _ _ (UInt32.le_iff_toNat_le.mpr (chunk_le info addr cnt))

lemma chunk_eq {info : Bank} (cnt : UInt32) (inside : addr.toNat < info.stop)
    (near : info.stop < addr.toNat + 4294967296) :
    (chunk info addr cnt).toNat = min cnt.toNat (info.stop - addr.toNat) := by
  have rest : (info.start 0 + info.size - addr).toNat = info.stop - addr.toNat := by
    have := addr.toNat_lt
    rw [UInt32.toNat_sub, UInt32.toNat_add]
    unfold Bank.stop at inside near ⊢
    omega
  unfold chunk
  split
  case isTrue less =>
    have := UInt32.lt_iff_toNat_lt.mp less
    omega
  case isFalse more =>
    have := UInt32.le_iff_toNat_le.mp (UInt32.not_lt.mp more)
    omega

lemma written_nothing (addr : UInt32) (source : Nat → UInt8) (flash : Mem) :
    Written addr 0 source flash (errOk, flash) where
  ok _ := (filled_zero flash addr source).symm
  outside _ _ := rfl
  codes := by simp [errOk, errInval, errProtected]

lemma Written.stopped {k n : Nat} {source : Nat → UInt8} {r : Nat × Mem}
    (first : Written addr k source flash r) (failed : r.1 ≠ 0) :
    Written addr (k + n) source flash r where
  ok success := absurd success failed
  outside a far := first.outside a (by omega)
  codes := first.codes

lemma Written.append {k n : Nat} {source : Nat → UInt8} {r r' : Nat × Mem}
    (first : Written addr k source flash r) (success : r.1 = 0)
    (second : Written (addr + UInt32.ofNat k) n (fun i => source (k + i)) r.2 r')
    (short : k + n < 4294967296) : Written addr (k + n) source flash r' where
  ok done := by
    rw [second.ok done, first.ok success]
    exact filled_append flash addr source short
  outside a far := by
    have moved := sub_offset a addr (k := k) (by omega)
    rw [if_pos (by omega)] at moved
    rw [second.outside a (by omega), first.outside a (by omega)]
  codes := second.codes

lemma writeLoop_cons (lawful : Lawful write) {info : Bank} {infos : List Bank}
    (rest : ∀ flash', Written (addr + chunk info addr cnt) (cnt - chunk info addr cnt).toNat
      (fun i => ram (src + chunk info addr cnt + UInt32.ofNat i)) flash'
      (writeLoop write ram infos (src + chunk info addr cnt) (addr + chunk info addr cnt)
        (cnt - chunk info addr cnt) flash')) :
    Written addr cnt.toNat (fun i => ram (src + UInt32.ofNat i)) flash
      (writeLoop write ram (info :: infos) src addr cnt flash) := by
  by_cases empty : cnt = 0
  · rw [writeLoop, if_pos empty, empty]
    exact written_nothing addr _ flash
  rw [writeLoop, if_neg empty]
  change Written addr cnt.toNat _ flash
    (if (write info ram src addr (chunk info addr cnt) flash).1 ≠ 0 then _ else _)
  have first := lawful info ram src addr (chunk info addr cnt) flash
  have parts : (chunk info addr cnt).toNat + (cnt - chunk info addr cnt).toNat = cnt.toNat := by
    have := chunk_le info addr cnt
    rw [sub_chunk]
    omega
  have short := cnt.toNat_lt
  rw [← parts]
  split
  case isTrue failed => exact first.stopped failed
  case isFalse success =>
    apply first.append (Classical.not_not.mp success) _ (by omega)
    simp only [UInt32.ofNat_add, UInt32.ofNat_toNat, ← UInt32.add_assoc]
    exact rest _

lemma writeLoop_written (lawful : Lawful write) (infos : List Bank) (fits : b.stop ≤ 4294967296)
    (reach : cnt.toNat ≠ 0 → addr.toNat + cnt.toNat ≤ b.stop)
    (near : cnt.toNat ≠ 0 → b.stop < addr.toNat + 4294967296) :
    Written addr cnt.toNat (fun i => ram (src + UInt32.ofNat i)) flash
      (writeLoop write ram (infos ++ [b]) src addr cnt flash) := by
  induction infos generalizing src addr cnt flash with
  | nil =>
    apply writeLoop_cons lawful
    intro flash'
    have all : (cnt - chunk b addr cnt).toNat = 0 := by
      rw [sub_chunk]
      by_cases empty : cnt.toNat = 0
      · omega
      · have := reach empty
        rw [chunk_eq cnt (by omega) (near empty)]
        omega
    rw [all, writeLoop]
    exact written_nothing _ _ flash'
  | cons info infos ih =>
    apply writeLoop_cons lawful
    intro flash'
    have left := sub_chunk info addr cnt
    have moved : (addr + chunk info addr cnt).toNat =
        (addr.toNat + (chunk info addr cnt).toNat) % 4294967296 := UInt32.toNat_add _ _
    apply ih
    · intro more
      omega
    · intro more
      omega

variable {first last : Nat}

lemma between_backwards (backwards : last < first) :
    between banks first last = [] := by
  rw [between, List.drop_eq_nil_iff, List.length_take]
  omega

lemma between_self (here : banks[last]? = some b) :
    between banks last last = [b] := by
  obtain ⟨inside, rfl⟩ := List.getElem?_eq_some_iff.mp here
  rw [between, List.drop_take, Nat.add_sub_cancel_left, List.drop_eq_getElem_cons inside]
  rfl

lemma between_ends {b' : Bank} (order : first < last) (here : banks[first]? = some b)
    (there : banks[last]? = some b') :
    ∃ infos, between banks first last = b :: (infos ++ [b']) := by
  obtain ⟨inside, rfl⟩ := List.getElem?_eq_some_iff.mp here
  obtain ⟨inside', rfl⟩ := List.getElem?_eq_some_iff.mp there
  have before : first < (banks.take last).length := by
    rw [List.length_take]
    omega
  refine ⟨(banks.take last).drop (first + 1), ?_⟩
  rw [between, List.take_succ_eq_append_getElem inside',
    List.drop_append_of_le_length (Nat.le_of_lt before), List.drop_eq_getElem_cons before,
    List.getElem_take, List.cons_append]

lemma writeLoop_between (lawful : Lawful write) (tiled : ∀ b ∈ banks, b.Known → b.Tiled)
    (some_bytes : 0 < cnt.toNat) (ends : addr.toNat + cnt.toNat ≤ 4294967296) (order : first ≤ last)
    (start : addr2info banks addr = some first)
    (stop : addr2info banks (addr + cnt - 1) = some last) :
    Written addr cnt.toNat (fun i => ram (src + UInt32.ofNat i)) flash
      (writeLoop write ram (between banks first last) src addr cnt flash) := by
  obtain ⟨b, here, _, above, below⟩ := addr2info_spec tiled start
  obtain ⟨b', there, tiled', above', below'⟩ := addr2info_spec tiled stop
  have top : (addr + cnt - 1).toNat = addr.toNat + cnt.toNat - 1 := by
    rw [UInt32.toNat_sub, UInt32.toNat_add, UInt32.toNat_one]
    omega
  have fits := tiled'.fits
  have small := b.size.toNat_lt
  have near : b.stop < addr.toNat + 4294967296 := by
    unfold Bank.stop
    omega
  rcases Nat.lt_or_eq_of_le order with before | rfl
  · obtain ⟨infos, banks_eq⟩ := between_ends before here there
    rw [banks_eq]
    apply writeLoop_cons lawful
    intro flash'
    -- The first bank takes at least one byte, so the rest of the range has an end behind 0.
    have taken := chunk_eq cnt below near
    have left := sub_chunk b addr cnt
    have moved : (addr + chunk b addr cnt).toNat =
        (addr.toNat + (chunk b addr cnt).toNat) % 4294967296 := UInt32.toNat_add _ _
    apply writeLoop_written lawful infos fits
    · intro more
      omega
    · intro more
      omega
  · obtain rfl : b = b' := Option.some.inj (here.symm.trans there)
    rw [between_self here]
    apply writeLoop_written lawful [] fits
    · intro _
      omega
    · intro _
      exact near

lemma inRange_iff {a : UInt32} (ends : addr.toNat + cnt.toNat ≤ 4294967296) :
    InRange addr cnt a ↔ (a - addr).toNat < cnt.toNat := by
  have := a.toNat_lt
  rw [InRange, UInt32.toNat_sub]
  omega

lemma inRange_add (ends : addr.toNat + cnt.toNat ≤ 4294967296) {i : Nat} (inside : i < cnt.toNat) :
    InRange addr cnt (addr + UInt32.ofNat i) := by
  rw [inRange_iff ends, offset_toNat addr (by omega)]
  exact inside

lemma Written.kept {r : Nat × Mem}
    (written : Written addr cnt.toNat (fun i => ram (src + UInt32.ofNat i)) flash r)
    (sound : Sound banks addr cnt) : Kept banks ram src addr cnt flash r where
  outside a far := written.outside a (Nat.le_of_not_lt (mt (inRange_iff sound.ends).mpr far))
  unprotected a hidden := by
    have far := fun inside => sound.unprotected a inside hidden
    exact written.outside a (Nat.le_of_not_lt (mt (inRange_iff sound.ends).mpr far))
  refused code := absurd code (not_or.mpr written.codes)
  ok done i inside := by
    have ends := sound.ends
    refine ⟨by omega, sound.inFlash _ (inRange_add ends inside), ?_⟩
    rw [written.ok done, filled, offset_toNat addr (by omega), if_pos inside]

lemma kept_refused {code : Nat} (refused : code ≠ errOk) :
    Kept banks ram src addr cnt flash (code, flash) where
  outside _ _ := rfl
  unprotected _ _ := rfl
  refused _ := rfl
  ok done := absurd done refused

lemma kept_empty :
    Kept banks ram src addr 0 flash (errOk, flash) where
  outside _ _ := rfl
  unprotected _ _ := rfl
  refused _ := rfl
  ok _ i inside := absurd inside (Nat.not_lt_zero i)

lemma flashWrite_invalid (more : cnt ≠ 0)
    (missed : addr2info banks addr = none ∨ addr2info banks (addr + cnt - 1) = none) :
    flashWrite write banks ram src addr cnt flash = (errInval, flash) := by
  rw [flashWrite, if_neg more]
  rcases missed with start | stop
  · rw [start]
  · rw [stop]
    cases addr2info banks addr <;> rfl

lemma flashWrite_found (more : cnt ≠ 0) (start : addr2info banks addr = some first)
    (stop : addr2info banks (addr + cnt - 1) = some last) :
    flashWrite write banks ram src addr cnt flash =
      if (between banks first last).any (fun info => info.hit addr (addr + cnt - 1))
      then (errProtected, flash)
      else writeLoop write ram (between banks first last) src addr cnt flash := by
  rw [flashWrite, if_neg more, start, stop]

lemma refused_found (start : addr2info banks addr = some first)
    (stop : addr2info banks (addr + cnt - 1) = some last) : Refused banks addr cnt ↔
      (between banks first last).any (fun info => info.hit addr (addr + cnt - 1)) = true := by
  rw [Refused, start, stop]

lemma refused_missed
    (missed : addr2info banks addr = none ∨ addr2info banks (addr + cnt - 1) = none) :
    Refused banks addr cnt := by
  unfold Refused
  rcases missed with start | stop
  · rw [start]
    trivial
  · rw [stop]
    cases addr2info banks addr <;> trivial

lemma ends_cases (banks : List Bank) (addr cnt : UInt32) :
    (addr2info banks addr = none ∨ addr2info banks (addr + cnt - 1) = none) ∨
      ∃ first last, addr2info banks addr = some first ∧
        addr2info banks (addr + cnt - 1) = some last := by
  cases addr2info banks addr with
  | none => exact .inl (.inl rfl)
  | some first =>
    cases addr2info banks (addr + cnt - 1) with
    | none => exact .inl (.inr rfl)
    | some last => exact .inr ⟨first, last, rfl, rfl⟩

lemma refused_writesRight (more : cnt ≠ 0) (refused : Refused banks addr cnt) :
    WritesRight banks addr cnt := by
  intro write _ ram src flash
  rcases ends_cases banks addr cnt with missed | ⟨first, last, start, stop⟩
  · rw [flashWrite_invalid more missed]
    exact kept_refused (by decide)
  · rw [flashWrite_found more start stop, if_pos ((refused_found start stop).mp refused)]
    exact kept_refused (by decide)

lemma sound_writesRight (tiled : ∀ b ∈ banks, b.Known → b.Tiled) (more : cnt ≠ 0)
    (passed : ¬ Refused banks addr cnt) (sound : Sound banks addr cnt) :
    WritesRight banks addr cnt := by
  intro write lawful ram src flash
  rcases ends_cases banks addr cnt with missed | ⟨first, last, start, stop⟩
  · exact absurd (refused_missed missed) passed
  rw [flashWrite_found more start stop, if_neg (mt (refused_found start stop).mpr passed)]
  have some_bytes : 0 < cnt.toNat :=
    Nat.pos_of_ne_zero fun none => more (UInt32.toNat_inj.mp none)
  exact (writeLoop_between lawful tiled some_bytes sound.ends
    (sound.order first last start stop) start stop).kept sound

def copyWrite : WriteBuff := fun _ ram src addr len flash =>
  (errOk, filled flash addr (fun i => ram (src + UInt32.ofNat i)) len.toNat)

lemma copyWrite_lawful : Lawful copyWrite := fun _ _ _ _ _ _ =>
  { ok := fun _ => rfl
    outside := fun _ far => if_neg (Nat.not_lt.mpr far)
    codes := by simp [copyWrite, errOk, errInval, errProtected] }

lemma writeLoop_copyWrite (ram : Mem) (infos : List Bank) (src addr cnt : UInt32) (flash : Mem) :
    (writeLoop copyWrite ram infos src addr cnt flash).1 = errOk := by
  induction infos generalizing src addr cnt flash with
  | nil => rfl
  | cons info infos ih =>
    unfold writeLoop
    split
    · rfl
    · exact ih _ _ _ _

lemma WritesRight.sound (right : WritesRight banks addr cnt) (more : cnt ≠ 0)
    (passed : ¬ Refused banks addr cnt) :
    Sound banks addr cnt := by
  have some_bytes : 0 < cnt.toNat := Nat.pos_of_ne_zero fun none => more (UInt32.toNat_inj.mp none)
  rcases ends_cases banks addr cnt with missed | ⟨first, last, start, stop⟩
  · exact absurd (refused_missed missed) passed
  have kept := right copyWrite copyWrite_lawful (fun _ => 0) 0 (fun _ => 0xFF)
  rw [flashWrite_found more start stop, if_neg (mt (refused_found start stop).mpr passed)] at kept
  have done := kept.ok (writeLoop_copyWrite _ _ _ _ _ _)
  have ends : addr.toNat + cnt.toNat ≤ 4294967296 := by
    have := (done (cnt.toNat - 1) (by omega)).1
    omega
  have reached : ∀ a, InRange addr cnt a → ∃ i < cnt.toNat, addr + UInt32.ofNat i = a := by
    intro a inside
    refine ⟨(a - addr).toNat, (inRange_iff ends).mp inside, ?_⟩
    rw [UInt32.ofNat_toNat]
    grind
  constructor
  case ends => exact ends
  case order =>
    intro first' last' start' stop'
    obtain rfl := Option.some.inj (start.symm.trans start')
    obtain rfl := Option.some.inj (stop.symm.trans stop')
    apply Nat.le_of_not_lt
    intro backwards
    -- Nothing is written then, and the call returns ERR_OK.
    have nothing := (done 0 some_bytes).2.2
    rw [between_backwards backwards] at nothing
    exact absurd nothing (by simp [writeLoop])
  case inFlash =>
    intro a inside
    obtain ⟨i, less, rfl⟩ := reached a inside
    exact (done i less).2.1
  case unprotected =>
    intro a inside hidden
    obtain ⟨i, less, rfl⟩ := reached a inside
    have changed := (done i less).2.2
    rw [kept.unprotected _ hidden] at changed
    exact absurd changed (by decide)

/-! ## Banks without holes -/

/-- Known banks, each from its edge to the next one. -/
structure Joined (banks : List Bank) (edge : Nat → Nat) : Prop where
  rising : ∀ m n, m ≤ n → edge m ≤ edge n
  bank : ∀ n b, banks[n]? = some b → b.Known ∧ (b.start 0).toNat = edge n ∧ b.stop = edge (n + 1)

section
variable {edge : Nat → Nat} (joined : Joined banks edge)
include joined

lemma Joined.inFlash {a : UInt32} (there : last < banks.length) (above : edge 0 ≤ a.toNat)
    (below : a.toNat < edge (last + 1)) : InFlash banks a := by
  induction last with
  | zero =>
    obtain ⟨known, start, stop⟩ := joined.bank 0 _ (List.getElem?_eq_getElem there)
    exact ⟨_, List.getElem_mem there, known, by omega, by omega⟩
  | succ n ih =>
    obtain ⟨known, start, stop⟩ := joined.bank _ _ (List.getElem?_eq_getElem there)
    by_cases inside : edge (n + 1) ≤ a.toNat
    · exact ⟨_, List.getElem_mem there, known, by omega, by omega⟩
    · exact ih (by omega) (by omega)

/-- There a write of bytes that are not protected is right. -/
theorem Joined.writesRight (tiled : ∀ b ∈ banks, b.Known → b.Tiled)
    (ends : addr.toNat + cnt.toNat ≤ 4294967296)
    (unprotected : ∀ a, InRange addr cnt a → ¬ InProtected banks a) :
    WritesRight banks addr cnt := by
  by_cases empty : cnt = 0
  · subst empty
    exact fun _ _ _ _ _ => kept_empty
  by_cases refused : Refused banks addr cnt
  · exact refused_writesRight empty refused
  rcases ends_cases banks addr cnt with missed | ⟨first, last, start, stop⟩
  · exact absurd (refused_missed missed) refused
  obtain ⟨b, here, -, above, -⟩ := addr2info_spec tiled start
  obtain ⟨b', there, -, above', below⟩ := addr2info_spec tiled stop
  obtain ⟨-, from_first, -⟩ := joined.bank first b here
  obtain ⟨-, -, to_last⟩ := joined.bank last b' there
  have bottom := joined.rising 0 first first.zero_le
  have some_bytes : cnt.toNat ≠ 0 := fun none => empty (UInt32.toNat_inj.mp none)
  have stop_eq : (addr + cnt - 1).toNat = addr.toNat + cnt.toNat - 1 := by
    rw [UInt32.toNat_sub, UInt32.toNat_add, UInt32.toNat_one]
    omega
  refine sound_writesRight tiled empty refused ⟨ends, fun _ _ start' stop' => ?_,
    fun a ⟨low, high⟩ => ?_, unprotected⟩
  · cases start.symm.trans start'
    cases stop.symm.trans stop'
    refine Nat.le_of_not_lt fun backwards => ?_
    have := joined.rising (last + 1) first backwards
    omega
  · exact joined.inFlash (List.getElem?_eq_some_iff.mp there).1 (by omega) (by omega)

end

end FlashBanks
