import Mathlib.Data.List.Basic
import UBoot.Lib.Memory32

/-!
# Reading U-Boot at NAND boot (board/samsung/hyq2440/nand_read.c)

`nand_read_ll` and the functions under it, with CONFIG_S3C2440_NAND_SKIP_BAD. The chip
answers a page read with the bytes of that page, spare area included.
-/

namespace BootRead

open Memory32

abbrev Cells := Nat → Nat → UInt8

structure BootNand where
  page_size : UInt32
  block_size : UInt32
  bad_block_offset : UInt32
  deriving DecidableEq

/-- The chips `nand_read_ll` knows by their id. -/
def bootNand (nand_id : UInt16) : Option BootNand :=
  if nand_id = 0xec76 ∨ nand_id = 0xad76 then some ⟨512, 16 * 1024, 5⟩
  else if nand_id = 0xecf1 ∨ nand_id = 0xecda ∨ nand_id = 0xecd3 then
    some ⟨2048, 128 * 1024, 2048⟩
  else none

def isBadBlock (cells : Cells) (nand : BootNand) (addr : UInt32) : Bool :=
  if nand.page_size = 2048 then
    cells (addr >>> 11).toNat nand.bad_block_offset.toNat ≠ 0xff
  else true

/-- `nand_read_page`: what it returns (-1 as 2 ^ 32 - 1), and the memory. -/
def nandReadPage (cells : Cells) (nand : BootNand) (buf addr : UInt32) (mem : Mem) :
    UInt32 × Mem :=
  if nand.page_size = 2048 then
    (nand.page_size, copyBytes (cells (addr >>> 11).toNat) nand.page_size.toNat 0 buf mem)
  else (0xffffffff, mem)

/-- `i & (nand.block_size-1) == 0`, as C groups it: the comparison comes first. -/
def atBlock (nand : BootNand) (i : UInt32) : UInt32 :=
  i &&& (if nand.block_size - 1 = 0 then 1 else 0)

/-- The loop of `nand_read_ll`. `i` is an `int`, compared as an unsigned number. -/
def readLoop (cells : Cells) (nand : BootNand) (start_addr : UInt32) :
    Nat → (i size buf : UInt32) → Mem → Option Mem
  | 0, _, _, _, _ => none
  | fuel + 1, i, size, buf, mem =>
    if i < start_addr + size then
      if atBlock nand i ≠ 0 ∧
          (isBadBlock cells nand i ∨ isBadBlock cells nand (i + nand.page_size)) then
        readLoop cells nand start_addr fuel (i + nand.block_size) (size + nand.block_size) buf mem
      else
        let (j, mem) := nandReadPage cells nand buf i mem
        readLoop cells nand start_addr fuel (i + j) size (buf + j) mem
    else some mem

/-- `nand_read_ll`: what it returns and the memory. -/
def nandReadLl (fuel : Nat) (cells : Cells) (nand_id : UInt16) (mem : Mem)
    (buf start_addr size : UInt32) : Option (Int × Mem) :=
  match bootNand nand_id with
  | none => some (-1, mem)
  | some nand =>
    if start_addr &&& (nand.block_size - 1) ≠ 0 ∨ size &&& (nand.block_size - 1) ≠ 0 then
      some (-1, mem)
    else (readLoop cells nand start_addr fuel start_addr size buf mem).map (fun mem => (0, mem))

def markerColumn (nand : BootNand) : Nat :=
  if nand.page_size = 2048 then 2048 else 512 + nand.bad_block_offset.toNat

def BootNand.pages (nand : BootNand) : Nat := nand.block_size.toNat / nand.page_size.toNat

def markedBad (cells : Cells) (nand : BootNand) (block : Nat) : Bool :=
  cells (block * nand.pages) (markerColumn nand) ≠ 0xff ||
    cells (block * nand.pages + 1) (markerColumn nand) ≠ 0xff

def blockByte (cells : Cells) (nand : BootNand) (block off : Nat) : UInt8 :=
  cells (block * nand.pages + off / nand.page_size.toNat) (off % nand.page_size.toNat)

/-- The good blocks from `first` on, up to 2 ^ 31 bytes. -/
def goodBlocks (bad : Nat → Bool) (nand : BootNand) (first : Nat) : List Nat :=
  (List.range' first (2147483648 / nand.block_size.toNat - first)).filter (fun b => !bad b)

/-- `buf[0..size-1]` has the blocks `blocks`, the rest of the memory is as it was. -/
def Filled (cells : Cells) (nand : BootNand) (blocks : List Nat) (buf size : UInt32)
    (mem mem' : Mem) : Prop :=
  (∀ k b, blocks[k]? = some b → ∀ off < nand.block_size.toNat,
    k * nand.block_size.toNat + off < size.toNat →
    mem' (buf + UInt32.ofNat (k * nand.block_size.toNat + off)) = blockByte cells nand b off) ∧
  ∀ a : UInt32, size.toNat ≤ (a - buf).toNat → mem' a = mem a

/-!
## What NAND boot reads

The pages are read one after the other from `start_addr`: the test for bad blocks is never
made, and small pages are not read at all.
-/

variable {nand : BootNand} {cells : Cells} {start_addr size buf : UInt32} {mem : Mem}

lemma atBlock_zero (more : nand.block_size - 1 ≠ 0) (i : UInt32) :
    atBlock nand i = 0 := by
  simp [atBlock, more]

lemma readLoop_large (page : nand.page_size = 2048) (more : nand.block_size - 1 ≠ 0)
    (left fuel : Nat) (i buf : UInt32) (mem : Mem)
    (stop : (start_addr + size).toNat = i.toNat + 2048 * left) :
    readLoop cells nand start_addr (left + 1 + fuel) i size buf mem = some (fun a =>
      if (a - buf).toNat < 2048 * left then
        cells (i.toNat / 2048 + (a - buf).toNat / 2048) ((a - buf).toNat % 2048)
      else mem a) := by
  have bound := (start_addr + size).toNat_lt
  induction left generalizing i buf mem with
  | zero =>
    have ended : ¬ i < start_addr + size := by
      rw [UInt32.lt_iff_toNat_lt]
      omega
    rw [zero_add, add_comm, readLoop, if_neg ended]
    simp
  | succ left ih =>
    have goes_on : i < start_addr + size := by
      rw [UInt32.lt_iff_toNat_lt]
      omega
    have step : (i + 2048).toNat = i.toNat + 2048 := by
      rw [UInt32.toNat_add]
      have : (2048 : UInt32).toNat = 2048 := rfl
      omega
    have number : (i >>> 11).toNat = i.toNat / 2048 := by
      rw [UInt32.toNat_shiftRight]
      exact Nat.shiftRight_eq_div_pow _ _
    have fuels : left + 1 + 1 + fuel = (left + 1 + fuel) + 1 := by omega
    rw [fuels, readLoop, if_pos goes_on, if_neg (fun h => h.1 (atBlock_zero more i))]
    have read : nandReadPage cells nand buf i mem =
        (2048, copyBytes (cells (i.toNat / 2048)) 2048 0 buf mem) := by
      rw [nandReadPage, if_pos page, number, page]
      rfl
    have stop' : (start_addr + size).toNat = (i + 2048).toNat + 2048 * left := by
      rw [step]
      omega
    rw [read]
    dsimp only
    rw [ih _ _ _ stop']
    refine congrArg some (funext fun a => ?_)
    have closed := copyBytes_eq (cells (i.toNat / 2048)) 2048 0 buf mem (by omega) a
    rw [closed, zero_add]
    have moved := toNat_sub_add a buf 2048
    have bytes : (2048 : UInt32).toNat = 2048 := rfl
    rw [bytes] at moved
    rcases Nat.lt_or_ge (a - buf).toNat 2048 with first | later
    · have past : ¬ (a - (buf + 2048)).toNat < 2048 * left := by
        rw [moved, if_neg (by omega)]
        omega
      rw [if_neg past, if_pos first, if_pos (by omega), Nat.div_eq_of_lt first,
        Nat.mod_eq_of_lt first, add_zero]
    · have rest : (a - (buf + 2048)).toNat = (a - buf).toNat - 2048 := by
        rw [moved, if_pos later]
      have col : ((a - buf).toNat - 2048) % 2048 = (a - buf).toNat % 2048 := by omega
      have row : (i.toNat + 2048) / 2048 + ((a - buf).toNat - 2048) / 2048 =
          i.toNat / 2048 + (a - buf).toNat / 2048 := by omega
      rw [rest, step, col, row, if_neg (Nat.not_lt.mpr later)]
      by_cases inside : (a - buf).toNat - 2048 < 2048 * left
      · rw [if_pos inside, if_pos (by omega)]
      · rw [if_neg inside, if_neg (by omega)]

lemma readLoop_more {i : UInt32} {mem' : Mem} {fuel : Nat} (extra : Nat)
    (h : readLoop cells nand start_addr fuel i size buf mem = some mem') :
    readLoop cells nand start_addr (fuel + extra) i size buf mem = some mem' := by
  induction fuel generalizing i size buf mem with
  | zero => exact absurd h (by simp [readLoop])
  | succ fuel ih =>
    rw [Nat.add_right_comm, readLoop]
    rw [readLoop] at h
    split at h
    · rename_i inside
      rw [if_pos inside]
      split at h
      · rename_i bad
        rw [if_pos bad]
        exact ih h
      · rename_i good
        rw [if_neg good]
        exact ih h
    · rename_i ended
      rw [if_neg ended]
      exact h

lemma readLoop_small {i : UInt32} {mem' : Mem} {fuel : Nat} (page : nand.page_size ≠ 2048)
    (h : readLoop cells nand start_addr fuel i size buf mem = some mem') : mem' = mem := by
  induction fuel generalizing i size buf with
  | zero => exact absurd h (by simp [readLoop])
  | succ fuel ih =>
    rw [readLoop] at h
    split at h
    · split at h
      · exact ih h
      · rw [nandReadPage, if_neg page] at h
        exact ih h
    · exact (Option.some.inj h).symm

lemma goodBlocks_good {bad : Nat → Bool} {first k b : Nat}
    (h : (goodBlocks bad nand first)[k]? = some b) : bad b = false ∧ first ≤ b := by
  have member := List.mem_of_getElem? h
  simp only [goodBlocks, List.mem_filter, List.mem_range'_1, Bool.not_eq_true'] at member
  exact ⟨member.2, member.1.1⟩

lemma goodBlocks_length (bad : Nat → Bool) (nand : BootNand) (first : Nat) :
    (goodBlocks bad nand first).length ≤ 2147483648 / nand.block_size.toNat - first := by
  rw [goodBlocks]
  exact Nat.le_trans (List.length_filter_le _ _) (Nat.le_of_eq List.length_range')

lemma goodBlocks_straight {bad : Nat → Bool} {first n k b : Nat}
    (good : ∀ j < n, bad (first + j) = false)
    (room : first + n ≤ 2147483648 / nand.block_size.toNat) (k_lt : k < n)
    (h : (goodBlocks bad nand first)[k]? = some b) : b = first + k := by
  have split : List.range' first (2147483648 / nand.block_size.toNat - first) =
      List.range' first n ++
        List.range' (first + n) (2147483648 / nand.block_size.toNat - first - n) := by
    have sum : 2147483648 / nand.block_size.toNat - first =
        n + (2147483648 / nand.block_size.toNat - first - n) := by omega
    rw [List.range'_append_1, ← sum]
  have whole : (List.range' first n).filter (fun b => !bad b) = List.range' first n := by
    rw [List.filter_eq_self]
    intro a member
    obtain ⟨low, high⟩ := List.mem_range'_1.mp member
    obtain ⟨j, rfl⟩ : ∃ j, a = first + j := ⟨a - first, by omega⟩
    simp [good j (by omega)]
  rw [goodBlocks, split, List.filter_append, whole,
    List.getElem?_append_left (by rw [List.length_range']; exact k_lt)] at h
  simpa [List.getElem?_range', k_lt] using h.symm

variable {nand_id : UInt16}

/-- A chip with these bad blocks, and in block `b` nothing but `f b`. -/
def paint (nand : BootNand) (bad : Nat → Bool) (f : Nat → UInt8) : Cells := fun page col =>
  if col = markerColumn nand then if bad (page / nand.pages) then 0 else 0xff
  else f (page / nand.pages)

structure Sizes (nand : BootNand) : Prop where
  blocks : nand.block_size.toNat = nand.pages * nand.page_size.toNat
  pages : 2 ≤ nand.pages
  page : 0 < nand.page_size.toNat
  marker : nand.page_size.toNat ≤ markerColumn nand
  more : nand.block_size - 1 ≠ 0

lemma sizes (known : bootNand nand_id = some nand) :
    Sizes nand := by
  have one_of : nand = ⟨512, 16 * 1024, 5⟩ ∨ nand = ⟨2048, 128 * 1024, 2048⟩ := by
    simp only [bootNand] at known
    split_ifs at known
    · exact .inl (Option.some.inj known).symm
    · exact .inr (Option.some.inj known).symm
  rcases one_of with rfl | rfl
  · exact ⟨by decide, by decide, by decide, by decide, by decide⟩
  · exact ⟨by decide, by decide, by decide, by decide, by decide⟩

section Paint

variable {nand : BootNand} (s : Sizes nand) (bad : Nat → Bool) (f : Nat → UInt8)
include s

lemma markedBad_paint (b : Nat) : markedBad (paint nand bad f) nand b = bad b := by
  have pages := s.pages
  have first : b * nand.pages / nand.pages = b := Nat.mul_div_cancel b (by omega)
  have second : (b * nand.pages + 1) / nand.pages = b := by
    rw [mul_comm, Nat.mul_add_div (by omega), Nat.div_eq_of_lt (by omega), add_zero]
  simp only [markedBad, paint, first, second, if_true]
  cases bad b <;> decide

lemma blockByte_paint (b : Nat) {off : Nat} (inside : off < nand.block_size.toNat) :
    blockByte (paint nand bad f) nand b off = f b := by
  have col : off % nand.page_size.toNat ≠ markerColumn nand := by
    have := Nat.mod_lt off s.page
    have := s.marker
    omega
  have row : (b * nand.pages + off / nand.page_size.toNat) / nand.pages = b := by
    have pages := s.pages
    have low : off / nand.page_size.toNat < nand.pages := by
      rw [Nat.div_lt_iff_lt_mul s.page, ← s.blocks]
      exact inside
    rw [mul_comm, Nat.mul_add_div (by omega), Nat.div_eq_of_lt low, add_zero]
  simp only [blockByte, paint, if_neg col, row]

end Paint

/-- For every content of a chip with these bad blocks, `nand_read_ll` returns 0 and leaves
the first good blocks in the buffer. -/
def ReadsGoodBlocks (nand_id : UInt16) (nand : BootNand) (bad : Nat → Bool)
    (start_addr size : UInt32) : Prop :=
  ∀ (cells : Cells) (mem : Mem) (buf : UInt32), (∀ b, markedBad cells nand b = bad b) →
    ∃ fuel mem', nandReadLl fuel cells nand_id mem buf start_addr size = some (0, mem') ∧
      Filled cells nand (goodBlocks bad nand (start_addr.toNat / nand.block_size.toNat))
        buf size mem mem'

lemma nandReadLl_aligned {fuel : Nat} (known : bootNand nand_id = some nand)
    (start_aligned : start_addr &&& (nand.block_size - 1) = 0)
    (size_aligned : size &&& (nand.block_size - 1) = 0) :
    nandReadLl fuel cells nand_id mem buf start_addr size =
      (readLoop cells nand start_addr fuel start_addr size buf mem).map (fun mem => (0, mem)) := by
  simp [nandReadLl, known, start_aligned, size_aligned]

lemma aligned_dvd (known : bootNand nand_id = some nand) {x : UInt32}
    (aligned : x &&& (nand.block_size - 1) = 0) :
    x.toNat % nand.block_size.toNat = 0 := by
  have offset := congrArg UInt32.toNat aligned
  rw [UInt32.toNat_and] at offset
  simp only [bootNand] at known
  split_ifs at known
  · cases known
    exact (Nat.and_two_pow_sub_one_eq_mod x.toNat 14).symm.trans offset
  · cases known
    exact (Nat.and_two_pow_sub_one_eq_mod x.toNat 17).symm.trans offset

lemma large_blocks (known : bootNand nand_id = some nand) (page : nand.page_size = 2048) :
    nand.block_size.toNat = 131072 ∧ nand.pages = 64 ∧ nand.page_size.toNat = 2048 := by
  simp only [bootNand] at known
  split_ifs at known
  · cases known
    exact absurd page (by decide)
  · cases known
    exact ⟨by decide, by decide, by decide⟩

lemma large_reads (known : bootNand nand_id = some nand) (page : nand.page_size = 2048)
    (start_aligned : start_addr &&& (nand.block_size - 1) = 0)
    (size_aligned : size &&& (nand.block_size - 1) = 0)
    (room : start_addr.toNat + size.toNat < 4294967296) :
    ∃ fuel mem', (∀ extra,
        readLoop cells nand start_addr (fuel + extra) start_addr size buf mem = some mem') ∧
      ∀ a, mem' a = if (a - buf).toNat < size.toNat then
        blockByte cells nand (start_addr.toNat / nand.block_size.toNat +
          (a - buf).toNat / nand.block_size.toNat) ((a - buf).toNat % nand.block_size.toNat)
      else mem a := by
  obtain ⟨block, pages, bytes⟩ := large_blocks known page
  have first := aligned_dvd known start_aligned
  have whole := aligned_dvd known size_aligned
  rw [block] at first whole
  have stop : (start_addr + size).toNat = start_addr.toNat + 2048 * (size.toNat / 2048) := by
    rw [UInt32.toNat_add]
    omega
  refine ⟨size.toNat / 2048 + 1, _,
    fun extra => readLoop_large page (sizes known).more _ extra _ buf mem stop, fun a => ?_⟩
  have count : 2048 * (size.toNat / 2048) = size.toNat := by omega
  have row : start_addr.toNat / 2048 + (a - buf).toNat / 2048 =
      (start_addr.toNat / nand.block_size.toNat + (a - buf).toNat / nand.block_size.toNat) * 64 +
        (a - buf).toNat % nand.block_size.toNat / 2048 := by
    rw [block]
    omega
  have col : (a - buf).toNat % 2048 = (a - buf).toNat % nand.block_size.toNat % 2048 := by
    rw [block]
    omega
  rw [count, blockByte, pages, bytes, ← row, ← col]

section Law

variable {nand_id : UInt16} {nand : BootNand} {bad : Nat → Bool} {start_addr size : UInt32}
  (known : bootNand nand_id = some nand)
  (start_aligned : start_addr &&& (nand.block_size - 1) = 0)
  (size_aligned : size &&& (nand.block_size - 1) = 0)
include known start_aligned size_aligned

lemma small_pages_wrong (page : nand.page_size ≠ 2048) {b : Nat}
    (head : (goodBlocks bad nand (start_addr.toNat / nand.block_size.toNat))[0]? = some b)
    (more : 0 < size.toNat) : ¬ ReadsGoodBlocks nand_id nand bad start_addr size := by
  intro reads
  have s := sizes known
  have block : 0 < nand.block_size.toNat := by
    rw [s.blocks]
    exact Nat.mul_pos (by have := s.pages; omega) s.page
  obtain ⟨fuel, mem', read, filled, -⟩ := reads (paint nand bad (fun _ => 1)) (fun _ => 0) 0
    (markedBad_paint s bad _)
  rw [nandReadLl_aligned known start_aligned size_aligned, Option.map_eq_some_iff] at read
  obtain ⟨mem, loop, same⟩ := read
  obtain rfl := (Prod.mk.inj same).2
  have kept := readLoop_small page loop
  have stored := filled 0 b head 0 block (by omega)
  rw [blockByte_paint s bad _ b block, kept] at stored
  have apart : (0 : UInt8) ≠ 1 := by decide
  exact apart stored

lemma bad_block_wrong (page : nand.page_size = 2048)
    (room : start_addr.toNat + size.toNat < 4294967296) {j b : Nat}
    (inside : j < size.toNat / nand.block_size.toNat)
    (marked : bad (start_addr.toNat / nand.block_size.toNat + j) = true)
    (at_j : (goodBlocks bad nand (start_addr.toNat / nand.block_size.toNat))[j]? = some b) :
    ¬ ReadsGoodBlocks nand_id nand bad start_addr size := by
  intro reads
  have s := sizes known
  obtain ⟨block, -, -⟩ := large_blocks known page
  obtain ⟨good, -⟩ := goodBlocks_good at_j
  have other : b ≠ start_addr.toNat / nand.block_size.toNat + j := by
    rintro rfl
    exact absurd good (by simp [marked])
  let cells := paint nand bad
    (fun b => if b = start_addr.toNat / nand.block_size.toNat + j then 1 else 0)
  obtain ⟨fuel, mem', read, filled, -⟩ := reads cells (fun _ => 0) 0 (markedBad_paint s bad _)
  rw [nandReadLl_aligned known start_aligned size_aligned, Option.map_eq_some_iff] at read
  obtain ⟨mem, loop, same⟩ := read
  obtain rfl := (Prod.mk.inj same).2
  obtain ⟨fuel', mem₁, straight, content⟩ := large_reads known page start_aligned size_aligned
    room
  have found := straight fuel
  rw [add_comm, readLoop_more fuel' loop] at found
  cases found
  have positive : 0 < nand.block_size.toNat := by omega
  have offset : j * nand.block_size.toNat < size.toNat := by
    rw [block] at inside ⊢
    omega
  have address : ((0 : UInt32) + UInt32.ofNat (j * nand.block_size.toNat) - 0).toNat =
      j * nand.block_size.toNat := by
    exact offset_toNat 0 (by omega)
  have stored := filled j b at_j 0 positive (by omega)
  rw [add_zero, blockByte_paint s bad _ b positive, if_neg other, content, address,
    if_pos offset, Nat.mul_div_cancel j positive, Nat.mul_mod_left,
    blockByte_paint s bad _ _ positive, if_pos rfl] at stored
  exact absurd stored (by decide)

lemma good_range_right (page : nand.page_size = 2048)
    (room : start_addr.toNat + size.toNat < 4294967296)
    (below : start_addr.toNat / nand.block_size.toNat + size.toNat / nand.block_size.toNat ≤
      2147483648 / nand.block_size.toNat)
    (good : ∀ j < size.toNat / nand.block_size.toNat,
      bad (start_addr.toNat / nand.block_size.toNat + j) = false) :
    ReadsGoodBlocks nand_id nand bad start_addr size := by
  intro cells mem buf _
  obtain ⟨block, -, -⟩ := large_blocks known page
  obtain ⟨fuel, mem', straight, content⟩ := large_reads known page start_aligned size_aligned room
  refine ⟨fuel, mem', ?_, ?_, ?_⟩
  · rw [nandReadLl_aligned known start_aligned size_aligned, ← add_zero fuel, straight 0]
    rfl
  · intro k b at_k off off_lt inside
    have k_lt : k < size.toNat / nand.block_size.toNat := by
      have whole := aligned_dvd known size_aligned
      rw [block] at off_lt inside whole ⊢
      omega
    have here := goodBlocks_straight good below k_lt at_k
    have address : (buf + UInt32.ofNat (k * nand.block_size.toNat + off) - buf).toNat =
        k * nand.block_size.toNat + off := by
      exact offset_toNat buf (by omega)
    have number : (k * nand.block_size.toNat + off) / nand.block_size.toNat = k := by
      rw [block] at off_lt ⊢
      omega
    have rest : (k * nand.block_size.toNat + off) % nand.block_size.toNat = off := by
      rw [block] at off_lt ⊢
      omega
    rw [content, address, if_pos inside, number, rest, here]
  · intro a outside
    rw [content, if_neg (Nat.not_lt.mpr outside)]

end Law

/-- The reader does its task if there is nothing to read, or if the pages are large and no
block in the range is bad; otherwise there are contents it gets wrong. -/
theorem reads_good_blocks_iff (nand_id : UInt16) (nand : BootNand) (bad : Nat → Bool)
    (start_addr size : UInt32) (known : bootNand nand_id = some nand)
    (start_aligned : start_addr &&& (nand.block_size - 1) = 0)
    (size_aligned : size &&& (nand.block_size - 1) = 0) (positive : size.toNat < 2147483648)
    (enough : size.toNat / nand.block_size.toNat ≤
      (goodBlocks bad nand (start_addr.toNat / nand.block_size.toNat)).length) :
    ReadsGoodBlocks nand_id nand bad start_addr size ↔
      size = 0 ∨ (nand.page_size = 2048 ∧
        ∀ j < size.toNat / nand.block_size.toNat,
          bad (start_addr.toNat / nand.block_size.toNat + j) = false) := by
  have whole := aligned_dvd known size_aligned
  have first := aligned_dvd known start_aligned
  have length := goodBlocks_length bad nand (start_addr.toNat / nand.block_size.toNat)
  by_cases empty : size = 0
  · subst empty
    refine ⟨fun _ => .inl rfl, fun _ cells mem buf _ => ⟨1, mem, ?_, ?_, fun a _ => rfl⟩⟩
    · rw [nandReadLl_aligned known start_aligned size_aligned, readLoop]
      simp
    · intro k b _ off _ inside
      exact absurd inside (Nat.not_lt_zero _)
  have more : 0 < size.toNat := by
    apply Nat.pos_of_ne_zero
    exact fun h => empty (UInt32.toNat_inj.mp h)
  have some_block : 0 < size.toNat / nand.block_size.toNat := by
    apply Nat.pos_of_ne_zero
    intro none
    have := Nat.div_add_mod size.toNat nand.block_size.toNat
    rw [none, whole] at this
    omega
  have below : start_addr.toNat / nand.block_size.toNat + size.toNat / nand.block_size.toNat ≤
      2147483648 / nand.block_size.toNat := by omega
  have room : start_addr.toNat + size.toNat < 4294967296 := by
    have starts := Nat.div_add_mod start_addr.toNat nand.block_size.toNat
    have sizes := Nat.div_add_mod size.toNat nand.block_size.toNat
    have fits := Nat.mul_le_mul_left nand.block_size.toNat below
    have limit := Nat.mul_div_le 2147483648 nand.block_size.toNat
    rw [Nat.mul_add] at fits
    omega
  constructor
  · intro reads
    refine .inr ⟨?_, ?_⟩
    · by_contra page
      exact small_pages_wrong known start_aligned size_aligned page
        (List.getElem?_eq_getElem (Nat.lt_of_lt_of_le some_block enough)) more reads
    · intro j inside
      by_contra marked
      by_cases page : nand.page_size = 2048
      · exact bad_block_wrong known start_aligned size_aligned page room inside
          (Bool.not_eq_false _ ▸ marked)
          (List.getElem?_eq_getElem (Nat.lt_of_lt_of_le inside enough)) reads
      · exact small_pages_wrong known start_aligned size_aligned page
          (List.getElem?_eq_getElem (Nat.lt_of_lt_of_le some_block enough)) more reads
  · rintro (zero | ⟨page, good⟩)
    · exact absurd zero empty
    · exact good_range_right known start_aligned size_aligned page room below good

/-- 256 KiB at the start of a chip with large pages and no bad block. -/
theorem reads_good_blocks_uboot :
    ReadsGoodBlocks 0xecf1 ⟨2048, 128 * 1024, 2048⟩ (fun _ => false) 0 0x40000 := by
  apply (reads_good_blocks_iff 0xecf1 ⟨2048, 128 * 1024, 2048⟩ (fun _ => false) 0 0x40000 rfl
    (by decide) (by decide) (by decide) ?_).mpr (.inr ⟨rfl, fun _ _ => rfl⟩)
  have many : (goodBlocks (fun _ => false) ⟨2048, 128 * 1024, 2048⟩ 0).length = 16384 := by
    have all : 2147483648 / (128 * 1024 : UInt32).toNat - 0 = 16384 := by decide
    simp only [goodBlocks, all]
    rw [List.filter_eq_self.mpr (by simp), List.length_range']
  exact many ▸ by decide

/-- With block 1 bad the second half of the buffer is not block 2. -/
theorem bad_block_read :
    ¬ ReadsGoodBlocks 0xecf1 ⟨2048, 128 * 1024, 2048⟩ (fun b => b = 1) 0 0x40000 := by
  have second : (goodBlocks (fun b => b = 1) ⟨2048, 128 * 1024, 2048⟩ 0)[1]? = some 2 := by
    have all : 2147483648 / (128 * 1024 : UInt32).toNat - 0 = 16384 := by decide
    have split : List.range' 0 16384 = List.range' 0 3 ++ List.range' 3 16381 :=
      (List.range'_append_1 (s := 0) (m := 3) (n := 16381)).symm
    have head : (List.range' 0 3).filter (fun b => !decide (b = 1)) = [0, 2] := by decide
    simp only [goodBlocks, all]
    rw [split, List.filter_append, head]
    rfl
  exact bad_block_wrong rfl (by decide) (by decide) rfl (by decide) (by decide) rfl second

end BootRead
