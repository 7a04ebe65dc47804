import Mathlib.Algebra.Group.Nat.Defs
import Mathlib.Data.Nat.Bitwise

/-!
# Logical memory blocks (lib_generic/lmb.c)

`phys_addr_t`, `phys_size_t` and `ulong` have 32 bits. The cells of a region table
behind its `cnt` entries keep what was last stored there. `none` is a loop that
runs out of the table.
-/

namespace LogicalMemory

def addrSpace : Nat := 2 ^ 32

structure Property where
  base : Nat
  size : Nat
  deriving DecidableEq

def maxLmbRegions : Nat := 8

/-- `struct lmb_region`; its `size` is only set to zero. -/
structure LmbRegion where
  cnt : Nat
  region : Nat → Property

structure Lmb where
  memory : LmbRegion
  reserved : LmbRegion

def lmbAddrsOverlap (base1 size1 base2 size2 : Nat) : Prop :=
  base1 < (base2 + size2) % addrSpace ∧ base2 < (base1 + size1) % addrSpace

instance (base1 size1 base2 size2 : Nat) : Decidable (lmbAddrsOverlap base1 size1 base2 size2) :=
  inferInstanceAs (Decidable (_ ∧ _))

def lmbAddrsAdjacent (base1 size1 base2 size2 : Nat) : Int :=
  if base2 = (base1 + size1) % addrSpace then 1
  else if base1 = (base2 + size2) % addrSpace then -1
  else 0

def lmbRegionsAdjacent (rgn : LmbRegion) (r1 r2 : Nat) : Int :=
  lmbAddrsAdjacent (rgn.region r1).base (rgn.region r1).size (rgn.region r2).base (rgn.region r2).size

def setRegion (g : Nat → Property) (i : Nat) (p : Property) : Nat → Property :=
  fun k => if k = i then p else g k

/-- The loop of `lmb_remove_region`, `n` entries from `i` on. -/
def removeLoop : Nat → Nat → (Nat → Property) → Nat → Property
  | 0, _, g => g
  | n + 1, i, g => removeLoop n (i + 1) (setRegion g i (g (i + 1)))

/-- With no entry `cnt - 1` wraps, and the loop leaves the table. -/
def lmbRemoveRegion (rgn : LmbRegion) (r : Nat) : Option LmbRegion :=
  if rgn.cnt = 0 then none
  else some ⟨rgn.cnt - 1, removeLoop (rgn.cnt - 1 - r) r rgn.region⟩

def lmbCoalesceRegions (rgn : LmbRegion) (r1 r2 : Nat) : Option LmbRegion :=
  let p := rgn.region r1
  let size := (p.size + (rgn.region r2).size) % addrSpace
  lmbRemoveRegion { rgn with region := setRegion rgn.region r1 { p with size := size } } r2

/-- "Create a dummy zero size LMB which will get coalesced away later." -/
def lmbInit (lmb : Lmb) : Lmb :=
  ⟨⟨1, setRegion lmb.memory.region 0 ⟨0, 0⟩⟩, ⟨1, setRegion lmb.reserved.region 0 ⟨0, 0⟩⟩⟩

/-- What the first loop of `lmb_add_region` finds. -/
inductive Neighbour where
  | same
  | before (i : Nat)
  | after (i : Nat)
  | none
  deriving DecidableEq

/-- "First try and coalesce this LMB with another": `n` entries from `i` on. -/
def findNeighbour (g : Nat → Property) (base size : Nat) : Nat → Nat → Neighbour
  | 0, _ => .none
  | n + 1, i =>
    if (g i).base = base ∧ (g i).size = size then .same
    else
      let adjacent := lmbAddrsAdjacent base size (g i).base (g i).size
      if adjacent > 0 then .before i
      else if adjacent < 0 then .after i
      else findNeighbour g base size n (i + 1)

/-- "Couldn't coalesce the LMB, so add it to the sorted table": the entries below `i`, from the
last one down. -/
def insertLoop (base size : Nat) : Nat → (Nat → Property) → Nat → Property
  | 0, g => g
  | i + 1, g =>
    if base < (g i).base then insertLoop base size i (setRegion g (i + 1) (g i))
    else setRegion g (i + 1) ⟨base, size⟩

/-- The end of `lmb_add_region`, when entry `i` has grown. -/
def coalesceNext (rgn : LmbRegion) (i : Nat) : Option (Int × LmbRegion) :=
  if i < rgn.cnt - 1 ∧ lmbRegionsAdjacent rgn i (i + 1) ≠ 0 then
    (lmbCoalesceRegions rgn i (i + 1)).map fun rgn => (2, rgn)
  else some (1, rgn)

/-- When nothing has grown. In an empty table `cnt - 1` wraps, so that the first two cells count
as neighbours. -/
def insertRegion (rgn : LmbRegion) (base size : Nat) : Option (Int × LmbRegion) :=
  if rgn.cnt = 0 ∧ lmbRegionsAdjacent rgn 0 1 ≠ 0 then
    (lmbCoalesceRegions rgn 0 1).map fun rgn => (1, rgn)
  else if maxLmbRegions ≤ rgn.cnt then some (-1, rgn)
  else
    let g := insertLoop base size rgn.cnt rgn.region
    let g := if base < (g 0).base then setRegion g 0 ⟨base, size⟩ else g
    some (0, ⟨rgn.cnt + 1, g⟩)

def lmbAddRegion (rgn : LmbRegion) (base size : Nat) : Option (Int × LmbRegion) :=
  if rgn.cnt = 1 ∧ (rgn.region 0).size = 0 then
    some (0, { rgn with region := setRegion rgn.region 0 ⟨base, size⟩ })
  else match findNeighbour rgn.region base size rgn.cnt 0 with
    | .same => some (0, rgn)
    | .before i =>
      let p := rgn.region i
      let grown : Property :=
        ⟨(p.base + addrSpace - size) % addrSpace, (p.size + size) % addrSpace⟩
      coalesceNext { rgn with region := setRegion rgn.region i grown } i
    | .after i =>
      let p := rgn.region i
      let grown : Property := ⟨p.base, (p.size + size) % addrSpace⟩
      coalesceNext { rgn with region := setRegion rgn.region i grown } i
    | .none => insertRegion rgn base size

def lmbAdd (lmb : Lmb) (base size : Nat) : Option (Int × Lmb) :=
  (lmbAddRegion lmb.memory base size).map fun r => (r.1, { lmb with memory := r.2 })

def lmbReserve (lmb : Lmb) (base size : Nat) : Option (Int × Lmb) :=
  (lmbAddRegion lmb.reserved base size).map fun r => (r.1, { lmb with reserved := r.2 })

/-- "Find the region where (base, size) belongs to": `n` entries from `i` on. -/
def findContaining (g : Nat → Property) (base last : Nat) : Nat → Nat → Option Nat
  | 0, _ => none
  | n + 1, i =>
    if (g i).base ≤ base ∧ last ≤ ((g i).base + (g i).size) % addrSpace then some i
    else findContaining g base last n (i + 1)

def freeRegion (rgn : LmbRegion) (base size : Nat) : Option (Int × LmbRegion) :=
  let last := (base + size) % addrSpace
  match findContaining rgn.region base last rgn.cnt 0 with
  | none => some (-1, rgn)
  | some i =>
    let rgnbegin := (rgn.region i).base
    let rgnsize := (rgn.region i).size
    let rgnend := (rgnbegin + rgnsize) % addrSpace
    let put := fun p : Property => { rgn with region := setRegion rgn.region i p }
    if rgnbegin = base ∧ rgnend = last then (lmbRemoveRegion rgn i).map fun rgn => (0, rgn)
    else if rgnbegin = base then some (0, put ⟨last, (rgnsize + addrSpace - size) % addrSpace⟩)
    else if rgnend = last then some (0, put ⟨rgnbegin, (rgnsize + addrSpace - size) % addrSpace⟩)
    else lmbAddRegion (put ⟨rgnbegin, (base + addrSpace - rgnbegin) % addrSpace⟩) last
      ((rgnend + addrSpace - last) % addrSpace)

def lmbFree (lmb : Lmb) (base size : Nat) : Option (Int × Lmb) :=
  (freeRegion lmb.reserved base size).map fun r => (r.1, { lmb with reserved := r.2 })

/-- `lmb_overlaps_region`: `n` entries from `i` on. -/
def overlapLoop (g : Nat → Property) (base size : Nat) : Nat → Nat → Option Nat
  | 0, _ => none
  | n + 1, i =>
    if lmbAddrsOverlap base size (g i).base (g i).size then some i
    else overlapLoop g base size n (i + 1)

def lmbOverlapsRegion (rgn : LmbRegion) (base size : Nat) : Option Nat :=
  overlapLoop rgn.region base size rgn.cnt 0

def alignMask (size : Nat) : Nat := (size + addrSpace - 1) % addrSpace

def lmbAlignDown (addr size : Nat) : Nat := addr &&& (addrSpace - 1 - alignMask size)

def lmbAlignUp (addr size : Nat) : Nat := lmbAlignDown ((addr + alignMask size) % addrSpace) size

/-- The inner loop of `__lmb_alloc_base`: the place it takes in a memory region that begins at
`lmbbase`, or `some none` if there is none. Every round goes down. -/
def findPlace (rsv : LmbRegion) (size align lmbbase : Nat) : Nat → Nat → Option (Option Nat)
  | 0, _ => none
  | fuel + 1, base =>
    if base ≠ 0 ∧ lmbbase ≤ base then
      match lmbOverlapsRegion rsv base size with
      | none => some (some base)
      | some j =>
        let resBase := (rsv.region j).base
        if resBase < size then some none
        else findPlace rsv size align lmbbase fuel (lmbAlignDown (resBase - size) align)
    else some none

/-- Where the search in memory region `p` begins, if it is large enough and low enough. -/
def placeTop (p : Property) (size align maxAddr : Nat) : Option Nat :=
  if p.size < size then none
  else if maxAddr = 0 then
    some (lmbAlignDown (((p.base + p.size) % addrSpace + addrSpace - size) % addrSpace) align)
  else if p.base < maxAddr then
    some (lmbAlignDown ((min ((p.base + p.size) % addrSpace) maxAddr + addrSpace - size) % addrSpace)
      align)
  else none

def takePlace (lmb : Lmb) (size align base : Nat) : Option (Nat × Lmb) :=
  (lmbAddRegion lmb.reserved base (lmbAlignUp size align)).map fun r =>
    if r.1 < 0 then (0, { lmb with reserved := r.2 }) else (base, { lmb with reserved := r.2 })

/-- The outer loop of `__lmb_alloc_base`: the memory regions below `i`, from the last one down. -/
def allocLoop (lmb : Lmb) (size align maxAddr : Nat) : Nat → Option (Nat × Lmb)
  | 0 => some (0, lmb)
  | i + 1 =>
    let p := lmb.memory.region i
    match placeTop p size align maxAddr with
    | none => allocLoop lmb size align maxAddr i
    | some top => match findPlace lmb.reserved size align p.base (top + 1) top with
      | none => none
      | some none => allocLoop lmb size align maxAddr i
      | some (some base) => takePlace lmb size align base

def lmbAllocBase (lmb : Lmb) (size align maxAddr : Nat) : Option (Nat × Lmb) :=
  allocLoop lmb size align maxAddr lmb.memory.cnt

end LogicalMemory
