import Mathlib.Tactic.MkIffOfInductiveProp
import UBoot.Env.Crc32

/-!
# Scanning a JFFS2 partition (fs/jffs2/jffs2_1pass.c)

`jffs2_1pass_build_lists` without summaries, as a machine: its loops are the steps. Offsets are
`uint32_t`, kept below 2 ^ 32, and so are the sums. What is only printed is left out.
-/

namespace Jffs2Scan

def w (n : Nat) : Nat := n % 2 ^ 32

def sub (a b : Nat) : Nat := w (a + 2 ^ 32 - b)

/-- `DEFAULT_EMPTY_SCAN_SIZE`, which is also `buf_size`. -/
def bufSize : Nat := 4096

/-! ## The nodes on the medium -/

abbrev Bytes := Nat → UInt8

def u16 (b : Bytes) (k : Nat) : Nat := (b k).toNat + 256 * (b (k + 1)).toNat

def u32 (b : Bytes) (k : Nat) : Nat := u16 b k + 65536 * u16 b (k + 2)

def crc32NoComp (b : Bytes) (start len : Nat) : Nat :=
  (TableCrc.register Crc32.tableEntry 0 ((List.range len).map fun k => b (start + k))).toNat

/-- `sizeof(struct jffs2_unknown_node)`, `sizeof(struct jffs2_raw_inode)` and
`sizeof(struct jffs2_raw_dirent)`. -/
def unknownSize : Nat := 12
def inodeSize : Nat := 68
def direntSize : Nat := 40

def magicOf (b : Bytes) : Nat := u16 b 0
def nodetypeOf (b : Bytes) : Nat := u16 b 2
def totlenOf (b : Bytes) : Nat := u32 b 4
def nsizeOf (b : Bytes) : Nat := (b 28).toNat

def hdrCrc (b : Bytes) : Prop := u32 b 8 = crc32NoComp b 0 8
def inodeCrc (b : Bytes) : Prop := u32 b 64 = crc32NoComp b 0 60
def direntCrc (b : Bytes) : Prop := u32 b 32 = crc32NoComp b 0 32
def direntNameCrc (b : Bytes) : Prop := u32 b 36 = crc32NoComp b 40 (nsizeOf b)

instance (b : Bytes) : Decidable (hdrCrc b) := inferInstanceAs (Decidable (_ = _))
instance (b : Bytes) : Decidable (inodeCrc b) := inferInstanceAs (Decidable (_ = _))
instance (b : Bytes) : Decidable (direntCrc b) := inferInstanceAs (Decidable (_ = _))
instance (b : Bytes) : Decidable (direntNameCrc b) := inferInstanceAs (Decidable (_ = _))

def magicBitmask : Nat := 0x1985

/-- `JFFS2_NODETYPE_INODE` and `JFFS2_NODETYPE_DIRENT`: the nodes that are added. -/
def nodetypeInode : Nat := 0xe002
def nodetypeDirent : Nat := 0xe001

def Header (b : Bytes) : Prop := magicOf b = magicBitmask ∧ hdrCrc b

instance (b : Bytes) : Decidable (Header b) := inferInstanceAs (Decidable (_ ∧ _))

/-! ## The scan -/

/-- A partition and the memory of the scan: the bytes at the addresses of the medium, what
`malloc (buf_size)` gives, and whether `add_node` has room for the node with a number. -/
structure Part where
  offset : Nat
  size : Nat
  sectorSize : Nat
  medium : Bytes
  buffer : Bool
  garbage : Bytes
  room : Nat → Bool
  size_lt : size < 2 ^ 32
  sectorSize_lt : sectorSize < 2 ^ 32
  sectorSize_pos : 0 < sectorSize
  aligned : 4 ∣ sectorSize

inductive BList
  | frag
  | dir
deriving DecidableEq

/-- The variables of the scan. `added` is what `insert_node` was called with, the last first, and
`indexed` the places of `buf` that were read, with their lengths. -/
structure Scan where
  ofs : Nat
  prevofs : Nat
  bufOfs : Nat
  bufLen : Nat
  buf : Bytes
  added : List (BList × Nat)
  indexed : List (Nat × Nat)
  maxTotlen : Nat

/-- Where the scan is: before a sector, in the leading empty words, in the loop over the nodes, in
the loop over empty words behind a node, or back at its caller. -/
inductive State
  | sector (i : Nat) (s : Scan)
  | leading (i : Nat) (s : Scan)
  | scanning (i : Nat) (s : Scan)
  | emptying (scanEnd i : Nat) (s : Scan)
  | returned (code : Nat) (s : Scan)

def State.scan : State → Scan
  | sector _ s | leading _ s | scanning _ s | emptying _ _ s | returned _ s => s

namespace Part

variable (p : Part)

def nrSectors : Nat := p.size / p.sectorSize

def sectorOfs (i : Nat) : Nat := w (i * p.sectorSize)

def stop (i : Nat) : Nat := w (p.sectorOfs i + p.sectorSize)

def emptyScanSize : Nat := if p.sectorSize < bufSize then p.sectorSize else bufSize

def node (ofs : Nat) : Bytes := fun k => p.medium (w (p.offset + ofs + k))

def bufBytes : Nat := if p.buffer then bufSize else 0

end Part

namespace Scan

variable (s : Scan)

def inbuf : Nat := sub s.ofs s.bufOfs

def here : Bytes := fun k => s.buf (s.inbuf + k)

/-- A read of `len` bytes of the node in the buffer, from its byte `k` on. -/
def index (k len : Nat) : Scan := { s with indexed := (s.inbuf + k, len) :: s.indexed }

def skip : Scan := { s with ofs := w (s.ofs + 4) }

def advance : Scan :=
  { s.index 4 4 with ofs := w (s.ofs + w (totlenOf s.here + 3) / 4 * 4) }

/-- `get_fl_mem ((u32)part->offset + ofs, len, buf)`, with `buf_ofs = ofs` and `buf_len = len`. -/
def refill (p : Part) (len : Nat) : Scan :=
  { s with
    bufOfs := s.ofs
    bufLen := len
    buf := fun k => if k < len then p.node s.ofs k else s.buf k }

end Scan

variable (p : Part)

def header (i : Nat) (s : Scan) : Scan :=
  if w (s.bufOfs + s.bufLen) < w (s.ofs + unknownSize) then
    s.refill p (min bufSize (sub (p.stop i) s.ofs))
  else s

def whole (len : Nat) (s : Scan) : Scan :=
  if w (s.bufOfs + s.bufLen) < w (s.ofs + len) then s.refill p s.bufLen else s

/-- `insert_node`, and what follows it up to the next node. -/
def insertNode (list : BList) (i : Nat) (s : Scan) : State :=
  if p.room s.added.length then
    .scanning i
      { s with
        added := (list, w (p.offset + s.ofs)) :: s.added
        maxTotlen := max s.maxTotlen (totlenOf s.here) }.advance
  else .returned 0 s

def scanInode (i : Nat) (s : Scan) : State :=
  let s := (whole p inodeSize s).index 0 inodeSize
  if inodeCrc s.here then insertNode p .frag i s else .scanning i s.advance

def scanDirent (i : Nat) (s : Scan) : State :=
  let s := s.index 28 1
  let s := (whole p (direntSize + nsizeOf s.here) s).index 0 36
  if direntCrc s.here then
    let s := s.index 36 (4 + nsizeOf s.here)
    if direntNameCrc s.here then insertNode p .dir i s else .scanning i s.advance
  else .scanning i s.advance

def scanNode (i : Nat) (s : Scan) : State :=
  let s := s.index 0 4
  if u32 s.here 0 = 0xffffffff then .emptying (min (p.emptyScanSize / 8) s.bufLen) i s.skip
  else
    let s := s.index 0 unknownSize
    if ¬ Header s.here then .scanning i s.skip
    else if w (s.ofs + totlenOf s.here) > p.stop i then .scanning i s.skip
    else if nodetypeOf s.here = nodetypeInode then scanInode p i s
    else if nodetypeOf s.here = nodetypeDirent then scanDirent p i s
    else .scanning i s.advance

def stepSector (i : Nat) (s : Scan) : State :=
  if i < p.nrSectors then
    let s := { s with ofs := p.sectorOfs i }.refill p p.emptyScanSize
    .leading i { s with ofs := 0 }
  else .returned 1 s

/-- The loop over its leading empty words, where `ofs` is a place in the buffer. -/
def stepLeading (i : Nat) (s : Scan) : State :=
  if s.ofs < p.emptyScanSize ∧ u32 s.buf s.ofs = 0xffffffff then
    .leading i { s with indexed := (s.ofs, 4) :: s.indexed }.skip
  else if s.ofs = p.emptyScanSize then .sector (i + 1) s
  else
    .scanning i
      { s with
        indexed := (s.ofs, 4) :: s.indexed
        ofs := w (s.ofs + p.sectorOfs i)
        prevofs := sub (w (s.ofs + p.sectorOfs i)) 1 }

/-- The loop over its nodes, from `scan_more` on. -/
def stepScanning (i : Nat) (s : Scan) : State :=
  if s.ofs < p.stop i then
    if s.ofs = s.prevofs then .scanning i s.skip
    else
      let s := { s with prevofs := s.ofs }
      if p.stop i < w (s.ofs + unknownSize) then .sector (i + 1) s
      else scanNode p i (header p i s)
  else .sector (i + 1) s

/-- The loop over empty words behind a node, from `more_empty` on. -/
def stepEmptying (scanEnd i : Nat) (s : Scan) : State :=
  if s.inbuf < scanEnd then
    let s := s.index 0 4
    if u32 s.here 0 = 0xffffffff then .emptying scanEnd i s.skip else .scanning i s
  else
    let left := min bufSize (sub (p.stop i) s.ofs)
    if left = 0 then .sector (i + 1) { s with bufLen := 0 }
    else .emptying left i (s.refill p left)

def step : State → State
  | .sector i s => stepSector p i s
  | .leading i s => stepLeading p i s
  | .scanning i s => stepScanning p i s
  | .emptying scanEnd i s => stepEmptying p scanEnd i s
  | .returned code s => .returned code s

def run : Nat → State
  | 0 => .sector 0 ⟨0, 0, 0, 0, p.garbage, [], [], 0⟩
  | n + 1 => step p (run n)

/-! ## What is promised -/

/-- A node of the sector `j` at the offset `o`, all of it in the sector. -/
structure Placed (j o : Nat) : Prop where
  low : j * p.sectorSize ≤ o
  start : o < (j + 1) * p.sectorSize
  finish : o + totlenOf (p.node o) ≤ (j + 1) * p.sectorSize

/-- The buffer is read inside its bytes, and every node is added once and lies in a sector. -/
structure Sound (s : Scan) : Prop where
  indexed : ∀ place ∈ s.indexed, place.1 + place.2 ≤ p.bufBytes
  once : (s.added.map Prod.snd).Nodup
  placed : ∀ node ∈ s.added, ∃ j o, node.2 = w (p.offset + o) ∧ j < p.nrSectors ∧ Placed p j o

/-- A header that is in the sector and believed, with an end that the scan takes to be in it. -/
def Examined (i : Nat) (s : Scan) : Prop :=
  s.ofs + unknownSize ≤ p.stop i ∧ Header (p.node s.ofs) ∧
    w (s.ofs + totlenOf (p.node s.ofs)) ≤ p.stop i

instance (i : Nat) (s : Scan) : Decidable (Examined p i s) :=
  inferInstanceAs (Decidable (_ ∧ _ ∧ _))

/-- At the header of a node: no sum wraps around, neither to an offset in the sector nor below the
end of the buffer, and the length of the name of a dirent, which is read before it is known to be
in the buffer, is in it. -/
@[mk_iff]
structure NodeFine (i : Nat) (s : Scan) : Prop where
  unknown : s.ofs + unknownSize < 2 ^ 32
  totlen : Examined p i s → s.ofs + totlenOf (p.node s.ofs) < 2 ^ 32
  inode : Examined p i s → nodetypeOf (p.node s.ofs) = nodetypeInode →
    s.ofs + inodeSize < 2 ^ 32
  dirent : Examined p i s → nodetypeOf (p.node s.ofs) = nodetypeDirent →
    (header p i s).inbuf + 28 < bufSize ∧
      s.ofs + (direntSize + nsizeOf (header p i s).here) < 2 ^ 32

/-- What the step from a state needs: there is a buffer, the node is fine, and the end of the empty
words is found before the offsets wrap around. -/
def Fine : State → Prop
  | .sector i _ => i < p.nrSectors → p.buffer = true
  | .scanning i s => s.ofs < p.stop i → s.ofs ≠ s.prevofs → NodeFine p i s
  | .emptying scanEnd _ s =>
    s.inbuf < scanEnd → u32 s.here 0 = 0xffffffff → s.ofs + 4 < 2 ^ 32
  | _ => True

instance (i : Nat) (s : Scan) : Decidable (NodeFine p i s) :=
  decidable_of_iff _ (nodeFine_iff p i s).symm

instance : (st : State) → Decidable (Fine p st)
  | .sector i _ => inferInstanceAs (Decidable (i < p.nrSectors → p.buffer = true))
  | .scanning i s =>
    inferInstanceAs (Decidable (s.ofs < p.stop i → s.ofs ≠ s.prevofs → NodeFine p i s))
  | .emptying scanEnd _ s => inferInstanceAs
      (Decidable (s.inbuf < scanEnd → u32 s.here 0 = 0xffffffff → s.ofs + 4 < 2 ^ 32))
  | .leading _ _ | .returned _ _ => inferInstanceAs (Decidable True)

/-! ## Sectors -/

variable {k len : Nat}

lemma w_of_lt {n : Nat} (small : n < 2 ^ 32) : w n = n := Nat.mod_eq_of_lt small

lemma w_lt (n : Nat) : w n < 2 ^ 32 := Nat.mod_lt _ (by decide)

lemma sub_of_le {a b : Nat} (le : b ≤ a) (small : a < 2 ^ 32) : sub a b = a - b := by
  unfold sub w
  omega

lemma address_inj {a o o' : Nat} (small : o < 2 ^ 32) (small' : o' < 2 ^ 32)
    (same : w (a + o) = w (a + o')) : o = o' := by
  unfold w at same
  omega

lemma u16_congr {b b' : Bytes} (first : b k = b' k) (second : b (k + 1) = b' (k + 1)) :
    u16 b k = u16 b' k := by
  rw [u16, u16, first, second]

lemma u32_congr {b b' : Bytes} (same : ∀ j < 4, b (k + j) = b' (k + j)) :
    u32 b k = u32 b' k := by
  have low : u16 b k = u16 b' k := u16_congr (same 0 (by decide)) (same 1 (by decide))
  have high : u16 b (k + 2) = u16 b' (k + 2) := u16_congr (same 2 (by decide)) (same 3 (by decide))
  rw [u32, u32, low, high]

lemma crc32NoComp_congr {b b' : Bytes} {start : Nat}
    (same : ∀ k < len, b (start + k) = b' (start + k)) :
    crc32NoComp b start len = crc32NoComp b' start len := by
  have listed : (List.range len).map (fun k => b (start + k)) =
      (List.range len).map (fun k => b' (start + k)) :=
    List.map_congr_left fun k less => same k (List.mem_range.mp less)
  rw [crc32NoComp, crc32NoComp, listed]

section

variable {p} {i : Nat}

lemma sector_le (less : i < p.nrSectors) : (i + 1) * p.sectorSize ≤ p.size :=
  Nat.le_trans (Nat.mul_le_mul_right _ less) (Nat.div_mul_le_self _ _)

lemma sector_lt (less : i < p.nrSectors) : (i + 1) * p.sectorSize < 2 ^ 32 :=
  Nat.lt_of_le_of_lt (sector_le less) p.size_lt

lemma sectorOfs_eq (less : i < p.nrSectors) : p.sectorOfs i = i * p.sectorSize := by
  have small := sector_lt less
  rw [Nat.succ_mul] at small
  exact w_of_lt (by omega)

lemma stop_eq (less : i < p.nrSectors) : p.stop i = (i + 1) * p.sectorSize := by
  rw [Part.stop, sectorOfs_eq less, ← Nat.succ_mul]
  exact w_of_lt (sector_lt less)

lemma stop_lt (i : Nat) : p.stop i < 2 ^ 32 := w_lt _

lemma sectorOfs_dvd (less : i < p.nrSectors) : 4 ∣ p.sectorOfs i := by
  rw [sectorOfs_eq less]
  exact Nat.dvd_mul_left_of_dvd p.aligned i

lemma stop_dvd (less : i < p.nrSectors) : 4 ∣ p.stop i := by
  rw [stop_eq less]
  exact Nat.dvd_mul_left_of_dvd p.aligned (i + 1)

lemma emptyScanSize_le : p.emptyScanSize ≤ bufSize := by
  unfold Part.emptyScanSize
  split <;> omega

lemma emptyScanSize_le_sector : p.emptyScanSize ≤ p.sectorSize := by
  unfold Part.emptyScanSize
  split <;> omega

lemma emptyScanSize_dvd : 4 ∣ p.emptyScanSize := by
  unfold Part.emptyScanSize bufSize
  have := p.aligned
  split <;> omega

end

/-! ## The buffer -/

/-- In a sector: the buffer has bytes of the partition from `bufOfs` on, which is not behind
`ofs`. -/
structure Active (i : Nat) (s : Scan) : Prop where
  less : i < p.nrSectors
  buffer : p.buffer = true
  ofs_lt : s.ofs < 2 ^ 32
  low : i * p.sectorSize ≤ s.ofs
  ofs_dvd : 4 ∣ s.ofs
  bufOfs_le : s.bufOfs ≤ s.ofs
  bufOfs_dvd : 4 ∣ s.bufOfs
  bufLen_le : s.bufLen ≤ bufSize
  bufLen_dvd : 4 ∣ s.bufLen
  content : ∀ k < s.bufLen, s.buf k = p.node s.bufOfs k
  indexed : ∀ place ∈ s.indexed, place.1 + place.2 ≤ bufSize

namespace Active

variable {p} {i : Nat} {s : Scan} (active : Active p i s)
include active

lemma bufBytes : p.bufBytes = bufSize := if_pos active.buffer

lemma inbuf_eq : s.inbuf = s.ofs - s.bufOfs := sub_of_le active.bufOfs_le active.ofs_lt

lemma inbuf_dvd : 4 ∣ s.inbuf := by
  have := active.ofs_dvd
  have := active.bufOfs_dvd
  rw [active.inbuf_eq]
  omega

lemma here_eq (inside : s.inbuf + k < s.bufLen) : s.here k = p.node s.ofs k := by
  have le := active.bufOfs_le
  rw [active.inbuf_eq] at inside
  rw [Scan.here, active.inbuf_eq, active.content _ inside, Part.node, Part.node]
  congr 2
  omega

lemma index (inside : s.inbuf + k + len ≤ bufSize) : Active p i (s.index k len) :=
  { active with indexed := List.forall_mem_cons.mpr ⟨inside, active.indexed⟩ }

lemma move {ofs : Nat} (further : s.ofs ≤ ofs) (small : ofs < 2 ^ 32) (dvd : 4 ∣ ofs) :
    Active p i { s with ofs } :=
  { active with
    ofs_lt := small
    low := Nat.le_trans active.low further
    ofs_dvd := dvd
    bufOfs_le := Nat.le_trans active.bufOfs_le further }

lemma setPrevofs (prevofs : Nat) : Active p i { s with prevofs } :=
  { active with }

lemma skip (small : s.ofs + 4 < 2 ^ 32) : Active p i s.skip := by
  have dvd := active.ofs_dvd
  have eq : s.skip = { s with ofs := s.ofs + 4 } := by rw [Scan.skip, w_of_lt small]
  rw [eq]
  exact active.move (Nat.le_add_right _ _) small (by omega)

lemma refill (le : len ≤ bufSize) (dvd : 4 ∣ len) : Active p i (s.refill p len) :=
  { active with
    bufOfs_le := Nat.le_refl _
    bufOfs_dvd := active.ofs_dvd
    bufLen_le := le
    bufLen_dvd := dvd
    content := fun _ less => if_pos less }

end Active

lemma inbuf_refill (s : Scan) (len : Nat) (small : s.ofs < 2 ^ 32) : (s.refill p len).inbuf = 0 :=
  (sub_of_le (Nat.le_refl _) small).trans (Nat.sub_self _)

section

variable {b b' : Bytes} (same : ∀ k < unknownSize, b k = b' k)
include same

lemma totlenOf_congr : totlenOf b = totlenOf b' :=
  u32_congr fun j less => same (4 + j) (by unfold unknownSize; omega)

lemma nodetypeOf_congr : nodetypeOf b = nodetypeOf b' :=
  u16_congr (same 2 (by decide)) (same 3 (by decide))

lemma header_congr : Header b ↔ Header b' := by
  have magic : magicOf b = magicOf b' := u16_congr (same 0 (by decide)) (same 1 (by decide))
  have stored : u32 b 8 = u32 b' 8 :=
    u32_congr fun j less => same (8 + j) (by unfold unknownSize; omega)
  have computed : crc32NoComp b 0 8 = crc32NoComp b' 0 8 :=
    crc32NoComp_congr fun k less => same (0 + k) (by unfold unknownSize; omega)
  rw [Header, Header, hdrCrc, hdrCrc, magic, stored, computed]

end

@[simp] lemma header_ofs (i : Nat) (s : Scan) : (header p i s).ofs = s.ofs := by
  unfold header
  split <;> rfl

@[simp] lemma header_prevofs (i : Nat) (s : Scan) : (header p i s).prevofs = s.prevofs := by
  unfold header
  split <;> rfl

@[simp] lemma header_added (i : Nat) (s : Scan) : (header p i s).added = s.added := by
  unfold header
  split <;> rfl

@[simp] lemma whole_ofs (len : Nat) (s : Scan) : (whole p len s).ofs = s.ofs := by
  unfold whole
  split <;> rfl

@[simp] lemma whole_prevofs (len : Nat) (s : Scan) : (whole p len s).prevofs = s.prevofs := by
  unfold whole
  split <;> rfl

@[simp] lemma whole_added (len : Nat) (s : Scan) : (whole p len s).added = s.added := by
  unfold whole
  split <;> rfl

@[simp] lemma index_inbuf (s : Scan) (k len : Nat) : (s.index k len).inbuf = s.inbuf := rfl

@[simp] lemma index_here (s : Scan) (k len : Nat) : (s.index k len).here = s.here := rfl

structure AtNode (i : Nat) (s : Scan) : Prop extends Active p i s where
  header : s.inbuf + unknownSize ≤ s.bufLen

section

variable {p} {i : Nat} {s : Scan}

lemma Active.covered (active : Active p i s) (small : s.ofs + len < 2 ^ 32)
    (enough : ¬ w (s.bufOfs + s.bufLen) < w (s.ofs + len)) : s.inbuf + len ≤ s.bufLen := by
  have le := active.bufOfs_le
  have few := active.bufLen_le
  rw [w_of_lt small] at enough
  rw [active.inbuf_eq]
  unfold w bufSize at *
  omega

lemma Active.atNode (active : Active p i s) (small : s.ofs + unknownSize < 2 ^ 32)
    (inside : s.ofs + unknownSize ≤ p.stop i) : AtNode p i (header p i s) := by
  have stop := stop_lt (p := p) i
  have left : sub (p.stop i) s.ofs = p.stop i - s.ofs := sub_of_le (by omega) stop
  unfold Jffs2Scan.header
  split
  · have dvd := active.ofs_dvd
    have stop_dvd := stop_dvd active.less
    have words : 4 ∣ min bufSize (sub (p.stop i) s.ofs) := by
      rw [left]
      unfold bufSize
      omega
    refine ⟨active.refill (Nat.min_le_left _ _) words, ?_⟩
    rw [inbuf_refill _ _ _ active.ofs_lt]
    change 0 + unknownSize ≤ min bufSize (sub (p.stop i) s.ofs)
    rw [left]
    unfold bufSize unknownSize at *
    omega
  · next enough => exact ⟨active, active.covered small enough⟩

namespace AtNode

variable (node : AtNode p i s)
include node

lemma here_header : ∀ k < unknownSize, s.here k = p.node s.ofs k := by
  intro k less
  have := node.header
  exact node.here_eq (by omega)

lemma index (inside : s.inbuf + k + len ≤ bufSize) : AtNode p i (s.index k len) :=
  ⟨node.toActive.index inside, node.header⟩

lemma index_start (inside : s.inbuf + len ≤ bufSize) : AtNode p i (s.index 0 len) :=
  node.index ((add_zero s.inbuf).symm ▸ inside)

lemma index_header (inside : k + len ≤ unknownSize) : AtNode p i (s.index k len) := by
  have := node.header
  have := node.bufLen_le
  exact node.index (by omega)

lemma whole (small : s.ofs + len < 2 ^ 32) (short : len ≤ bufSize) :
    AtNode p i (whole p len s) ∧ (whole p len s).inbuf + len ≤ bufSize := by
  have few := node.bufLen_le
  unfold Jffs2Scan.whole
  split
  · have empty := inbuf_refill p s s.bufLen node.ofs_lt
    refine ⟨⟨node.toActive.refill few node.bufLen_dvd, ?_⟩, ?_⟩
    · have := node.header
      rw [empty]
      change 0 + unknownSize ≤ s.bufLen
      omega
    · rw [empty]
      omega
  · next enough =>
    have covered := node.covered small enough
    exact ⟨node, by omega⟩

lemma advance (fits : s.ofs + totlenOf (p.node s.ofs) ≤ p.stop i) :
    Active p i s.advance ∧ s.ofs ≤ s.advance.ofs := by
  have stop := stop_lt (p := p) i
  have stop_dvd := stop_dvd node.less
  have dvd := node.ofs_dvd
  have eq : s.advance.ofs = s.ofs + (totlenOf (p.node s.ofs) + 3) / 4 * 4 := by
    change w (s.ofs + w (totlenOf s.here + 3) / 4 * 4) = _
    rw [totlenOf_congr node.here_header]
    unfold w
    omega
  have further : s.ofs ≤ s.advance.ofs := eq ▸ Nat.le_add_right _ _
  have small : s.advance.ofs < 2 ^ 32 := by omega
  have words : 4 ∣ s.advance.ofs := by omega
  have read : AtNode p i (s.index 4 4) := node.index_header (by decide)
  exact ⟨read.move further small words, further⟩

end AtNode

end

/-! ## One node -/

/-- What a node can lead to: it is passed over or added, it is empty, or there is no room. -/
inductive Outcome (i : Nat) (s : Scan) : State → Prop
  | passed {t : Scan} (active : Active p i t) (added : t.added = s.added)
      (prevofs : t.prevofs = s.prevofs) (further : s.ofs ≤ t.ofs) : Outcome i s (.scanning i t)
  | inserted {t : Scan} {list : BList} (active : Active p i t)
      (added : t.added = (list, w (p.offset + s.ofs)) :: s.added) (placed : Placed p i s.ofs)
      (prevofs : t.prevofs = s.prevofs) (further : s.ofs ≤ t.ofs) : Outcome i s (.scanning i t)
  | empty {t : Scan} {scanEnd : Nat} (active : Active p i t) (added : t.added = s.added)
      (prevofs : t.prevofs = s.prevofs) (four : t.ofs = s.ofs + 4) (few : scanEnd ≤ t.bufLen) :
      Outcome i s (.emptying scanEnd i t)
  | full {t : Scan} (active : Active p i t) (added : t.added = s.added) :
      Outcome i s (.returned 0 t)

section

variable {p} {i : Nat} {s : Scan}

lemma Outcome.of_eq {t : Scan} {r : State} (outcome : Outcome p i t r) (ofs : t.ofs = s.ofs)
    (prevofs : t.prevofs = s.prevofs) (added : t.added = s.added) : Outcome p i s r := by
  cases outcome with
  | passed active list prev further =>
    exact .passed active (list.trans added) (prev.trans prevofs) (ofs ▸ further)
  | inserted active list placed prev further =>
    rw [ofs, added] at list
    exact .inserted active list (ofs ▸ placed) (prev.trans prevofs) (ofs ▸ further)
  | empty active list prev four few =>
    exact .empty active (list.trans added) (prev.trans prevofs) (ofs ▸ four) few
  | full active list => exact .full active (list.trans added)

lemma Outcome.skip (active : Active p i s) (small : s.ofs + 4 < 2 ^ 32) :
    Outcome p i s (.scanning i s.skip) := by
  refine .passed (active.skip small) rfl rfl ?_
  change s.ofs ≤ w (s.ofs + 4)
  rw [w_of_lt small]
  omega

lemma Outcome.advance (node : AtNode p i s)
    (fits : s.ofs + totlenOf (p.node s.ofs) ≤ p.stop i) :
    Outcome p i s (.scanning i s.advance) :=
  have next := node.advance fits
  .passed next.1 rfl rfl next.2

lemma insertNode_outcome (list : BList) (node : AtNode p i s) (before : s.ofs < p.stop i)
    (fits : s.ofs + totlenOf (p.node s.ofs) ≤ p.stop i) :
    Outcome p i s (insertNode p list i s) := by
  unfold insertNode
  split
  · have next := node.advance fits
    rw [stop_eq node.less] at before fits
    exact .inserted ⟨next.1.less, next.1.buffer, next.1.ofs_lt, next.1.low, next.1.ofs_dvd,
      next.1.bufOfs_le, next.1.bufOfs_dvd, next.1.bufLen_le, next.1.bufLen_dvd, next.1.content,
      next.1.indexed⟩ rfl ⟨node.low, before, fits⟩ rfl next.2
  · exact .full node.toActive rfl

lemma scanInode_outcome (node : AtNode p i s) (before : s.ofs < p.stop i)
    (fits : s.ofs + totlenOf (p.node s.ofs) ≤ p.stop i) (small : s.ofs + inodeSize < 2 ^ 32) :
    Outcome p i s (scanInode p i s) := by
  obtain ⟨here, inside⟩ := node.whole small (by decide)
  have ofs := whole_ofs p inodeSize s
  have prevofs := whole_prevofs p inodeSize s
  have added := whole_added p inodeSize s
  unfold scanInode
  generalize whole p inodeSize s = t at *
  have read : AtNode p i (t.index 0 inodeSize) := here.index_start inside
  rw [← ofs] at before fits
  dsimp only
  split
  · exact (insertNode_outcome .frag read before fits).of_eq ofs prevofs added
  · exact (Outcome.advance read fits).of_eq ofs prevofs added

lemma nsizeOf_lt (b : Bytes) : nsizeOf b < 256 := (b 28).toNat_lt

lemma AtNode.name_inside (node : AtNode p i s)
    (small : s.ofs + (direntSize + nsizeOf s.here) < 2 ^ 32) :
    (Jffs2Scan.whole p (direntSize + nsizeOf s.here) s).inbuf + (direntSize +
      nsizeOf (Jffs2Scan.whole p (direntSize + nsizeOf s.here) s).here) ≤ bufSize := by
  unfold Jffs2Scan.whole
  split
  · have short := nsizeOf_lt (s.refill p s.bufLen).here
    rw [inbuf_refill _ _ _ node.ofs_lt]
    unfold direntSize bufSize
    omega
  · next enough => exact Nat.le_trans (node.covered small enough) node.bufLen_le

lemma scanDirent_outcome (node : AtNode p i s) (before : s.ofs < p.stop i)
    (fits : s.ofs + totlenOf (p.node s.ofs) ≤ p.stop i) (inside : s.inbuf + 28 < bufSize)
    (small : s.ofs + (direntSize + nsizeOf s.here) < 2 ^ 32) :
    Outcome p i s (scanDirent p i s) := by
  have first : AtNode p i (s.index 28 1) := node.index inside
  have name := first.name_inside small
  obtain ⟨here, -⟩ := first.whole small (by
    have short := nsizeOf_lt s.here
    unfold direntSize bufSize
    omega)
  have ofs := whole_ofs p (direntSize + nsizeOf s.here) (s.index 28 1)
  have prevofs := whole_prevofs p (direntSize + nsizeOf s.here) (s.index 28 1)
  have added := whole_added p (direntSize + nsizeOf s.here) (s.index 28 1)
  unfold scanDirent
  dsimp only
  rw [index_here s 28 1] at name ⊢
  generalize whole p (direntSize + nsizeOf s.here) (s.index 28 1) = t at *
  have regroup (a n : Nat) : a + (direntSize + n) = a + 36 + (4 + n) := by
    unfold direntSize
    omega
  rw [regroup] at name
  have fixed : AtNode p i (t.index 0 36) := here.index_start
    (Nat.le_trans (Nat.le_add_right (t.inbuf + 36) (4 + nsizeOf t.here)) name)
  have read : AtNode p i ((t.index 0 36).index 36 (4 + nsizeOf t.here)) := fixed.index name
  have before' : t.ofs < p.stop i := ofs ▸ before
  have fits' : t.ofs + totlenOf (p.node t.ofs) ≤ p.stop i := ofs ▸ fits
  split
  · split
    · exact (insertNode_outcome .dir read before' fits').of_eq ofs prevofs added
    · exact (Outcome.advance read fits').of_eq ofs prevofs added
  · exact (Outcome.advance fixed fits').of_eq ofs prevofs added

lemma scanNode_outcome (active : Active p i s) (before : s.ofs < p.stop i)
    (inside : s.ofs + unknownSize ≤ p.stop i) (fine : NodeFine p i s) :
    Outcome p i s (scanNode p i (header p i s)) := by
  have node := active.atNode fine.unknown inside
  have totlen := fun believed ends => fine.totlen ⟨inside, believed, ends⟩
  have inode := fun believed ends => fine.inode ⟨inside, believed, ends⟩
  have dirent := fun believed ends => fine.dirent ⟨inside, believed, ends⟩
  have four : s.ofs + 4 < 2 ^ 32 := by
    have := fine.unknown
    unfold unknownSize at this
    omega
  have ofs := header_ofs p i s
  refine Outcome.of_eq ?_ ofs (header_prevofs p i s) (header_added p i s)
  rw [← ofs] at before totlen inode dirent four
  generalize header p i s = t at *
  have word : AtNode p i (t.index 0 4) := node.index_header (by decide)
  have read : AtNode p i ((t.index 0 4).index 0 unknownSize) := word.index_header (by decide)
  have length : totlenOf t.here = totlenOf (p.node t.ofs) := totlenOf_congr node.here_header
  rw [← header_congr node.here_header, ← length] at totlen inode dirent
  rw [← nodetypeOf_congr node.here_header] at inode dirent
  unfold scanNode
  dsimp only
  split
  · exact .empty (word.toActive.skip four) rfl rfl (w_of_lt four) (Nat.min_le_right _ _)
  split
  · exact (Outcome.skip read.toActive four).of_eq rfl rfl rfl
  next believed =>
  have believed : Header t.here := Decidable.not_not.mp believed
  split
  · exact (Outcome.skip read.toActive four).of_eq rfl rfl rfl
  next ends =>
  have ends : w (t.ofs + totlenOf t.here) ≤ p.stop i := Nat.le_of_not_lt ends
  have fits : t.ofs + totlenOf (p.node t.ofs) ≤ p.stop i := by
    rw [w_of_lt (totlen believed ends), length] at ends
    exact ends
  split
  · next kind =>
    exact (scanInode_outcome read before fits (inode believed ends kind)).of_eq rfl rfl rfl
  split
  · next kind =>
    obtain ⟨nsize, name⟩ := dirent believed ends kind
    exact (scanDirent_outcome read before fits nsize name).of_eq rfl rfl rfl
  · exact (Outcome.advance read fits).of_eq rfl rfl rfl

end

/-! ## The runs -/

/-- The nodes that are in the lists: each once, each in a sector before `last`, and each at an
offset that has been seen. -/
structure Listed (last : Nat) (seen : Nat → Prop) (added : List (BList × Nat)) : Prop where
  once : (added.map Prod.snd).Nodup
  placed : ∀ node ∈ added, ∃ j o, node.2 = w (p.offset + o) ∧ j < last ∧ Placed p j o ∧ seen o

inductive Inv : State → Prop
  | sector {i : Nat} {s : Scan} (le : i ≤ p.nrSectors)
      (indexed : ∀ place ∈ s.indexed, place.1 + place.2 ≤ p.bufBytes)
      (listed : Listed p i (fun _ => True) s.added) : Inv (.sector i s)
  | leading {i : Nat} {s : Scan} (le : s.ofs ≤ p.emptyScanSize) (dvd : 4 ∣ s.ofs)
      (active : Active p i { s with ofs := p.sectorOfs i })
      (listed : Listed p i (fun _ => True) s.added) : Inv (.leading i s)
  | scanning {i : Nat} {s : Scan} (active : Active p i s)
      (listed : Listed p (i + 1) (fun o => o < s.ofs ∨ o = s.ofs ∧ s.prevofs = s.ofs) s.added) :
      Inv (.scanning i s)
  | emptying {scanEnd i : Nat} {s : Scan} (active : Active p i s) (few : scanEnd ≤ s.bufLen)
      (before : s.prevofs < s.ofs) (listed : Listed p (i + 1) (fun o => o < s.ofs) s.added) :
      Inv (.emptying scanEnd i s)
  | returned {code : Nat} {s : Scan}
      (indexed : ∀ place ∈ s.indexed, place.1 + place.2 ≤ p.bufBytes)
      (listed : Listed p p.nrSectors (fun _ => True) s.added) : Inv (.returned code s)

/-- The sectors, the words of the sector and the turns that are made at one word: a step takes
one of them away. -/
def measure : State → Nat
  | .sector i _ => (p.nrSectors - i) * 2 ^ 40 + 2 ^ 39
  | .leading i s => (p.nrSectors - i) * 2 ^ 40 + 2 ^ 38 + (p.emptyScanSize - s.ofs)
  | .scanning i s =>
    (p.nrSectors - i) * 2 ^ 40 + 4 * (2 ^ 32 - s.ofs) + if s.ofs = s.prevofs then 0 else 1
  | .emptying scanEnd i s =>
    (p.nrSectors - i) * 2 ^ 40 + 4 * (2 ^ 32 - s.ofs) + if s.inbuf < scanEnd then 2 else 3
  | .returned _ _ => 0

@[simp] lemma measure_sector (i : Nat) (s : Scan) :
    measure p (.sector i s) = (p.nrSectors - i) * 2 ^ 40 + 2 ^ 39 := rfl

@[simp] lemma measure_leading (i : Nat) (s : Scan) : measure p (.leading i s) =
    (p.nrSectors - i) * 2 ^ 40 + 2 ^ 38 + (p.emptyScanSize - s.ofs) := rfl

@[simp] lemma measure_scanning (i : Nat) (s : Scan) : measure p (.scanning i s) =
    (p.nrSectors - i) * 2 ^ 40 + 4 * (2 ^ 32 - s.ofs) + if s.ofs = s.prevofs then 0 else 1 := rfl

@[simp] lemma measure_emptying (scanEnd i : Nat) (s : Scan) : measure p (.emptying scanEnd i s) =
    (p.nrSectors - i) * 2 ^ 40 + 4 * (2 ^ 32 - s.ofs) + if s.inbuf < scanEnd then 2 else 3 := rfl

@[simp] lemma measure_returned (code : Nat) (s : Scan) : measure p (.returned code s) = 0 := rfl

variable {p}

variable {seen : Nat → Prop} {added : List (BList × Nat)}

lemma Listed.mono {last last' : Nat} {seen' : Nat → Prop} (listed : Listed p last seen added)
    (le : last ≤ last') (more : ∀ o, seen o → seen' o) :
    Listed p last' seen' added := by
  refine ⟨listed.once, fun node member => ?_⟩
  obtain ⟨j, o, address, less, placed, before⟩ := listed.placed node member
  exact ⟨j, o, address, Nat.lt_of_lt_of_le less le, placed, more o before⟩

lemma Listed.before {i ofs : Nat} (listed : Listed p i seen added) (low : i * p.sectorSize ≤ ofs) :
    Listed p (i + 1) (· < ofs) added := by
  refine ⟨listed.once, fun node member => ?_⟩
  obtain ⟨j, o, address, less, placed, -⟩ := listed.placed node member
  have sector : (j + 1) * p.sectorSize ≤ i * p.sectorSize := Nat.mul_le_mul_right _ less
  exact ⟨j, o, address, Nat.lt_succ_of_lt less, placed,
    Nat.lt_of_lt_of_le placed.start (Nat.le_trans sector low)⟩

lemma Listed.insert {i ofs : Nat} {list : BList} (listed : Listed p (i + 1) (· < ofs) added)
    (placed : Placed p i ofs) (small : ofs < 2 ^ 32) (more : ∀ o ≤ ofs, seen o) :
    Listed p (i + 1) seen ((list, w (p.offset + ofs)) :: added) := by
  constructor
  · refine List.nodup_cons.mpr ⟨fun member => ?_, listed.once⟩
    obtain ⟨node, among, same⟩ := List.mem_map.mp member
    obtain ⟨j, o, address, -, -, before⟩ := listed.placed node among
    have equal := address_inj (Nat.lt_trans before small) small (address.symm.trans same)
    exact Nat.ne_of_lt before equal
  · refine List.forall_mem_cons.mpr
      ⟨⟨i, ofs, rfl, Nat.lt_succ_self i, placed, more _ (Nat.le_refl _)⟩, ?_⟩
    intro node member
    obtain ⟨j, o, address, less, placed, before⟩ := listed.placed node member
    exact ⟨j, o, address, less, placed, more o (Nat.le_of_lt before)⟩

lemma Active.next {i : Nat} {s t : Scan} (active : Active p i s) {seen : Nat → Prop}
    (listed : Listed p (i + 1) seen s.added) (indexed : t.indexed = s.indexed)
    (added : t.added = s.added) : Inv p (.sector (i + 1) t) := by
  refine .sector active.less ?_ ?_
  · rw [indexed, active.bufBytes]
    exact active.indexed
  · rw [added]
    exact listed.mono (Nat.le_refl _) fun _ _ => trivial

lemma measure_next {i : Nat} (less : i < p.nrSectors) (s : Scan) :
    measure p (.sector (i + 1) s) < (p.nrSectors - i) * 2 ^ 40 := by
  rw [measure_sector]
  omega

section

variable {i : Nat} {s : Scan}

lemma stepSector_inv (inv : Inv p (.sector i s)) (fine : Fine p (.sector i s)) :
    Inv p (stepSector p i s) ∧ measure p (stepSector p i s) < measure p (.sector i s) := by
  cases inv with
  | sector le indexed listed =>
  unfold stepSector
  split
  · next less =>
    have buffer := fine less
    have start := sectorOfs_eq less
    have few := emptyScanSize_le (p := p)
    rw [show p.bufBytes = bufSize from if_pos buffer] at indexed
    constructor
    · refine .leading (Nat.zero_le _) ⟨0, rfl⟩ ?_ listed
      exact ⟨less, buffer, w_lt _, Nat.le_of_eq start.symm, sectorOfs_dvd less, Nat.le_refl _,
        sectorOfs_dvd less, few, emptyScanSize_dvd, fun _ inside => if_pos inside, indexed⟩
    · rw [measure_leading, measure_sector]
      unfold bufSize at few
      omega
  · next done =>
    have all : i = p.nrSectors := by omega
    refine ⟨.returned indexed (all ▸ listed), ?_⟩
    rw [measure_returned, measure_sector]
    omega

lemma stepLeading_inv (inv : Inv p (.leading i s)) :
    Inv p (stepLeading p i s) ∧ measure p (stepLeading p i s) < measure p (.leading i s) := by
  cases inv with
  | leading le dvd active listed =>
  have few := emptyScanSize_le (p := p)
  have words := emptyScanSize_dvd (p := p)
  have start := sectorOfs_eq active.less
  have small := sector_lt active.less
  unfold stepLeading
  split
  · next empty =>
    have room : s.ofs + 4 ≤ p.emptyScanSize := by omega
    have ofs : w (s.ofs + 4) = s.ofs + 4 := w_of_lt (by unfold bufSize at few; omega)
    constructor
    · refine .leading ?_ ?_ ?_ listed
      · exact Nat.le_trans (Nat.le_of_eq ofs) room
      · change 4 ∣ w (s.ofs + 4)
        omega
      · exact { active with
          indexed := List.forall_mem_cons.mpr ⟨Nat.le_trans room few, active.indexed⟩ }
    · rw [measure_leading, measure_leading]
      change _ + (p.emptyScanSize - w (s.ofs + 4)) < _
      omega
  split
  · refine ⟨active.next (listed.mono (Nat.le_succ i) fun _ _ => trivial) rfl rfl, ?_⟩
    exact Nat.lt_of_lt_of_le (measure_next active.less s) (by rw [measure_leading]; omega)
  next _ notAll =>
  have room : s.ofs + 4 ≤ p.emptyScanSize := by omega
  have sector := emptyScanSize_le_sector (p := p)
  rw [Nat.succ_mul] at small
  have ofs : w (s.ofs + p.sectorOfs i) = s.ofs + p.sectorOfs i := w_of_lt (by omega)
  have further : p.sectorOfs i ≤ w (s.ofs + p.sectorOfs i) := by omega
  have start_dvd := sectorOfs_dvd active.less
  constructor
  · have before : Listed p (i + 1) (fun x => x < w (s.ofs + p.sectorOfs i)) s.added :=
      listed.before (by omega)
    refine .scanning ?_ (before.mono (Nat.le_refl _) fun _ => .inl)
    have read : Active p i { s with ofs := p.sectorOfs i, indexed := (s.ofs, 4) :: s.indexed } :=
      { active with
        indexed := List.forall_mem_cons.mpr ⟨Nat.le_trans room few, active.indexed⟩ }
    exact (read.move further (w_lt _) (by omega)).setPrevofs _
  · rw [measure_scanning, measure_leading]
    split <;> omega

lemma Outcome.inv {r : State} (outcome : Outcome p i s r) (ofs_lt : s.ofs < 2 ^ 32)
    (prevofs : s.prevofs = s.ofs) (listed : Listed p (i + 1) (· < s.ofs) s.added) :
    Inv p r ∧ measure p r < (p.nrSectors - i) * 2 ^ 40 + 4 * (2 ^ 32 - s.ofs) + 1 := by
  cases outcome with
  | @passed t active added prev further =>
    constructor
    · refine .scanning active (added ▸ listed.mono (Nat.le_refl _) fun o before => ?_)
      exact .inl (Nat.lt_of_lt_of_le before further)
    · rw [measure_scanning]
      split <;> omega
  | @inserted t list active added placed prev further =>
    constructor
    · refine .scanning active (added ▸ listed.insert placed ofs_lt fun o le => ?_)
      omega
    · rw [measure_scanning]
      split <;> omega
  | @empty t scanEnd active added prev four few =>
    constructor
    · refine .emptying active few (by omega)
        (added ▸ listed.mono (Nat.le_refl _) fun o before => ?_)
      omega
    · rw [measure_emptying]
      split <;> omega
  | full active added =>
    refine ⟨.returned ?_ (added ▸ listed.mono active.less fun _ _ => trivial), ?_⟩
    · rw [active.bufBytes]
      exact active.indexed
    · rw [measure_returned]
      omega

lemma header_setPrevofs (prevofs : Nat) :
    header p i { s with prevofs } = { header p i s with prevofs } := by
  unfold header
  split <;> rfl

lemma NodeFine.setPrevofs (fine : NodeFine p i s) (prevofs : Nat) :
    NodeFine p i { s with prevofs } := by
  refine ⟨fine.unknown, fine.totlen, fine.inode, ?_⟩
  rw [header_setPrevofs]
  exact fine.dirent

lemma stepScanning_inv (inv : Inv p (.scanning i s)) (fine : Fine p (.scanning i s)) :
    Inv p (stepScanning p i s) ∧ measure p (stepScanning p i s) < measure p (.scanning i s) := by
  cases inv with
  | scanning active listed =>
  have ofs_lt := active.ofs_lt
  unfold stepScanning
  split
  · next before =>
    split
    · next seen =>
      have four : s.ofs + 4 < 2 ^ 32 := by
        have := stop_lt (p := p) i
        have := stop_dvd active.less
        omega
      have ofs : s.skip.ofs = s.ofs + 4 := w_of_lt four
      constructor
      · refine .scanning (active.skip four) (listed.mono (Nat.le_refl _) fun o past => ?_)
        rw [ofs]
        omega
      · rw [measure_scanning, measure_scanning, ofs, if_pos seen]
        split <;> omega
    · next fresh =>
      have fine : NodeFine p i s := fine before fresh
      have listed : Listed p (i + 1) (· < s.ofs) s.added :=
        listed.mono (Nat.le_refl _) fun o past => past.resolve_right fun same => fresh same.2.symm
      dsimp only
      rw [measure_scanning, if_neg fresh]
      split
      · refine ⟨active.next listed rfl rfl, Nat.lt_of_lt_of_le (measure_next active.less _) ?_⟩
        omega
      next inside =>
      rw [w_of_lt fine.unknown] at inside
      have outcome := scanNode_outcome (active.setPrevofs s.ofs) before (Nat.le_of_not_lt inside)
        (fine.setPrevofs s.ofs)
      exact outcome.inv ofs_lt rfl listed
  · refine ⟨active.next listed rfl rfl, Nat.lt_of_lt_of_le (measure_next active.less s) ?_⟩
    rw [measure_scanning, add_assoc]
    exact Nat.le_add_right _ _

lemma stepEmptying_inv {scanEnd : Nat} (inv : Inv p (.emptying scanEnd i s))
    (fine : Fine p (.emptying scanEnd i s)) :
    Inv p (stepEmptying p scanEnd i s) ∧
      measure p (stepEmptying p scanEnd i s) < measure p (.emptying scanEnd i s) := by
  cases inv with
  | emptying active few before listed =>
  have ofs_lt := active.ofs_lt
  have most := active.bufLen_le
  unfold stepEmptying
  split
  · next more =>
    have word : Active p i (s.index 0 4) := by
      refine active.index ?_
      have inbuf_dvd := active.inbuf_dvd
      unfold bufSize at most ⊢
      omega
    dsimp only
    split
    · next empty =>
      have four := fine more empty
      have ofs : (s.index 0 4).skip.ofs = s.ofs + 4 := w_of_lt four
      constructor
      · refine .emptying (word.skip four) few ?_ (listed.mono (Nat.le_refl _) fun o past => ?_)
        · rw [ofs]
          exact Nat.lt_of_lt_of_le before (Nat.le_add_right _ _)
        · rw [ofs]
          omega
      · rw [measure_emptying, measure_emptying, ofs, if_pos more]
        split <;> omega
    · constructor
      · exact .scanning word (listed.mono (Nat.le_refl _) fun _ => .inl)
      · have same : (s.index 0 4).ofs = s.ofs := rfl
        rw [measure_scanning, measure_emptying, if_pos more, same]
        split <;> omega
  · next ended =>
    dsimp only
    split
    · refine ⟨active.next listed rfl rfl, Nat.lt_of_lt_of_le (measure_next active.less _) ?_⟩
      rw [measure_emptying]
      omega
    next left =>
    have words : 4 ∣ min bufSize (sub (p.stop i) s.ofs) := by
      have stop_dvd := stop_dvd active.less
      have ofs_dvd := active.ofs_dvd
      unfold sub w bufSize
      omega
    constructor
    · exact .emptying (active.refill (Nat.min_le_left _ _) words) (Nat.le_refl _) before listed
    · rw [measure_emptying, measure_emptying, if_neg ended, if_pos]
      · exact Nat.lt_succ_self _
      · rw [inbuf_refill _ _ _ ofs_lt]
        omega

end

lemma step_inv {st : State} (inv : Inv p st) (fine : Fine p st) :
    Inv p (step p st) ∧
      (measure p (step p st) < measure p st ∨ ∃ code s, st = .returned code s) := by
  cases st with
  | sector i s => exact (stepSector_inv inv fine).imp_right .inl
  | leading i s => exact (stepLeading_inv inv).imp_right .inl
  | scanning i s => exact (stepScanning_inv inv fine).imp_right .inl
  | emptying scanEnd i s => exact (stepEmptying_inv inv fine).imp_right .inl
  | returned code s => exact ⟨inv, .inr ⟨code, s, rfl⟩⟩

lemma run_inv (n : Nat) (fine : ∀ m < n, Fine p (run p m)) : Inv p (run p n) := by
  induction n with
  | zero =>
    exact .sector (Nat.zero_le _) (List.forall_mem_nil _)
      ⟨List.nodup_nil, List.forall_mem_nil _⟩
  | succ n ih =>
    have before := ih fun m less => fine m (Nat.lt_succ_of_lt less)
    exact (step_inv before (fine n (Nat.lt_succ_self n))).1

lemma Listed.sound {last : Nat} {s : Scan} (listed : Listed p last seen s.added)
    (le : last ≤ p.nrSectors) (indexed : ∀ place ∈ s.indexed, place.1 + place.2 ≤ p.bufBytes) :
    Sound p s := by
  refine ⟨indexed, listed.once, fun node member => ?_⟩
  obtain ⟨j, o, address, less, placed, -⟩ := listed.placed node member
  exact ⟨j, o, address, Nat.lt_of_lt_of_le less le, placed⟩

lemma Inv.sound {st : State} (inv : Inv p st) : Sound p st.scan := by
  cases inv with
  | sector le indexed listed => exact listed.sound le indexed
  | leading le dvd active listed =>
    exact listed.sound (Nat.le_of_lt active.less) (active.bufBytes ▸ active.indexed)
  | scanning active listed =>
    exact listed.sound active.less (active.bufBytes ▸ active.indexed)
  | emptying active few before listed =>
    exact listed.sound active.less (active.bufBytes ▸ active.indexed)
  | returned indexed listed => exact listed.sound (Nat.le_refl _) indexed

lemma returns (fine : ∀ n, Fine p (run p n)) (bound n : Nat) (le : measure p (run p n) ≤ bound) :
    ∃ m code s, run p m = .returned code s := by
  have nearer := (step_inv (run_inv n fun m _ => fine m) (fine n)).2
  induction bound generalizing n with
  | zero =>
    rcases nearer with less | ⟨code, s, done⟩
    · omega
    · exact ⟨n, code, s, done⟩
  | succ bound ih =>
    rcases nearer with less | ⟨code, s, done⟩
    · refine ih (n + 1) ?_ (step_inv (run_inv (n + 1) fun m _ => fine m) (fine (n + 1))).2
      exact Nat.le_of_lt_succ (Nat.lt_of_lt_of_le less le)
    · exact ⟨n, code, s, done⟩

/-- If every step of the scan is fine, it comes back, and at every time the buffer was read inside
and every node was added once, with all of it in its sector. -/
theorem build_lists_sound_of_fine (fine : ∀ n, Fine p (run p n)) :
    (∃ n code s, run p n = .returned code s) ∧ ∀ n, Sound p (run p n).scan :=
  ⟨returns fine _ 0 (Nat.le_refl _), fun n => (run_inv n fun m _ => fine m).sound⟩

/-! ## Small partitions -/

def State.isReturned : State → Bool
  | .returned _ _ => true
  | _ => false

lemma isReturned_run {n : Nat} (done : (run p n).isReturned = true) (k : Nat) :
    (run p (n + k)).isReturned = true := by
  induction k with
  | zero => exact done
  | succ k ih =>
    change (step p (run p (n + k))).isReturned = true
    generalize run p (n + k) = st at ih
    cases st <;> first | exact ih | cases ih

lemma fine_of_isReturned {n : Nat} (done : (run p n).isReturned = true)
    (before : ∀ m < n, Fine p (run p m)) (m : Nat) : Fine p (run p m) := by
  by_cases less : m < n
  · exact before m less
  obtain ⟨k, rfl⟩ := Nat.exists_eq_add_of_le (Nat.le_of_not_lt less)
  have later := isReturned_run done k
  generalize run p (n + k) = st at later
  cases st with
  | returned code s => trivial
  | _ => cases later

def oneSector (size : Nat) (medium : Bytes) (size_lt : size < 2 ^ 32) (pos : 0 < size)
    (aligned : 4 ∣ size) : Part where
  offset := 0
  size := size
  sectorSize := size
  medium := medium
  buffer := true
  garbage := fun _ => 0
  room := fun _ => true
  size_lt := size_lt
  sectorSize_lt := size_lt
  sectorSize_pos := pos
  aligned := aligned

def inodePart : Part :=
  oneSector 72 ([0x85, 0x19, 0x02, 0xe0, 68, 0, 0, 0, 29, 251, 247, 152].getD · 0)
    (by decide) (by decide) (by decide)

theorem inodePart_sound : (∃ n code s, run inodePart n = .returned code s) ∧
    ∀ n, Sound inodePart (run inodePart n).scan :=
  build_lists_sound_of_fine
    (@fine_of_isReturned _ 5 (by decide +kernel) (by decide +kernel))

def backPart : Part :=
  oneSector 256
    ([0, 0, 0, 0, 0x85, 0x19, 0x02, 0xe0, 0xfc, 0xff, 0xff, 0xff, 122, 187, 143, 64].getD · 0)
    (by decide) (by decide) (by decide)

/-- It is added again and again, and does not end in its sector. -/
theorem backPart_twice : ¬ Sound backPart (run backPart 6).scan := by
  intro sound
  have twice : ¬ ((run backPart 6).scan.added.map Prod.snd).Nodup := by decide +kernel
  exact twice sound.once

end Jffs2Scan
