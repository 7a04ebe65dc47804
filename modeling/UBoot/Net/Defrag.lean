import UBoot.Lib.ByteMemory

/-!
# Reassembling IP fragments (net/net.c, `__NetDefragment`)

The algorithm of RFC 815: the descriptors of the holes live in the holes. `none`
is an access outside `pkt_buff`, a `memcpy` of negative length, or a search that
does not end. Descriptors are little-endian, as on the configured board.
-/

namespace Defrag

open ByteMemory

structure IpHeader where
  ipHlV : Nat
  ipTos : Nat
  ipLen : Nat
  ipId : Nat
  ipOff : Nat
  ipTtl : Nat
  ipP : Nat
  ipSum : Nat
  ipSrc : Nat
  ipDst : Nat
  deriving DecidableEq

structure Fragment where
  header : IpHeader
  data : Mem

/-- IP_MAXUDP: CONFIG_NET_MAXDEFRAG and the 100 bytes of an RPC reply, less the header. -/
def ipMaxUdp : Nat := 16384 + 100 - 20

def holeCount : Nat := 2058

/-- `pkt_buff`, as header and payload, and the two static variables. -/
structure State where
  localip : IpHeader
  payload : Mem
  firstHole : Nat
  totalLen : Nat

structure Hole where
  lastByte : Nat
  nextHole : Nat
  prevHole : Nat
  unused : Nat
  deriving DecidableEq

def hole (m : Mem) (i : Nat) : Hole :=
  ⟨leValue (slice m (8 * i) 2), leValue (slice m (8 * i + 2) 2), leValue (slice m (8 * i + 4) 2),
    leValue (slice m (8 * i + 6) 2)⟩

def setLast (m : Mem) (i v : Nat) : Mem := blit m (8 * i) (leBytes 2 v)
def setNext (m : Mem) (i v : Nat) : Mem := blit m (8 * i + 2) (leBytes 2 v)
def setPrev (m : Mem) (i v : Nat) : Mem := blit m (8 * i + 4) (leBytes 2 v)

def copyHole (m : Mem) (newh h : Nat) : Mem := blit m (8 * newh) (slice m (8 * h) 8)

def inside (i : Nat) (m : Mem) : Option Mem := if i < holeCount then some m else none

/-- `while (h->last_byte < start)`: the hole found, or "no hole that far away". A search longer
than the number of entries goes round in a circle. -/
def search (m : Mem) (start : Nat) : Nat → Nat → Option (Option Nat)
  | 0, _ => none
  | fuel + 1, h =>
    if holeCount ≤ h then none
    else if (hole m h).lastByte < start then
      if (hole m h).nextHole = 0 then some none else search m start fuel (hole m h).nextHole
    else some (some h)

structure Links where
  payload : Mem
  firstHole : Nat
  done : Bool

def removeHole (m : Mem) (firstHole h : Nat) : Option Links :=
  let prev := (hole m h).prevHole
  let next := (hole m h).nextHole
  if prev = 0 ∧ next = 0 then some ⟨m, firstHole, true⟩
  else if prev = 0 then (inside next (setPrev m next 0)).map (⟨·, next, false⟩)
  else if next = 0 then (inside prev (setNext m prev 0)).map (⟨·, firstHole, false⟩)
  else ((inside next (setPrev m next prev)).bind
    (fun m => inside prev (setNext m prev next))).map (⟨·, firstHole, false⟩)

/-- "overlaps with initial part of the hole: move this hole". -/
def moveHole (m : Mem) (firstHole h newh : Nat) : Option Links :=
  (inside newh (copyHole m newh h)).bind fun m =>
    let next := (hole m newh).nextHole
    (if next = 0 then some m else inside next (setPrev m next newh)).bind fun m =>
      let prev := (hole m newh).prevHole
      if prev = 0 then some ⟨m, newh, false⟩
      else (inside prev (setNext m prev newh)).map (⟨·, firstHole, false⟩)

/-- "fragment sits in the middle: split the hole". -/
def splitHole (m : Mem) (firstHole h newh start : Nat) : Option Links :=
  (inside newh (copyHole m newh h)).bind fun m =>
    let m := setPrev (setNext (setLast m h start) h newh) newh h
    let next := (hole m newh).nextHole
    (if next = 0 then some m else inside next (setPrev m next newh)).map (⟨·, firstHole, false⟩)

/-- "There is some overlap: fix the hole list." -/
def fixHoles (m : Mem) (firstHole h offset8 : Nat) (len : Int) : Option Links :=
  let start := 8 * offset8
  let newh := (offset8 + len.tdiv 8).toNat
  if offset8 ≤ h ∧ (hole m h).lastByte ≤ start + len then removeHole m firstHole h
  else if (hole m h).lastByte ≤ start + len then some ⟨setLast m h start, firstHole, false⟩
  else if offset8 ≤ h then moveHole m firstHole h newh
  else splitHole m firstHole h newh start

def offset8 (f : Fragment) : Nat := f.header.ipOff % 0x2000
def moreFragments (f : Fragment) : Bool := f.header.ipOff / 0x2000 % 2 = 1

def fragLen (f : Fragment) : Int := (f.header.ipLen : Int) - 20

/-- "fragment extends too far"; the comparison is unsigned. -/
def TooFar (f : Fragment) : Prop :=
  8 * (offset8 f : Int) + fragLen f < 0 ∨ ipMaxUdp < 8 * (offset8 f : Int) + fragLen f

instance (f : Fragment) : Decidable (TooFar f) := inferInstanceAs (Decidable (_ ∨ _))

/-- "new (or different) packet, reset structs". -/
def reset (s : State) (f : Fragment) : State :=
  if s.totalLen = 0 ∨ s.localip.ipId ≠ f.header.ipId then
    { localip := f.header, firstHole := 0, totalLen := 0xffff,
      payload := setPrev (setNext (setLast s.payload 0 0xffff) 0 0) 0 0 }
  else s

/-- From the overlap with hole `h` on; `some lenp` is the packet in `pkt_buff`. -/
def insertFragment (s : State) (f : Fragment) (h : Nat) : Option (State × Option Nat) :=
  let len := fragLen f
  let stop := (8 * (offset8 f : Int) + len).toNat
  let s := if moreFragments f then s
    else { s with totalLen := stop, payload := setLast s.payload h stop }
  match fixHoles s.payload s.firstHole h (offset8 f) len with
  | none => none
  | some l =>
    if len < 0 then none
    else
      let s := { s with firstHole := l.firstHole,
                        payload := blit l.payload (8 * offset8 f) (slice f.data 0 len.toNat) }
      if l.done then
        some ({ s with localip := { s.localip with ipLen := s.totalLen } }, some (s.totalLen + 20))
      else some (s, none)

/-- "What follows is the reassembly algorithm." -/
def reassemble (s : State) (f : Fragment) : Option (State × Option Nat) :=
  match search s.payload (8 * offset8 f) (holeCount + 1) s.firstHole with
  | none => none
  | some none => some (s, none)
  | some (some h) =>
    -- "no overlap with holes (dup fragment?)"
    if offset8 f + (fragLen f).tdiv 8 ≤ h then some (s, none) else insertFragment s f h

def netDefragment (s : State) (f : Fragment) : Option (State × Option Nat) :=
  if TooFar f then some (s, none) else reassemble (reset s f) f

lemma hole_congr {m m' : Mem} {i : Nat}
    (same : ∀ x, 8 * i ≤ x → x < 8 * i + 8 → m' x = m x) : hole m' i = hole m i := by
  have hlast : slice m' (8 * i) 2 = slice m (8 * i) 2 :=
    slice_congr (fun x hx hx' => same x (by omega) (by omega))
  have hnext : slice m' (8 * i + 2) 2 = slice m (8 * i + 2) 2 :=
    slice_congr (fun x hx hx' => same x (by omega) (by omega))
  have hprev : slice m' (8 * i + 4) 2 = slice m (8 * i + 4) 2 :=
    slice_congr (fun x hx hx' => same x (by omega) (by omega))
  have hunused : slice m' (8 * i + 6) 2 = slice m (8 * i + 6) 2 :=
    slice_congr (fun x hx hx' => same x (by omega) (by omega))
  simp only [hole, hlast, hnext, hprev, hunused]

lemma hole_blit_outside (m : Mem) {a i : Nat} (bs : List UInt8)
    (apart : a + bs.length ≤ 8 * i ∨ 8 * i + 8 ≤ a) : hole (blit m a bs) i = hole m i := by
  apply hole_congr
  intro x hx hx'
  exact blit_outside _ _ (by omega)

lemma field_same (m : Mem) (a : Nat) {v : Nat} (small : v < 65536) :
    leValue (slice (blit m a (leBytes 2 v)) a 2) = v := by
  have h := slice_of_holds (holds_blit m a (leBytes 2 v))
  rw [leBytes_length] at h
  rw [h, leValue_leBytes]
  exact Nat.mod_eq_of_lt small

lemma field_other (m : Mem) {a b : Nat} (v : Nat) (apart : a + 2 ≤ b ∨ b + 2 ≤ a) :
    leValue (slice (blit m a (leBytes 2 v)) b 2) = leValue (slice m b 2) := by
  congr 1
  refine slice_congr (fun x hx hx' => blit_outside _ _ ?_)
  rw [leBytes_length]
  omega

lemma hole_setLast (m : Mem) (i j : Nat) {v : Nat} (small : v < 65536) :
    hole (setLast m i v) j = if j = i then { hole m i with lastByte := v } else hole m j := by
  by_cases h : j = i
  · subst h
    simp only [hole, setLast, if_true, field_same m _ small]
    rw [field_other m v (.inl (by omega)), field_other m v (.inl (by omega)),
      field_other m v (.inl (by omega))]
  · rw [if_neg h]
    refine hole_blit_outside _ _ ?_
    rw [leBytes_length]
    omega

lemma hole_setNext (m : Mem) (i j : Nat) {v : Nat} (small : v < 65536) :
    hole (setNext m i v) j = if j = i then { hole m i with nextHole := v } else hole m j := by
  by_cases h : j = i
  · subst h
    simp only [hole, setNext, if_true, field_same m _ small]
    rw [field_other m v (.inr (by omega)), field_other m v (.inl (by omega)),
      field_other m v (.inl (by omega))]
  · rw [if_neg h]
    refine hole_blit_outside _ _ ?_
    rw [leBytes_length]
    omega

lemma hole_setPrev (m : Mem) (i j : Nat) {v : Nat} (small : v < 65536) :
    hole (setPrev m i v) j = if j = i then { hole m i with prevHole := v } else hole m j := by
  by_cases h : j = i
  · subst h
    simp only [hole, setPrev, if_true, field_same m _ small]
    rw [field_other m v (.inr (by omega)), field_other m v (.inr (by omega)),
      field_other m v (.inl (by omega))]
  · rw [if_neg h]
    refine hole_blit_outside _ _ ?_
    rw [leBytes_length]
    omega

lemma hole_copyHole (m : Mem) (newh h j : Nat) :
    hole (copyHole m newh h) j = if j = newh then hole m h else hole m j := by
  by_cases hj : j = newh
  · subst hj
    rw [if_pos rfl]
    have hcopy : ∀ k n, k + n ≤ 8 →
        slice (copyHole m j h) (8 * j + k) n = slice m (8 * h + k) n := by
      intro k n hk
      refine List.ext_getElem (by simp) (fun x hx hx' => ?_)
      rw [slice_length] at hx
      rw [slice_get, slice_get, copyHole, blit_slice m m (by omega) (by omega)]
      congr 1
      omega
    have hlast := hcopy 0 2 (by decide)
    simp only [add_zero] at hlast
    simp only [hole, hlast, hcopy 2 2 (by decide), hcopy 4 2 (by decide), hcopy 6 2 (by decide)]
  · rw [if_neg hj]
    refine hole_blit_outside _ _ ?_
    rw [slice_length]
    omega

section Outside

variable (m : Mem) {i x : Nat} (out : x < 8 * i ∨ 8 * i + 8 ≤ x)

include out

lemma setLast_outside (v : Nat) : setLast m i v x = m x :=
  blit_outside _ _ (by rw [leBytes_length]; omega)

lemma setNext_outside (v : Nat) : setNext m i v x = m x :=
  blit_outside _ _ (by rw [leBytes_length]; omega)

lemma setPrev_outside (v : Nat) : setPrev m i v x = m x :=
  blit_outside _ _ (by rw [leBytes_length]; omega)

lemma copyHole_outside (h : Nat) : copyHole m i h x = m x :=
  blit_outside _ _ (by rw [slice_length]; omega)

end Outside

end Defrag
