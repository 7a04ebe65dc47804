import UBoot.Net.HoleList

/-!
# From the wire to the packet handler (net/net.c, `NetReceive`)

What a received frame must pass before a UDP packet reaches `packetHandler`, and
which bytes the handler is told to own. ARP, RARP and ICMP frames end in branches
of their own, which call no handler with a length.
-/

namespace NetReceive

open ByteMemory Defrag

/-- Compile-time options and the addresses the code compares with, in host byte order. -/
structure Config where
  ipDefrag : Bool
  udpChecksum : Bool
  netOurIP : Nat
  netOurVLAN : Nat
  netOurNativeVLAN : Nat

/-- The receive buffer and the `len` bytes of it that came from the wire; `len` is an `int`. -/
structure Frame where
  inpkt : Mem
  len : Nat
  small : len < 2 ^ 31

def etherHdrSize : Nat := 14
def e802HdrSize : Nat := 22
def vlanEtherHdrSize : Nat := 18
def ipHdrSize : Nat := 28
def vlanNone : Nat := 4095
def protIp : Nat := 0x0800
def protArp : Nat := 0x0806
def protRarp : Nat := 0x8035
def protVlan : Nat := 0x8100
def ipprotoIcmp : Nat := 1
def ipprotoUdp : Nat := 17

/-- The protocol field, the size of the link header and the VLAN id of the frame. -/
structure LinkHeader where
  x : Nat
  size : Nat
  vlanid : Nat
  deriving DecidableEq

def linkHeader (c : Config) (f : Frame) : Option LinkHeader :=
  if f.len < etherHdrSize then none
  else if be16 f.inpkt 12 < 1514 then some ⟨be16 f.inpkt 20, e802HdrSize, vlanNone⟩
  else if be16 f.inpkt 12 ≠ protVlan then some ⟨be16 f.inpkt 12, etherHdrSize, vlanNone⟩
  else if f.len < vlanEtherHdrSize then none
  else if c.netOurVLAN % 4096 = vlanNone then none
  else some ⟨be16 f.inpkt 16, vlanEtherHdrSize, be16 f.inpkt 14 % 4096⟩

def vlanOf (v : Nat) : Nat := if v = 0xffff then vlanNone else v

def vlanMatches (c : Config) (h : LinkHeader) : Bool :=
  let my := vlanOf c.netOurVLAN % 4096
  my = vlanNone ∨ (if h.vlanid = vlanNone then vlanOf c.netOurNativeVLAN % 4096 else h.vlanid) = my

/-- Two folds of the carries, as in `NetCksum`. -/
def cksumFold (xsum : Nat) : Nat :=
  let xsum := xsum % 65536 + xsum / 65536
  (xsum % 65536 + xsum / 65536) % 65536

/-- `NetCksum` of `n` 16-bit words, in memory order of the board. -/
def netCksum (m : Mem) (a n : Nat) : Nat :=
  cksumFold ((List.range n).map (fun i => leValue (slice m (a + 2 * i) 2))).sum

def netCksumOk (m : Mem) (a n : Nat) : Bool := (netCksum m a n + 1) &&& 0xfffe = 0

/-- The IP packet at `a`, as header and what follows it. -/
def packetAt (m : Mem) (a : Nat) : Fragment :=
  ⟨⟨(m a).toNat, (m (a + 1)).toNat, be16 m (a + 2), be16 m (a + 4), be16 m (a + 6),
      (m (a + 8)).toNat, (m (a + 9)).toNat, be16 m (a + 10), be32 m (a + 12), be32 m (a + 16)⟩,
    fun i => m (a + 20 + i)⟩

inductive Buffer where
  | frame
  | pktBuff
  deriving DecidableEq

/-- The packet behind `NetDefragment`: where it lies, at which offset, and its bytes. -/
structure Datagram where
  buffer : Buffer
  ip : Nat
  packet : Fragment

def isFragment (p : Fragment) : Bool := offset8 p ≠ 0 ∨ moreFragments p = true

/-- `NetDefragment`: the unchanged packet, the reassembled one, or NULL. -/
def defragment (c : Config) (s : State) (size : Nat) (p : Fragment) :
    Option (State × Option Datagram) :=
  if ¬ isFragment p then some (s, some ⟨.frame, size, p⟩)
  else if ¬ c.ipDefrag then some (s, none)
  else (netDefragment s p).map fun r =>
    (r.1, r.2.map fun _ => ⟨.pktBuff, 0, ⟨r.1.localip, r.1.payload⟩⟩)

def udpSrc (p : Fragment) : Nat := be16 p.data 0
def udpDst (p : Fragment) : Nat := be16 p.data 2
def udpLen (p : Fragment) : Nat := be16 p.data 4
def udpXsum (p : Fragment) : Nat := be16 p.data 6

def foldAll (xsum : Nat) : Nat :=
  if xsum / 65536 = 0 then xsum else foldAll (xsum % 65536 + xsum / 65536)
termination_by xsum
decreasing_by omega

/-- The sum over the pseudo header and `udp_len` bytes, an odd last byte padded. -/
def udpSum (p : Fragment) : Nat :=
  foldAll (p.header.ipP + udpLen p + p.header.ipSrc / 65536 + p.header.ipSrc % 65536 +
    p.header.ipDst / 65536 + p.header.ipDst % 65536 +
    ((List.range (udpLen p / 2)).map (fun i => be16 p.data (2 * i))).sum +
    if udpLen p % 2 = 1 then 256 * (p.data (udpLen p - 1)).toNat else 0)

def udpWrong (c : Config) (p : Fragment) : Bool :=
  c.udpChecksum ∧ udpXsum p ≠ 0 ∧ udpSum p ≠ 0 ∧ udpSum p ≠ 0xffff

/-- The arguments of a call of `packetHandler`; `pkt` is an offset into the buffer. -/
structure Call where
  buffer : Buffer
  pkt : Nat
  dest : Nat
  src : Nat
  len : Nat
  deriving DecidableEq

inductive Outcome where
  | dropped
  | arp
  | rarp
  | icmp
  | udp (call : Call)
  deriving DecidableEq

/-- From `NetDefragment` on. The handler's length is unsigned. -/
def dispatch (c : Config) (d : Datagram) : Outcome :=
  if d.packet.header.ipP = ipprotoIcmp then .icmp
  else if d.packet.header.ipP ≠ ipprotoUdp then .dropped
  else if udpWrong c d.packet then .dropped
  else .udp ⟨d.buffer, d.ip + ipHdrSize, udpDst d.packet, udpSrc d.packet,
    (2 ^ 32 + udpLen d.packet - 8) % 2 ^ 32⟩

def ipAccepted (c : Config) (f : Frame) (size : Nat) : Bool :=
  let len : Int := (f.len : Int) - size
  let p := packetAt f.inpkt size
  ¬ (0 ≤ len ∧ len < ipHdrSize) ∧ ¬ len < p.header.ipLen ∧ p.header.ipHlV / 16 = 4 ∧
    p.header.ipHlV % 16 ≤ 5 ∧ netCksumOk f.inpkt size 10 ∧
    (c.netOurIP = 0 ∨ p.header.ipDst = c.netOurIP ∨ p.header.ipDst = 0xffffffff)

/-- `NetReceive`; `none` is a crash inside `__NetDefragment`. -/
def netReceive (c : Config) (s : State) (f : Frame) : Option (State × Outcome) :=
  match linkHeader c f with
  | none => some (s, .dropped)
  | some h =>
    if ¬ vlanMatches c h then some (s, .dropped)
    else if h.x = protArp then some (s, .arp)
    else if h.x = protRarp then some (s, .rarp)
    else if h.x ≠ protIp then some (s, .dropped)
    else if ¬ ipAccepted c f h.size then some (s, .dropped)
    else (defragment c s h.size (packetAt f.inpkt h.size)).map fun r =>
      (r.1, match r.2 with
        | none => .dropped
        | some d => dispatch c d)

def extent (f : Frame) (s : State) : Buffer → Nat
  | .frame => f.len
  | .pktBuff => s.totalLen + 20

def Contained (f : Frame) (s : State) (call : Call) : Prop :=
  call.pkt + call.len ≤ extent f s call.buffer

/-- The UDP header's length covers the header, and the packet it lies in covers that length. -/
def HonestLength (s : State) (f : Frame) (size : Nat) : Prop :=
  if isFragment (packetAt f.inpkt size) then
    ∀ t lenp, netDefragment s (packetAt f.inpkt size) = some (t, some lenp) →
      8 ≤ be16 t.payload 4 ∧ 20 + be16 t.payload 4 ≤ lenp
  else 8 ≤ udpLen (packetAt f.inpkt size) ∧ size + 20 + udpLen (packetAt f.inpkt size) ≤ f.len

instance (f : Frame) (s : State) (call : Call) : Decidable (Contained f s call) :=
  inferInstanceAs (Decidable (_ ≤ _))

lemma insertFragment_done {s t : State} {p : Fragment} {h lenp : Nat}
    (done : insertFragment s p h = some (t, some lenp)) :
    lenp = t.totalLen + 20 ∧ (t.totalLen = s.totalLen ∨
      t.totalLen = (8 * (offset8 p : Int) + fragLen p).toNat) := by
  unfold insertFragment at done
  cases hmore : moreFragments p with
  | true =>
    simp only [hmore, if_true] at done
    split at done
    · cases done
    split_ifs at done
    · cases done
      exact ⟨rfl, .inl rfl⟩
    · simp at done
  | false =>
    simp only [hmore, Bool.false_eq_true, if_false] at done
    split at done
    · cases done
    split_ifs at done
    · cases done
      exact ⟨rfl, .inr rfl⟩
    · simp at done

lemma netDefragment_lenp {s t : State} {p : Fragment} {lenp : Nat}
    (small : s.totalLen < 65536) (done : netDefragment s p = some (t, some lenp)) :
    lenp = t.totalLen + 20 ∧ t.totalLen < 65536 := by
  have hmax : ipMaxUdp = 16464 := rfl
  rw [netDefragment] at done
  split_ifs at done with hfar
  · simp at done
  rw [TooFar, not_or] at hfar
  have hreset : (reset s p).totalLen < 65536 := by
    unfold reset
    split_ifs
    · exact (by decide : 0xffff < 65536)
    · exact small
  rw [reassemble] at done
  split at done
  · cases done
  · simp at done
  · split_ifs at done
    · simp at done
    obtain ⟨hlenp, htotal⟩ := insertFragment_done done
    refine ⟨hlenp, ?_⟩
    rcases htotal with h | h
    · omega
    · omega

lemma dispatch_udp {c : Config} {d : Datagram} {call : Call} (h : dispatch c d = .udp call) :
    call = ⟨d.buffer, d.ip + ipHdrSize, udpDst d.packet, udpSrc d.packet,
      (2 ^ 32 + udpLen d.packet - 8) % 2 ^ 32⟩ := by
  unfold dispatch at h
  split_ifs at h
  exact (Outcome.udp.inj h).symm

lemma range_within {udp room : Nat} (small : udp < 65536) (bounded : room < 2 ^ 31) (pkt : Nat) :
    pkt + ipHdrSize + (2 ^ 32 + udp - 8) % 2 ^ 32 ≤ room ↔ 8 ≤ udp ∧ pkt + 20 + udp ≤ room := by
  have hhdr : ipHdrSize = 28 := rfl
  by_cases hlen : 8 ≤ udp
  · have hmod : (2 ^ 32 + udp - 8) % 2 ^ 32 = udp - 8 := by omega
    rw [hmod]
    omega
  · have hmod : (2 ^ 32 + udp - 8) % 2 ^ 32 = 2 ^ 32 + udp - 8 := by omega
    rw [hmod]
    omega

lemma netReceive_udp {c : Config} {s t : State} {f : Frame} {call : Call}
    (h : netReceive c s f = some (t, .udp call)) :
    ∃ l d, linkHeader c f = some l ∧
      defragment c s l.size (packetAt f.inpkt l.size) = some (t, some d) ∧
      dispatch c d = .udp call := by
  unfold netReceive at h
  cases hlink : linkHeader c f with
  | none => simp [hlink] at h
  | some l =>
    rw [hlink] at h
    simp only at h
    split_ifs at h with hvlan harp hrarp hip haccepted
    · cases h
    · cases h
    · cases h
    · obtain ⟨⟨u, d⟩, hdefrag, hout⟩ := Option.map_eq_some_iff.mp h
      obtain ⟨rfl, hcall⟩ := Prod.mk.inj hout
      cases d with
      | none => cases hcall
      | some d => exact ⟨l, d, rfl, hdefrag, hcall⟩
    · cases h
    · cases h

/-- Exactly when a handler is told to own bytes that were received. -/
theorem handler_range_received_iff {c : Config} {s t : State} {f : Frame} {call : Call}
    (small : s.totalLen < 65536) (h : netReceive c s f = some (t, .udp call)) :
    ∃ l, linkHeader c f = some l ∧ (Contained f t call ↔ HonestLength s f l.size) := by
  obtain ⟨l, d, hlink, hdefrag, hcall⟩ := netReceive_udp h
  refine ⟨l, hlink, ?_⟩
  obtain rfl := dispatch_udp hcall
  unfold defragment at hdefrag
  split_ifs at hdefrag with hwhole hoption
  · obtain ⟨⟨u, r⟩, hcalled, hmapped⟩ := Option.map_eq_some_iff.mp hdefrag
    obtain ⟨rfl, hpacket⟩ := Prod.mk.inj hmapped
    obtain ⟨lenp, rfl, rfl⟩ := Option.map_eq_some_iff.mp hpacket
    obtain ⟨hlenp, htotal⟩ := netDefragment_lenp small hcalled
    rw [Contained, HonestLength, if_pos hwhole]
    have hrange := range_within (be16_lt u.payload 4)
      (show u.totalLen + 20 < 2 ^ 31 by omega) 0
    rw [Nat.zero_add] at hrange
    constructor
    · intro hin v lenp' hv
      obtain ⟨rfl, rfl⟩ : u = v ∧ lenp = lenp' := by simpa using hcalled.symm.trans hv
      rw [hlenp]
      exact hrange.mp hin
    · intro honest
      have hhonest := honest u lenp hcalled
      rw [hlenp] at hhonest
      exact hrange.mpr hhonest
  · simp at hdefrag
  · obtain ⟨rfl, rfl⟩ : s = t ∧ (⟨.frame, l.size, packetAt f.inpkt l.size⟩ : Datagram) = d := by
      simpa using hdefrag
    rw [Contained, HonestLength, if_neg hwhole]
    exact range_within (be16_lt _ _) f.small l.size

def board : Config := ⟨false, false, 0xc0a80013, 0xffff, 0xffff⟩

/-- The headers of an IP packet of `size` bytes to the board, `sum` the low byte of its checksum,
with the UDP length field `udp`. -/
def headers (size sum : UInt8) (udp : Nat) : List UInt8 :=
  [0, 0, 0, 0, 0, 0, 0, 0, 0, 0, 0, 0, 8, 0, 0x45, 0, 0, size, 0, 1, 0, 0, 64, 17, 0xb0, sum,
    10, 0, 0, 1, 192, 168, 0, 19, 0, 69, 4, 0, UInt8.ofNat (udp / 256), UInt8.ofNat udp, 0, 0]

def threeBytes : Frame := ⟨ofBytes (headers 31 0x11 11 ++ [1, 2, 3]), 45, by decide⟩

theorem handler_range_received_three : ∃ l, linkHeader board threeBytes = some l ∧
    (Contained threeBytes HoleList.powerOn ⟨.frame, 42, 1024, 69, 3⟩ ↔
      HonestLength HoleList.powerOn threeBytes l.size) :=
  handler_range_received_iff (c := board) (t := HoleList.powerOn) (by decide) (by rfl)

/-- 42 bytes from the wire, with nothing behind the UDP header. -/
def emptyDatagram (udp : Nat) : Frame := ⟨ofBytes (headers 28 0x14 udp), 42, by decide⟩

/-- The handler is told to own 65527 bytes of a frame of 42. -/
theorem long_udp_length_passed_on :
    netReceive board HoleList.powerOn (emptyDatagram 0xffff) =
        some (HoleList.powerOn, .udp ⟨.frame, 42, 1024, 69, 65527⟩) ∧
      ¬ Contained (emptyDatagram 0xffff) HoleList.powerOn ⟨.frame, 42, 1024, 69, 65527⟩ :=
  ⟨rfl, by decide⟩

end NetReceive
