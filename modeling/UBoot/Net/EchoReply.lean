import UBoot.Lib.ByteOrder
import UBoot.Lib.Checksums
import UBoot.Net.NetReceive

/-!
# Answers to an ICMP echo request (net/net.c)

`NetReceive` turns the request into its reply where it lies, and sends the frame it was received
in. `NetCksum` takes whole words, so that an odd last byte of the message is not in the checksum.
-/

namespace EchoReply

open ByteMemory Defrag NetReceive OnesComplement

def icmpEchoReply : UInt8 := 0
def icmpEchoRequest : UInt8 := 8

def ipHdrSizeNoUdp : Nat := 20

structure Sent where
  mem : Mem
  len : Nat

/-- The frame goes back to the address it came from. -/
def addressed (ether m : Mem) : Mem :=
  let m := blit m 0 (slice m 6 6)
  blit m 6 (slice ether 0 6)

/-- The IP header without its checksum and fragment offset, with the addresses exchanged. -/
def clearedHeader (c : Config) (m : Mem) (ip : Nat) : Mem :=
  let m := blit m (ip + 10) [0, 0]
  let m := blit m (ip + 6) [0, 0]
  let m := blit m (ip + 16) (slice m (ip + 12) 4)
  blit m (ip + 12) (BigEndian.bytes (UInt32.ofNat c.netOurIP))

/-- A checksum of `n` words from `a` on, stored at `field`. -/
def storeCksum (m : Mem) (field a n : Nat) : Mem :=
  blit m field (leBytes 2 (0xffff - netCksum m a n))

/-- The ICMP message as a reply, before its checksum is stored. -/
def clearedMessage (m : Mem) (icmph : Nat) : Mem :=
  let m := store m icmph icmpEchoReply
  blit m (icmph + 2) [0, 0]

/-- The request, turned into its reply where it lies. In the source the length of the message is
unsigned and wraps for an `ip_len` below 20; here such a message has no words. -/
def reply (c : Config) (ether m : Mem) (ip len : Nat) : Mem :=
  let m := clearedHeader c (addressed ether m) ip
  let m := storeCksum m (ip + 10) ip (ipHdrSizeNoUdp / 2)
  let icmph := ip + ipHdrSizeNoUdp
  let m := clearedMessage m icmph
  storeCksum m (icmph + 2) icmph ((len - ipHdrSizeNoUdp) / 2)

/-- The IP packet behind the link header, and `len`; a reassembled one lies in `pkt_buff`. -/
def answer (c : Config) (ether : Mem) (s : State) (f : Frame) (size : Nat) : Option Sent :=
  let p := packetAt f.inpkt size
  if isFragment p then
    if c.ipDefrag = false then none
    else match netDefragment s p with
      | some (t, some len) =>
        if t.localip.ipP = ipprotoIcmp ∧ t.payload 0 = icmpEchoRequest then
          some ⟨addressed ether f.inpkt, etherHdrSize + len⟩
        else none
      | _ => none
  else if p.header.ipP = ipprotoIcmp ∧ p.data 0 = icmpEchoRequest then
    some ⟨reply c ether f.inpkt size p.header.ipLen, etherHdrSize + p.header.ipLen⟩
  else none

/-- What `NetReceive` sends for a frame with an echo request. -/
def echoAnswer (c : Config) (ether : Mem) (s : State) (f : Frame) : Option Sent :=
  match linkHeader c f with
  | none => none
  | some h =>
    if ¬ vlanMatches c h then none
    else if h.x ≠ protIp then none
    else if ¬ ipAccepted c f h.size then none
    else answer c ether s f h.size

def message (m : Mem) (ip : Nat) : List UInt8 :=
  slice m (ip + ipHdrSizeNoUdp) ((packetAt m ip).header.ipLen - ipHdrSizeNoUdp)

/-- A receiver takes the reply: it is in the frame as a whole, and both checksums are right. -/
structure Accepted (r : Sent) (ip : Nat) : Prop where
  header : netCksumOk r.mem ip (ipHdrSizeNoUdp / 2) = true
  unfragmented : isFragment (packetAt r.mem ip) = false
  whole : ip + (packetAt r.mem ip).header.ipLen ≤ r.len
  message : Verifies (message r.mem ip)

variable {m : Mem} {a n : Nat}

def wordSum (m : Mem) (a n : Nat) : Nat :=
  ((List.range n).map (fun i => leValue (slice m (a + 2 * i) 2))).sum

lemma wordSum_succ (m : Mem) (a n : Nat) :
    wordSum m a (n + 1) = wordSum m a n + leValue (slice m (a + 2 * n) 2) := by
  simp [wordSum, List.range_succ]

lemma word_lt (m : Mem) (a : Nat) : leValue (slice m a 2) < 65536 := by
  have low := (m a).toNat_lt
  have high := (m (a + 1)).toNat_lt
  simp only [slice, leValue]
  omega

lemma wordSum_le (m : Mem) (a n : Nat) : wordSum m a n ≤ 65535 * n := by
  induction n with
  | zero => exact Nat.le_refl 0
  | succ n ih =>
    have small := word_lt m (a + 2 * n)
    rw [wordSum_succ]
    omega

lemma wordSum_eq (m : Mem) (a n : Nat) : wordSum m a n = (wordsLe (slice m a (2 * n))).sum := by
  induction n with
  | zero => rfl
  | succ n ih =>
    have even : (slice m a (2 * n)).length % 2 = 0 := by
      rw [slice_length]
      omega
    rw [wordSum_succ, ih, show 2 * (n + 1) = 2 * n + 2 by omega, slice_append,
      wordsLe_append _ _ even, List.sum_append]
    simp [slice, wordsLe, leValue]

lemma netCksum_spec (few : n ≤ 65536) :
    netCksum m a n < 65536 ∧ netCksum m a n % 65535 = wordSum m a n % 65535 ∧
      (netCksum m a n = 0 ↔ wordSum m a n = 0) := by
  have bound := wordSum_le m a n
  have low := carry_carry_lt (n := wordSum m a n) (by omega)
  have value : netCksum m a n = carry (carry (wordSum m a n)) := Nat.mod_eq_of_lt low
  have first := carry_mod (wordSum m a n)
  have second := carry_mod (carry (wordSum m a n))
  rw [value, carry_eq_zero, carry_eq_zero]
  exact ⟨low, by omega, Iff.rfl⟩

lemma wordSum_congr {m' : Mem} (same : ∀ i, a ≤ i → i < a + 2 * n → m' i = m i) :
    wordSum m' a n = wordSum m a n := by
  rw [wordSum_eq, wordSum_eq, slice_congr same]

lemma wordSum_stored {j : Nat} (zero : m (a + 2 * j) = 0 ∧ m (a + 2 * j + 1) = 0) {v : Nat}
    (small : v < 65536) (n : Nat) :
    wordSum (blit m (a + 2 * j) (leBytes 2 v)) a n = wordSum m a n + if j < n then v else 0 := by
  induction n with
  | zero => rfl
  | succ n ih =>
    rw [wordSum_succ, wordSum_succ, ih]
    by_cases here : n = j
    · subst here
      have empty : leValue (slice m (a + 2 * n) 2) = 0 := by
        simp [slice, leValue, zero.1, zero.2]
      rw [field_same m _ small, empty, if_neg (lt_irrefl n), if_pos (Nat.lt_succ_self n)]
    · rw [field_other m v (by omega)]
      split_ifs
      · omega
      · omega
      · omega
      · omega

lemma storeCksum_sum {j : Nat} (zero : m (a + 2 * j) = 0 ∧ m (a + 2 * j + 1) = 0) (inside : j < n)
    (few : n ≤ 65536) :
    wordSum (storeCksum m (a + 2 * j) a n) a n % 65535 = 0 ∧
      wordSum (storeCksum m (a + 2 * j) a n) a n ≠ 0 := by
  obtain ⟨low, value, none_⟩ := netCksum_spec (m := m) (a := a) few
  rw [storeCksum, wordSum_stored zero (by omega) n, if_pos inside]
  omega

lemma netCksumOk_of_sum (few : n ≤ 65536) (ones : wordSum m a n % 65535 = 0 ∧ wordSum m a n ≠ 0) :
    netCksumOk m a n = true := by
  obtain ⟨low, value, none_⟩ := netCksum_spec (m := m) (a := a) few
  have all : netCksum m a n = 65535 := by omega
  rw [netCksumOk, all]
  rfl

lemma verifies_words {len : Nat}
    (ones : wordSum m a (len / 2) % 65535 = 0 ∧ wordSum m a (len / 2) ≠ 0) :
    Verifies (slice m a len) ↔ (len % 2 = 1 → m (a + len - 1) = 0) := by
  obtain ⟨k, even | odd⟩ : ∃ k, len = 2 * k ∨ len = 2 * k + 1 := ⟨len / 2, by omega⟩
  · subst even
    rw [show 2 * k / 2 = k by omega] at ones
    rw [verifies_iff, ← wordSum_eq]
    exact ⟨fun _ odd => absurd odd (by omega), fun _ => ones⟩
  subst odd
  have halves : (slice m a (2 * k)).length % 2 = 0 := by
    rw [slice_length]
    omega
  have byte := (m (a + 2 * k)).toNat_lt
  rw [show (2 * k + 1) / 2 = k by omega] at ones
  rw [verifies_iff, slice_append, wordsLe_append _ _ halves, List.sum_append, ← wordSum_eq,
    show a + (2 * k + 1) - 1 = a + 2 * k by omega]
  simp only [slice, wordsLe, List.sum_cons, List.sum_nil, add_zero]
  constructor
  · rintro ⟨multiple, -⟩ -
    exact UInt8.toNat_inj.mp (show (m (a + 2 * k)).toNat = 0 by omega)
  · intro padded
    rw [padded (by omega)]
    exact ones

section Rewritten

variable {c : Config} {ether m : Mem} {ip len : Nat}

variable {i : Nat}

lemma storeCksum_other {field : Nat} (apart : i < field ∨ field + 2 ≤ i) :
    storeCksum m field a n i = m i := by
  apply blit_outside
  rw [leBytes_length]
  exact apart

lemma addressed_other (behind : 12 ≤ i) : addressed ether m i = m i := by
  unfold addressed
  rw [blit_after _ _ (by rw [slice_length]; omega), blit_after _ _ (by rw [slice_length]; omega)]

lemma pair_other (apart : i < a ∨ a + 2 ≤ i) : blit m a [0, 0] i = m i :=
  blit_outside m _ apart

lemma pair_zero (m : Mem) (a : Nat) : blit m a [0, 0] a = 0 ∧ blit m a [0, 0] (a + 1) = 0 :=
  ⟨blit_inside m (a := a) (j := 0) [0, 0] (Nat.succ_pos 1),
    blit_inside m (a := a) (j := 1) [0, 0] (Nat.lt_succ_self 1)⟩

lemma clearedHeader_front (front : i < ip + 12) :
    clearedHeader c m ip i = blit (blit m (ip + 10) [0, 0]) (ip + 6) [0, 0] i := by
  unfold clearedHeader
  rw [blit_before _ _ front, blit_before _ _ (by omega)]

lemma clearedHeader_behind (behind : ip + 20 ≤ i) : clearedHeader c m ip i = m i := by
  unfold clearedHeader
  rw [blit_after _ _ (by rw [BigEndian.bytes_length]; omega),
    blit_after _ _ (by rw [slice_length]; omega), pair_other (by omega), pair_other (by omega)]

lemma clearedHeader_fields (c : Config) (m : Mem) (ip : Nat) :
    (∀ i, i < ip + 6 → clearedHeader c m ip i = m i) ∧
    (clearedHeader c m ip (ip + 6) = 0 ∧ clearedHeader c m ip (ip + 7) = 0) ∧
    (clearedHeader c m ip (ip + 10) = 0 ∧ clearedHeader c m ip (ip + 11) = 0) := by
  refine ⟨fun i low => ?_, ⟨?_, ?_⟩, ?_, ?_⟩
  · rw [clearedHeader_front (by omega), pair_other (by omega), pair_other (by omega)]
  · rw [clearedHeader_front (by omega)]
    exact (pair_zero _ _).1
  · rw [clearedHeader_front (by omega)]
    exact (pair_zero _ _).2
  · rw [clearedHeader_front (by omega), pair_other (by omega)]
    exact (pair_zero _ _).1
  · rw [clearedHeader_front (by omega), pair_other (by omega)]
    exact (pair_zero _ _).2

lemma clearedMessage_other (apart : i < ip ∨ ip + 4 ≤ i) :
    clearedMessage m ip i = m i := by
  unfold clearedMessage
  rw [pair_other (by omega), store_other _ _ (by omega)]

lemma clearedMessage_zero (m : Mem) (ip : Nat) :
    clearedMessage m ip (ip + 2) = 0 ∧ clearedMessage m ip (ip + 3) = 0 :=
  pair_zero _ _

lemma reply_header (front : i < ip + 20) : reply c ether m ip len i =
    storeCksum (clearedHeader c (addressed ether m) ip) (ip + 10) ip (ipHdrSizeNoUdp / 2) i := by
  have size : ipHdrSizeNoUdp = 20 := rfl
  unfold reply
  rw [storeCksum_other (by omega), clearedMessage_other (by omega)]

lemma reply_cksumOk : netCksumOk (reply c ether m ip len) ip (ipHdrSizeNoUdp / 2) = true := by
  have size : ipHdrSizeNoUdp / 2 = 10 := rfl
  have zero := (clearedHeader_fields c (addressed ether m) ip).2.2
  have sum := storeCksum_sum (a := ip) (j := 5) (n := ipHdrSizeNoUdp / 2) zero (by decide)
    (by decide)
  have same : ∀ i, ip ≤ i → i < ip + 2 * (ipHdrSizeNoUdp / 2) → reply c ether m ip len i =
      storeCksum (clearedHeader c (addressed ether m) ip) (ip + 2 * 5) ip
        (ipHdrSizeNoUdp / 2) i := by
    intro i _ low
    exact reply_header (by omega)
  refine netCksumOk_of_sum (by decide) ?_
  rw [wordSum_congr same]
  exact sum

lemma reply_packet (c : Config) (ether m : Mem) (len : Nat) (behind : 12 ≤ ip) :
    isFragment (packetAt (reply c ether m ip len) ip) = false ∧
      (packetAt (reply c ether m ip len) ip).header.ipLen = (packetAt m ip).header.ipLen := by
  obtain ⟨front, flags, -⟩ := clearedHeader_fields c (addressed ether m) ip
  have kept {i : Nat} (low : i < ip + 6) (high : ip ≤ i) : reply c ether m ip len i = m i := by
    rw [reply_header (by omega), storeCksum_other (by omega), front i low,
      addressed_other (by omega)]
  have cleared : be16 (reply c ether m ip len) (ip + 6) = 0 := by
    rw [be16, reply_header (by omega), reply_header (by omega), storeCksum_other (by omega),
      storeCksum_other (by omega), flags.1, flags.2]
    rfl
  constructor
  · simp [isFragment, offset8, moreFragments, packetAt, cleared]
  · simp only [packetAt, be16]
    rw [kept (by omega) (by omega), kept (by omega) (by omega)]

lemma reply_message (c : Config) (ether m : Mem) (behind : 12 ≤ ip) (long : 24 ≤ len)
    (small : len < 65536) :
    Verifies (slice (reply c ether m ip len) (ip + ipHdrSizeNoUdp) (len - ipHdrSizeNoUdp)) ↔
      (len % 2 = 1 → m (ip + len - 1) = 0) := by
  have size : ipHdrSizeNoUdp = 20 := rfl
  have zero := clearedMessage_zero (storeCksum (clearedHeader c (addressed ether m) ip) (ip + 10) ip
    (ipHdrSizeNoUdp / 2)) (ip + ipHdrSizeNoUdp)
  have sum := storeCksum_sum (j := 1) (n := (len - ipHdrSizeNoUdp) / 2) zero (by omega) (by omega)
  have last (odd : len % 2 = 1) :
      reply c ether m ip len (ip + ipHdrSizeNoUdp + (len - ipHdrSizeNoUdp) - 1) =
        m (ip + len - 1) := by
    rw [show ip + ipHdrSizeNoUdp + (len - ipHdrSizeNoUdp) - 1 = ip + len - 1 by omega, reply,
      storeCksum_other (by omega), clearedMessage_other (by omega), storeCksum_other (by omega),
      clearedHeader_behind (by omega), addressed_other (by omega)]
  have parity : (len - ipHdrSizeNoUdp) % 2 = len % 2 := by omega
  refine (verifies_words (m := reply c ether m ip len) sum).trans ?_
  rw [parity]
  exact imp_congr_right (fun odd => by rw [last odd])

lemma reply_code (c : Config) (ether m : Mem) (len : Nat) (behind : 12 ≤ ip) :
    reply c ether m ip len (ip + ipHdrSizeNoUdp) = 0 ∧
      reply c ether m ip len (ip + ipHdrSizeNoUdp + 1) = m (ip + ipHdrSizeNoUdp + 1) := by
  have size : ipHdrSizeNoUdp = 20 := rfl
  constructor
  · rw [reply, storeCksum_other (by omega), clearedMessage, pair_other (by omega), store_same]
    rfl
  · rw [reply, storeCksum_other (by omega), clearedMessage, pair_other (by omega),
      store_other _ _ (by omega), storeCksum_other (by omega), clearedHeader_behind (by omega),
      addressed_other (by omega)]

lemma clearedMessage_checksum (m : Mem) (a : Nat) :
    storeCksum (clearedMessage m a) (a + 2) a 1 (a + 2) = 255 := by
  have small : 1 ≤ 65536 := by decide
  obtain ⟨low, value, none_⟩ := netCksum_spec (m := clearedMessage m a) (a := a) small
  have zero : clearedMessage m a a = 0 := by
    rw [clearedMessage, pair_other (by omega), store_same]
    rfl
  have code := (clearedMessage m a (a + 1)).toNat_lt
  have one : wordSum (clearedMessage m a) a 1 = 256 * (clearedMessage m a (a + 1)).toNat := by
    simp [wordSum, slice, leValue, zero]
  rw [storeCksum, ← Nat.add_zero (a + 2), blit_inside _ _ (by rw [leBytes_length]; decide)]
  apply UInt8.toNat_inj.mp
  change (UInt8.ofNat (0xffff - netCksum (clearedMessage m a) a 1)).toNat = 255
  have same : netCksum (clearedMessage m a) a 1 = 256 * (clearedMessage m a (a + 1)).toNat := by
    omega
  rw [UInt8.toNat_ofNat', same]
  omega

lemma reply_cut (c : Config) (ether m : Mem) (behind : 12 ≤ ip) (short : len < 24) :
    Verifies (slice (reply c ether m ip len) (ip + ipHdrSizeNoUdp) (len - ipHdrSizeNoUdp)) ↔
      len = 23 ∧ m (ip + ipHdrSizeNoUdp + 1) = 255 := by
  have size : ipHdrSizeNoUdp = 20 := rfl
  obtain ⟨zero, code⟩ := reply_code c ether m len behind
  have byte := (m (ip + ipHdrSizeNoUdp + 1)).toNat_lt
  have value : m (ip + ipHdrSizeNoUdp + 1) = 255 ↔ (m (ip + ipHdrSizeNoUdp + 1)).toNat = 255 :=
    UInt8.toNat_inj.symm
  rw [verifies_iff, value]
  obtain none_ | rfl | rfl | rfl : len ≤ 20 ∨ len = 21 ∨ len = 22 ∨ len = 23 := by omega
  · rw [show len - ipHdrSizeNoUdp = 0 by omega]
    simp only [slice, wordsLe, List.sum_nil]
    omega
  · rw [show 21 - ipHdrSizeNoUdp = 1 by omega]
    simp only [slice, wordsLe, zero, List.sum_cons, List.sum_nil]
    simp
  · rw [show 22 - ipHdrSizeNoUdp = 2 by omega]
    simp only [slice, wordsLe, zero, code, List.sum_cons, List.sum_nil, UInt8.toNat_zero]
    omega
  · have sum : reply c ether m ip 23 (ip + ipHdrSizeNoUdp + 1 + 1) = 255 :=
      clearedMessage_checksum _ _
    rw [show 23 - ipHdrSizeNoUdp = 3 by omega]
    simp only [slice, wordsLe, zero, code, sum, List.sum_cons, List.sum_nil, UInt8.toNat_zero]
    rw [show (255 : UInt8).toNat = 255 by rfl, true_and]
    omega

end Rewritten

variable {c : Config} {ether : Mem} {s : State} {f : Frame}

lemma linkHeader_size {h : LinkHeader} (link : linkHeader c f = some h) :
    etherHdrSize ≤ h.size := by
  unfold linkHeader at link
  split_ifs at link
  · exact Option.some.inj link ▸ (by decide : etherHdrSize ≤ e802HdrSize)
  · exact Option.some.inj link ▸ Nat.le_refl etherHdrSize
  · exact Option.some.inj link ▸ (by decide : etherHdrSize ≤ vlanEtherHdrSize)

lemma echoAnswer_passed {h : LinkHeader} {r : Sent} (link : linkHeader c f = some h)
    (answered : echoAnswer c ether s f = some r) :
    vlanMatches c h = true ∧ h.x = protIp ∧ ipAccepted c f h.size = true ∧
      answer c ether s f h.size = some r := by
  rw [echoAnswer, link] at answered
  dsimp only at answered
  split_ifs at answered with vlan ip accepted
  exact ⟨vlan, not_not.mp ip, accepted, answered⟩

lemma addressed_packet {ip : Nat} (behind : 12 ≤ ip) :
    isFragment (packetAt (addressed ether f.inpkt) ip) = isFragment (packetAt f.inpkt ip) := by
  have same : be16 (addressed ether f.inpkt) (ip + 6) = be16 f.inpkt (ip + 6) := by
    rw [be16, be16, addressed_other (by omega), addressed_other (by omega)]
  simp only [isFragment, offset8, moreFragments, packetAt, same]
  exact decide_eq_decide.mpr Iff.rfl

lemma answer_fragment {size : Nat} {r : Sent}
    (fragment : isFragment (packetAt f.inpkt size) = true)
    (answered : answer c ether s f size = some r) : r.mem = addressed ether f.inpkt := by
  rw [answer] at answered
  rw [if_pos fragment] at answered
  split_ifs at answered
  split at answered
  · split_ifs at answered
    rw [← Option.some.inj answered]
  · cases answered

lemma answer_whole {size : Nat} {r : Sent}
    (whole : isFragment (packetAt f.inpkt size) = false)
    (answered : answer c ether s f size = some r) :
    r = ⟨reply c ether f.inpkt size (packetAt f.inpkt size).header.ipLen,
      etherHdrSize + (packetAt f.inpkt size).header.ipLen⟩ := by
  rw [answer] at answered
  rw [whole, if_neg Bool.false_ne_true] at answered
  split_ifs at answered
  exact (Option.some.inj answered).symm

/-- `NetCksum` takes the message of the request as a whole: it is even, or its last byte is zero.
Of one that is cut off before the end of its checksum that holds for three bytes of code 255. -/
def Summed (m : Mem) (ip len : Nat) : Prop :=
  24 ≤ len ∧ (len % 2 = 1 → m (ip + len - 1) = 0) ∨
    len = 23 ∧ m (ip + ipHdrSizeNoUdp + 1) = 255

lemma reply_verifies (c : Config) (ether m : Mem) {ip len : Nat} (behind : 12 ≤ ip)
    (small : len < 65536) :
    Verifies (slice (reply c ether m ip len) (ip + ipHdrSizeNoUdp) (len - ipHdrSizeNoUdp)) ↔
      Summed m ip len := by
  by_cases long : 24 ≤ len
  · rw [reply_message c ether m behind long small]
    constructor
    · exact fun padded => .inl ⟨long, padded⟩
    · rintro (⟨-, padded⟩ | ⟨short, -⟩)
      · exact padded
      · omega
  · rw [reply_cut c ether m behind (by omega)]
    constructor
    · exact Or.inr
    · rintro (⟨other, -⟩ | cut)
      · omega
      · exact cut

/-- The reply is taken exactly if the request came in one piece, behind an Ethernet header of 14
bytes, and no odd last byte of it is left out. -/
theorem reply_accepted_iff {h : LinkHeader} {r : Sent} (link : linkHeader c f = some h)
    (answered : echoAnswer c ether s f = some r) :
    Accepted r h.size ↔ isFragment (packetAt f.inpkt h.size) = false ∧ h.size = etherHdrSize ∧
      Summed f.inpkt h.size (packetAt f.inpkt h.size).header.ipLen := by
  have ether_ : etherHdrSize = 14 := rfl
  have size := linkHeader_size link
  obtain ⟨-, -, -, answered⟩ := echoAnswer_passed link answered
  cases whole : isFragment (packetAt f.inpkt h.size) with
  | true =>
    have sent := answer_fragment whole answered
    constructor
    · intro accepted
      have unfragmented := accepted.unfragmented
      rw [sent, addressed_packet (by omega), whole] at unfragmented
      cases unfragmented
    · rintro ⟨other, -⟩
      cases other
  | false =>
    obtain rfl := answer_whole whole answered
    obtain ⟨unfragmented, length⟩ := reply_packet c ether f.inpkt
      (packetAt f.inpkt h.size).header.ipLen (show 12 ≤ h.size by omega)
    have right := reply_verifies c ether f.inpkt (show 12 ≤ h.size by omega)
      (be16_lt f.inpkt (h.size + 2))
    constructor
    · rintro ⟨-, -, inside, message_⟩
      rw [length] at inside
      rw [message, length] at message_
      dsimp only at inside
      exact ⟨rfl, by omega, right.mp message_⟩
    · rintro ⟨-, same, summed⟩
      refine ⟨reply_cksumOk, unfragmented, ?_, ?_⟩
      · rw [length]
        dsimp only
        omega
      · rw [message, length]
        exact right.mpr summed

/-- A request to the board with so long a packet, the low byte of its header checksum, and a last
byte of its message. -/
def request (len sum last : UInt8) : Frame :=
  ⟨ofBytes [2, 0, 0, 0, 0, 19, 2, 0, 0, 0, 0, 1, 8, 0, 0x45, 0, 0, len, 0, 1, 0, 0, 64, 1, 0xb0,
    sum, 10, 0, 0, 1, 192, 168, 0, 19, 8, 0, 0, 0, 0, 1, 0, 1, last], 43, by decide⟩

def requestReply (len sum last : UInt8) : Sent :=
  ⟨reply board (fun _ => 2) (request len sum last).inpkt etherHdrSize len.toNat,
    etherHdrSize + len.toNat⟩

theorem reply_accepted_even :
    echoAnswer board (fun _ => 2) HoleList.powerOn (request 28 0x24 0) =
      some (requestReply 28 0x24 0) ∧ Accepted (requestReply 28 0x24 0) 14 := by
  have link : linkHeader board (request 28 0x24 0) =
      some ⟨protIp, etherHdrSize, vlanNone⟩ := by rfl
  have answered : echoAnswer board (fun _ => 2) HoleList.powerOn (request 28 0x24 0) =
      some (requestReply 28 0x24 0) := by rfl
  refine ⟨answered, (reply_accepted_iff link answered).mpr
    ⟨by decide, rfl, Or.inl ⟨by decide, ?_⟩⟩⟩
  intro odd
  exact absurd odd (by decide)

/-- The last byte of a message of nine is not in its checksum. -/
theorem odd_reply_refused :
    echoAnswer board (fun _ => 2) HoleList.powerOn (request 29 0x23 97) =
      some (requestReply 29 0x23 97) ∧ ¬ Accepted (requestReply 29 0x23 97) 14 := by
  refine ⟨rfl, fun accepted => ?_⟩
  have length : (packetAt (requestReply 29 0x23 97).mem 14).header.ipLen = 29 := by decide
  have right := accepted.message
  rw [message, length] at right
  have padded := (reply_message board _ _ (by decide) (by decide) (by decide)).mp right (by decide)
  exact absurd padded (by decide)

end EchoReply
