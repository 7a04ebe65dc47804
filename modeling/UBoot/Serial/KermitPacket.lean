import UBoot.Serial.Kermit

/-!
# What an intact packet does to the receiver

The receiver takes the header, then the data one by one, then the check; the data of a D
packet are in memory before the check is read.
-/

namespace Kermit

open Memory32

variable {start : UInt32} {bytes : List UInt8}

/-- Where the next byte goes after `d` has been stored from `start` on. -/
def pointOf (start : UInt32) (d : Decoded) : Point := ⟨start + UInt32.ofNat d.1.length, d.2⟩

/-- The memory from `start` on begins with these bytes. -/
def Holds (mem : Mem) (start : UInt32) (bytes : List UInt8) : Prop :=
  ∀ k b, bytes[k]? = some b → mem (start + UInt32.ofNat k) = b

lemma Holds.of_isPrefix {mem : Mem} {more : List UInt8} (holds : Holds mem start more)
    (h : bytes <+: more) : Holds mem start bytes := by
  obtain ⟨tail, rfl⟩ := h
  intro k b at_k
  obtain ⟨bound, -⟩ := List.getElem?_eq_some_iff.mp at_k
  exact holds k b (by rw [List.getElem?_append_left bound]; exact at_k)

lemma Holds.write_past {mem : Mem} {k : Nat} (c : UInt8) (holds : Holds mem start bytes)
    (past : bytes.length ≤ k) (room : k < 4294967296) :
    Holds (store mem (start + UInt32.ofNat k) c) start bytes := by
  intro j b at_j
  obtain ⟨bound, -⟩ := List.getElem?_eq_some_iff.mp at_j
  have apart : start + UInt32.ofNat j ≠ start + UInt32.ofNat k := by
    intro same
    have := offset_injective (by omega) room same
    omega
  simp only [store, apart, if_false]
  exact holds j b at_j

lemma Holds.write_next {mem : Mem} (c : UInt8) (holds : Holds mem start bytes)
    (room : bytes.length < 4294967296) :
    Holds (store mem (start + UInt32.ofNat bytes.length) c) start (bytes ++ [c]) := by
  intro j b at_j
  rcases Nat.lt_or_ge j bytes.length with inside | outside
  · rw [List.getElem?_append_left inside] at at_j
    exact holds.write_past c (Nat.le_refl _) room j b at_j
  rw [List.getElem?_append_right outside] at at_j
  obtain ⟨low, same⟩ := List.getElem?_eq_some_iff.mp at_j
  simp only [List.length_singleton] at low
  obtain rfl : j = bytes.length := by omega
  simpa [store] using same

lemma tochar_printable {x : UInt8} (small : x < 95) : ¬ Control (tochar x) := by
  revert small
  exact forall_byte (P := fun x => x < 95 → ¬ Control (tochar x)) (by decide +kernel) x

lemma untochar_tochar (x : UInt8) : untochar (tochar x) = x := by
  simp [untochar, tochar]

lemma ofNat_small {k : Nat} (small : k < 95) : UInt8.ofNat k < 95 := by
  have wide : k < 256 := by omega
  simpa [UInt8.lt_iff_toNat_lt, UInt8.toNat_ofNat', Nat.mod_eq_of_lt wide] using small

lemma type1_printable (sum : Nat) : ¬ Control (type1 sum) := by
  have low : (sum + sum / 64 % 4) % 64 < 95 := by omega
  exact tochar_printable (ofNat_small low)

lemma seqOf_small (i : Nat) : seqOf i < 95 := ofNat_small (by omega)

lemma seqOf_succ_ne (i : Nat) : seqOf i ≠ seqOf (i + 1) := by
  intro same
  have numbers := congrArg UInt8.toNat same
  simp only [seqOf, UInt8.toNat_ofNat'] at numbers
  omega

lemma toNat_ofNat_small {k : Nat} (small : k < 95) : (UInt8.ofNat k).toNat = k := by
  rw [UInt8.toNat_ofNat']
  exact Nat.mod_eq_of_lt (by omega)

variable {r : Recv} {data : List UInt8}

def Recv.takeChar (r : Recv) (c : UInt8) : Recv :=
  if r.kState = dataType then r.kDataChar c
  else if r.kState = sendType then r.sendChar c
  else r

lemma Recv.takeChar_frame (r : Recv) (c : UInt8) (pos : Pos) (length : Int) (sum : Nat) :
    ({ r with pos := pos, length := length, sum := sum } : Recv).takeChar c =
      { r.takeChar c with pos := pos, length := length, sum := sum } := by
  simp only [Recv.takeChar, Recv.kDataChar, Recv.dataChar, Recv.sendChar]
  split
  · split
    · rfl
    · split <;> rfl
  · split <;> rfl

lemma Recv.foldl_takeChar_frame (r : Recv) (cs : List UInt8) (pos : Pos) (length : Int)
    (sum : Nat) :
    cs.foldl Recv.takeChar { r with pos := pos, length := length, sum := sum } =
      { cs.foldl Recv.takeChar r with pos := pos, length := length, sum := sum } := by
  induction cs generalizing r with
  | nil => rfl
  | cons c cs ih => rw [List.foldl_cons, List.foldl_cons, Recv.takeChar_frame, ih]

def restPos (length : Int) : Pos := if 1 < length then .body else .check

lemma recvChar_body {c : UInt8} (pos : r.pos = .body) (printable : ¬ Control c) :
    recvChar r c = { r.takeChar c with
      pos := restPos (r.length - 1), length := r.length - 1, sum := r.sum + c.toNat } := by
  have taken : recvChar r c = (({ r with
      pos := r.pos, length := r.length - 1, sum := r.sum + c.toNat } : Recv).takeChar c).rest := by
    simp only [recvChar, pos, if_neg printable, Recv.packetChar, Recv.add, Recv.takeChar]
    split
    · rfl
    · split <;> rfl
  rw [taken, Recv.takeChar_frame]
  simp only [Recv.rest, restPos]

lemma feed_cons (r : Recv) (c : UInt8) (cs : List UInt8) :
    feed r (c :: cs) = feed (recvChar r c) cs := rfl

lemma feed_append (r : Recv) (cs ds : List UInt8) : feed r (cs ++ ds) = feed (feed r cs) ds := by
  simp only [feed, List.foldl_append]

lemma feed_body (pos : r.pos = restPos r.length) (length : r.length = data.length + 1)
    (printable : ∀ c ∈ data, ¬ Control c) :
    feed r data = { data.foldl Recv.takeChar r with
      pos := .check, length := 1, sum := r.sum + (data.map UInt8.toNat).sum } := by
  induction data generalizing r with
  | nil =>
    have one : r.length = 1 := by simpa using length
    have wait : r.pos = .check := by simpa [one, restPos] using pos
    obtain ⟨⟩ := r
    subst one wait
    rfl
  | cons c data ih =>
    simp only [List.length_cons] at length
    have more : 1 < r.length := by omega
    have wait : r.pos = .body := by simpa [more, restPos] using pos
    rw [feed_cons, recvChar_body wait (printable c List.mem_cons_self),
      ih rfl (by dsimp only; omega) (fun d hd => printable d (List.mem_cons_of_mem c hd)),
      Recv.foldl_takeChar_frame]
    simp only [List.foldl_cons, List.map_cons, List.sum_cons, add_assoc]

lemma foldl_takeChar_eq (r : Recv) (data : List UInt8) :
    ∃ mem cur parms, data.foldl Recv.takeChar r =
      { r with mem := mem, cur := cur, sendParms := parms } := by
  induction data generalizing r with
  | nil => exact ⟨r.mem, r.cur, r.sendParms, rfl⟩
  | cons c data ih =>
    have one : ∃ mem cur parms, r.takeChar c =
        { r with mem := mem, cur := cur, sendParms := parms } := by
      simp only [Recv.takeChar, Recv.kDataChar, Recv.dataChar, Recv.sendChar]
      split
      · split
        · exact ⟨_, _, r.sendParms, rfl⟩
        · split
          · exact ⟨r.mem, _, r.sendParms, rfl⟩
          · exact ⟨_, _, r.sendParms, rfl⟩
      · split
        · exact ⟨r.mem, r.cur, _, rfl⟩
        · exact ⟨r.mem, r.cur, r.sendParms, rfl⟩
    obtain ⟨mem, cur, parms, first⟩ := one
    obtain ⟨mem', cur', parms', others⟩ := ih (r.takeChar c)
    refine ⟨mem', cur', parms', ?_⟩
    rw [List.foldl_cons, others, first]

lemma foldl_takeChar_data (data : List UInt8) {d : Decoded} (type : r.kState = dataType)
    (cur : r.cur = pointOf start d) (holds : Holds r.mem start d.1)
    (room : (data.foldl (decodeChar r.hisQuote) d).1.length < 4294967296) :
    let r' := data.foldl Recv.takeChar r
    r'.cur = pointOf start (data.foldl (decodeChar r.hisQuote) d) ∧
      Holds r'.mem start (data.foldl (decodeChar r.hisQuote) d).1 := by
  induction data generalizing r d with
  | nil => exact ⟨cur, holds⟩
  | cons c data ih =>
    have grows : d.1.length ≤ (data.foldl (decodeChar r.hisQuote)
        (decodeChar r.hisQuote d c)).1.length :=
      Nat.le_trans (decodeChar_length _ _ _) (foldl_decodeChar_length _ _ _)
    simp only [List.foldl_cons] at room
    have fits : d.1.length < 4294967296 := by omega
    have first : (r.takeChar c).cur = pointOf start (decodeChar r.hisQuote d c) ∧
        Holds (r.takeChar c).mem start (decodeChar r.hisQuote d c).1 ∧
        (r.takeChar c).kState = dataType ∧ (r.takeChar c).hisQuote = r.hisQuote := by
      simp only [Recv.takeChar, type, if_true, Recv.kDataChar, Recv.dataChar, cur, pointOf,
        decodeChar]
      split
      · simp [holds.write_next _ fits, UInt32.add_assoc]
      · split
        · exact ⟨rfl, holds, rfl, rfl⟩
        · simp [holds.write_next _ fits, UInt32.add_assoc]
    obtain ⟨cur', holds', type', quote'⟩ := first
    have rest := ih type' cur' holds' (by rw [quote']; exact room)
    rw [quote'] at rest
    exact rest

lemma foldl_takeChar_send (type : r.kState = sendType)
    (short : r.sendParms.length ≤ sendDataSize - 1) :
    data.foldl Recv.takeChar r =
      { r with sendParms := (r.sendParms ++ data).take (sendDataSize - 1) } := by
  induction data generalizing r with
  | nil =>
    simp only [List.append_nil, List.foldl_nil, List.take_of_length_le short]
  | cons c data ih =>
    have first : r.takeChar c = r.sendChar c := by
      simp [Recv.takeChar, type, sendType, dataType]
    have short' : (r.sendChar c).sendParms.length ≤ sendDataSize - 1 := by
      simp only [Recv.sendChar, List.length_take]
      exact Nat.min_le_left _ _
    rw [List.foldl_cons, first, ih (r := r.sendChar c) type short']
    simp only [Recv.sendChar]
    congr 1
    rcases Nat.lt_or_ge r.sendParms.length (sendDataSize - 1) with room | full
    · have whole : (r.sendParms ++ [c]).take (sendDataSize - 1) = r.sendParms ++ [c] :=
        List.take_of_length_le (by simpa [Nat.succ_le_iff] using room)
      rw [whole, List.append_assoc, List.singleton_append]
    · have filled : r.sendParms.length = sendDataSize - 1 := Nat.le_antisymm short full
      rw [← filled]
      simp

lemma foldl_takeChar_other (no_data : r.kState ≠ dataType) (no_send : r.kState ≠ sendType) :
    data.foldl Recv.takeChar r = r := by
  induction data with
  | nil => rfl
  | cons c data ih =>
    have first : r.takeChar c = r := by simp [Recv.takeChar, no_data, no_send]
    rw [List.foldl_cons, first, ih]

section Chars

variable {r : Recv} {c : UInt8}

lemma recvChar_start (pos : r.pos = .start) :
    recvChar r startChar = { r with pos := .length, sum := 0, sendParms := [] } := by
  simp [recvChar, pos]

lemma recvChar_length (pos : r.pos = .length) (printable : ¬ Control c) :
    recvChar r c = { r with
      pos := .seq, sum := r.sum + c.toNat, length := (untochar c).toNat } := by
  simp [recvChar, pos, printable, Recv.packetChar, Recv.add]

lemma recvChar_seq (pos : r.pos = .seq) (printable : ¬ Control c) :
    recvChar r c = { r.checkpoint (untochar c) with
      pos := .type, sum := r.sum + c.toNat, length := r.length - 1, n := untochar c } := by
  simp only [recvChar, pos, if_neg printable, Recv.packetChar, Recv.add, Recv.checkpoint]
  split <;> rfl

lemma recvChar_type (pos : r.pos = .type) (printable : ¬ Control c) :
    recvChar r c = { r with
      pos := if r.length - 1 = -2 then .lenHi else restPos (r.length - 1)
      sum := r.sum + c.toNat, kState := c, length := r.length - 1 } := by
  simp only [recvChar, pos, if_neg printable, Recv.packetChar, Recv.add, Recv.rest, restPos]
  split <;> rfl

lemma recvChar_lenHi (pos : r.pos = .lenHi) (printable : ¬ Control c) :
    recvChar r c = { r with
      pos := .lenLo, sum := r.sum + c.toNat, lenHi := (untochar c).toNat } := by
  simp [recvChar, pos, printable, Recv.packetChar, Recv.add]

lemma recvChar_lenLo (pos : r.pos = .lenLo) (printable : ¬ Control c) :
    recvChar r c = { r with
      pos := .headerCheck, sum := r.sum + c.toNat,
      length := r.lenHi * 95 + (untochar c).toNat } := by
  simp [recvChar, pos, printable, Recv.packetChar, Recv.add]

lemma recvChar_headerCheck (pos : r.pos = .headerCheck) :
    recvChar r (type1 r.sum) = { r with
      pos := restPos r.length, sum := r.sum + (type1 r.sum).toNat } := by
  simp [recvChar, pos, type1_printable, Recv.packetChar, Recv.add, Recv.rest, restPos]

lemma recvChar_check (pos : r.pos = .check) :
    recvChar r (type1 r.sum) = { r with pos := .end_ } := by
  simp [recvChar, pos, type1_printable, Recv.packetChar]

end Chars

variable {seq : UInt8}

lemma body_printable {p : Packet} (fits : p.Fits) (small : seq < 95) :
    ∀ c ∈ p.body seq, ¬ Control c := by
  have number := tochar_printable small
  have size := fits.length
  intro c hc
  by_cases long : p.long
  · rw [if_pos long] at size
    have hi := tochar_printable (ofNat_small (k := (p.data.length + 1) / 95) (by omega))
    have lo := tochar_printable (ofNat_small (k := (p.data.length + 1) % 95) (by omega))
    simp only [Packet.body, long, if_true, List.mem_append, List.mem_cons, List.not_mem_nil,
      or_false] at hc
    rcases hc with (rfl | rfl | rfl | rfl | rfl) | rfl | data
    · exact tochar_printable (by decide)
    · exact number
    · exact fits.type
    · exact hi
    · exact lo
    · exact type1_printable _
    · exact fits.data c data
  · rw [if_neg long] at size
    have len := tochar_printable (ofNat_small (k := p.data.length + 3) (by omega))
    simp only [Packet.body, long, Bool.false_eq_true, if_false, List.mem_cons] at hc
    rcases hc with rfl | rfl | rfl | data
    · exact len
    · exact number
    · exact fits.type
    · exact fits.data c data

/-- The receiver when it waits for the data of packet `p` with number `seq`. -/
def Recv.atData (r : Recv) (p : Packet) (seq : UInt8) (sum lenHi : Nat) : Recv :=
  { r.checkpoint seq with
    pos := restPos (p.data.length + 1), length := p.data.length + 1, n := seq, kState := p.type,
    sum := sum, lenHi := lenHi, sendParms := [] }

lemma Recv.checkpoint_frame (r : Recv) (seq n : UInt8) (pos : Pos) (sum : Nat) (length : Int)
    (parms : List UInt8) :
    ({ r with pos := pos, sum := sum, length := length, n := n, sendParms := parms } :
      Recv).checkpoint seq = { r.checkpoint seq with
        pos := pos, sum := sum, length := length, n := n, sendParms := parms } := by
  simp only [Recv.checkpoint]
  split <;> rfl

lemma feed_first (size : Nat) {type : UInt8} (pos : r.pos = .start) (small : seq < 95)
    (fits : size < 95) (printable : ¬ Control type) :
    feed r [startChar, tochar (UInt8.ofNat size), tochar seq, type] =
      { r.checkpoint seq with
        pos := if (size : Int) - 1 - 1 = -2 then .lenHi else restPos ((size : Int) - 1 - 1)
        length := (size : Int) - 1 - 1, n := seq, kState := type, sendParms := []
        sum := (tochar (UInt8.ofNat size)).toNat + (tochar seq).toNat + type.toNat } := by
  rw [feed_cons, recvChar_start pos, feed_cons,
    recvChar_length rfl (tochar_printable (ofNat_small fits)), feed_cons,
    recvChar_seq rfl (tochar_printable small), feed_cons, recvChar_type rfl printable]
  simp only [untochar_tochar, toNat_ofNat_small fits, Recv.checkpoint_frame, zero_add]
  rfl

lemma feed_header {p : Packet} (pos : r.pos = .start) (fits : p.Fits) (small : seq < 95) :
    ∃ header lenHi, p.body seq = header ++ p.data ∧
      feed r (startChar :: header) = r.atData p seq (header.map UInt8.toNat).sum lenHi := by
  have size := fits.length
  by_cases long : p.long
  · rw [if_pos long] at size
    have hi : (p.data.length + 1) / 95 < 95 := by omega
    have lo : (p.data.length + 1) % 95 < 95 := by omega
    have lengths : (((p.data.length + 1) / 95 : Nat) : Int) * 95 +
        (((p.data.length + 1) % 95 : Nat) : Int) = p.data.length + 1 := by omega
    have first := feed_first 0 pos small (by omega) fits.type
    let header := [tochar (UInt8.ofNat 0), tochar seq, p.type,
      tochar (UInt8.ofNat ((p.data.length + 1) / 95)),
      tochar (UInt8.ofNat ((p.data.length + 1) % 95))]
    refine ⟨header ++ [type1 (header.map UInt8.toNat).sum], (p.data.length + 1) / 95,
      by simp [Packet.body, long, header], ?_⟩
    have chars : startChar :: (header ++ [type1 (header.map UInt8.toNat).sum]) =
        [startChar, tochar (UInt8.ofNat 0), tochar seq, p.type] ++
        [tochar (UInt8.ofNat ((p.data.length + 1) / 95)),
          tochar (UInt8.ofNat ((p.data.length + 1) % 95)),
          type1 (header.map UInt8.toNat).sum] := rfl
    rw [chars, feed_append, first, feed_cons, recvChar_lenHi rfl (tochar_printable (ofNat_small hi)),
      feed_cons, recvChar_lenLo rfl (tochar_printable (ofNat_small lo))]
    simp only [untochar_tochar, toNat_ofNat_small hi, toNat_ofNat_small lo, lengths]
    have total : (header.map UInt8.toNat).sum = (tochar (UInt8.ofNat 0)).toNat +
        (tochar seq).toNat + p.type.toNat +
        (tochar (UInt8.ofNat ((p.data.length + 1) / 95))).toNat +
        (tochar (UInt8.ofNat ((p.data.length + 1) % 95))).toNat := by
      simp [header, add_assoc]
    rw [List.map_append, List.sum_append, total, feed_cons, recvChar_headerCheck rfl]
    rfl
  · rw [if_neg long] at size
    refine ⟨[tochar (UInt8.ofNat (p.data.length + 3)), tochar seq, p.type],
      (r.checkpoint seq).lenHi, by simp [Packet.body, long], ?_⟩
    have left : ((p.data.length + 3 : Nat) : Int) - 1 - 1 = p.data.length + 1 := by omega
    have short : ¬ ((p.data.length : Int) + 1 = -2) := by omega
    have header := feed_first (p.data.length + 3) pos small (by omega) fits.type
    rw [left, if_neg short] at header
    rw [header, Recv.atData]
    simp [add_assoc]

lemma feed_packet {p : Packet} (pos : r.pos = .start) (fits : p.Fits) (small : seq < 95) :
    ∃ sum sum' lenHi, feed r (p.chars seq) =
      ({ p.data.foldl Recv.takeChar (r.atData p seq sum lenHi) with
        pos := .end_, length := 1, sum := sum' } : Recv).accept := by
  obtain ⟨header, lenHi, split, at_data⟩ := feed_header pos fits small
  refine ⟨(header.map UInt8.toNat).sum, ((header ++ p.data).map UInt8.toNat).sum, lenHi, ?_⟩
  have chars : p.chars seq = (startChar :: header) ++ p.data ++
      [type1 ((header ++ p.data).map UInt8.toNat).sum, endChar] := by
    simp [Packet.chars, split]
  have total : (r.atData p seq (header.map UInt8.toNat).sum lenHi).sum +
      (p.data.map UInt8.toNat).sum = ((header ++ p.data).map UInt8.toNat).sum := by
    simp [Recv.atData]
  rw [chars, feed_append, feed_append, at_data, feed_body rfl rfl fits.data, total, feed_cons,
    recvChar_check rfl]
  rfl

lemma handleSendPacket_quote (parms : r.sendParms = data.take (sendDataSize - 1)) :
    r.handleSendPacket.hisQuote = data[5]?.getD kEscape := by
  simp only [Recv.handleSendPacket, parms]
  split
  · rw [List.getElem?_take_of_lt (by decide), List.getElem?_take_of_lt (by decide)]
  · rw [List.getElem?_take_of_lt (by decide)]

lemma accept_replies (r : Recv) : ∃ parms, r.accept.replies = r.replies ++ [.ack r.n parms] := by
  simp only [Recv.accept, Recv.handleSendPacket]
  split
  · exact ⟨_, rfl⟩
  · exact ⟨_, rfl⟩

lemma recvChar_inside {c : UInt8} (inside : r.pos ≠ .start ∧ r.pos ≠ .end_) :
    recvChar r c = r.packetError ∨ (recvChar r c).replies = r.replies := by
  by_cases control : Control c
  · cases pos : r.pos <;> simp_all [recvChar]
  cases pos : r.pos with
  | start => exact absurd pos inside.1
  | end_ => exact absurd pos inside.2
  | done size => exact .inr (by simp only [recvChar, pos])
  | length => exact .inr (by rw [recvChar_length pos control])
  | type => exact .inr (by rw [recvChar_type pos control])
  | lenHi => exact .inr (by rw [recvChar_lenHi pos control])
  | lenLo => exact .inr (by rw [recvChar_lenLo pos control])
  | seq =>
    right
    rw [recvChar_seq pos control]
    simp only [Recv.checkpoint]
    split <;> rfl
  | body =>
    right
    obtain ⟨mem, cur, parms, frame⟩ := foldl_takeChar_eq r [c]
    rw [recvChar_body pos control]
    have replies := congrArg Recv.replies frame
    exact replies
  | headerCheck =>
    by_cases good : c = type1 r.sum
    · exact .inr (by rw [good, recvChar_headerCheck pos])
    · exact .inl (by simp only [recvChar, pos, Recv.packetChar, if_pos good, ite_self])
  | check =>
    by_cases good : c = type1 r.sum
    · exact .inr (by rw [good, recvChar_check pos])
    · exact .inl (by simp only [recvChar, pos, Recv.packetChar, if_pos good, ite_self])

lemma recvChar_replies (r : Recv) (c : UInt8) : r.replies <+: (recvChar r c).replies := by
  by_cases start : r.pos = .start
  · simp only [recvChar, start]
    split_ifs <;> exact List.prefix_rfl
  by_cases complete : r.pos = .end_
  · simp only [recvChar, complete]
    split
    · exact List.prefix_append _ _
    · obtain ⟨parms, more⟩ := accept_replies r
      rw [more]
      exact List.prefix_append _ _
  rcases recvChar_inside (c := c) ⟨start, complete⟩ with back | same
  · rw [back]
    exact List.prefix_append _ _
  · exact same ▸ List.prefix_rfl

lemma feed_replies (r : Recv) (cs : List UInt8) : r.replies <+: (feed r cs).replies := by
  induction cs generalizing r with
  | nil => exact List.prefix_rfl
  | cons c cs ih => exact (recvChar_replies r c).trans (ih _)

lemma feed_ignored {cs : List UInt8}
    (idle : r.pos = .start ∧ (∀ c ∈ cs, c ≠ startChar ∧ c ≠ etxChar) ∨
      ∃ size, r.pos = .done size) : feed r cs = r := by
  induction cs with
  | nil => rfl
  | cons c cs ih =>
    have still : recvChar r c = r := by
      rcases idle with ⟨pos, plain⟩ | ⟨size, pos⟩
      · obtain ⟨first, stop⟩ := plain c List.mem_cons_self
        simp only [recvChar, pos, if_neg first, if_neg stop]
      · simp only [recvChar, pos]
    rw [feed_cons, still]
    apply ih
    rcases idle with ⟨pos, plain⟩ | done
    · exact .inl ⟨pos, fun d hd => plain d (List.mem_cons_of_mem c hd)⟩
    · exact .inr done

end Kermit
