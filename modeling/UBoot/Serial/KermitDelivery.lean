import UBoot.Serial.KermitPacket

/-!
# Checkpoints that keep the file

While packet `i` is awaited the receiver must be able to go back to the end of the packets
before it: `cur` is there, or the checkpoint of this very packet is. A character is safe if
it does not make the receiver take or restore a checkpoint that is somewhere else.
-/

namespace Kermit

open Memory32

/-- The checkpoint the receiver uses at the next character is the one of packet `seq`. -/
def Recv.Safe (r : Recv) (seq c : UInt8) : Prop :=
  match r.pos with
  | .start => c ≠ etxChar
  | .length => Control c → r.saved = r.cur ∨ r.lastN = some seq
  | .seq =>
    if Control c then r.saved = r.cur ∨ r.lastN = some seq
    else untochar c = seq ∨ r.saved = r.cur ∨
      (r.lastN ≠ some (untochar c) ∧ r.lastN ≠ some seq)
  | _ => True

instance (r : Recv) (seq c : UInt8) : Decidable (r.Safe seq c) := by
  cases h : r.pos <;> simp only [Recv.Safe, h] <;> infer_instance

namespace Session

def point (s : Session) (start : UInt32) (i : Nat) : Point := pointOf start (s.before i)

def At (s : Session) (start : UInt32) (i : Nat) (r : Recv) : Prop :=
  match r.pos with
  | .done size => size.toNat = s.file.length ∧ Holds r.mem start s.file
  | .start | .length | .seq =>
    if r.lastN = some (seqOf i) then r.saved = s.point start i else r.cur = s.point start i
  | .type | .lenHi | .headerCheck => r.saved = s.point start i ∧ r.cur = s.point start i
  | .lenLo => r.saved = s.point start i ∧ r.cur = s.point start i ∧ r.lenHi ≤ 255
  | .body => r.saved = s.point start i ∧ 1 < r.length ∧
    ∃ k : Nat, r.cur.addr = (s.point start i).addr + UInt32.ofNat k ∧ k + r.length ≤ 25000
  | .check | .end_ => r.saved = s.point start i

/-- The receiver has everything before packet `i`. -/
structure Receiving (s : Session) (start : UInt32) (i : Nat) (r : Recv) : Prop where
  begins : r.startAddress = start
  quote : 0 < i → r.hisQuote = s.quote
  small : r.length ≤ 25000
  holds : Holds r.mem start (s.before i).1
  place : s.At start i r
  ended : i = s.packets.length → ∃ size, r.pos = .done size

variable {s : Session} {start : UInt32} {i : Nat} {r : Recv} {c : UInt8}

lemma initial_receiving (s : Session) (mem : Mem) (start : UInt32) :
    s.Receiving start 0 (initial mem start) where
  begins := rfl
  quote := fun h => absurd h (Nat.lt_irrefl 0)
  small := by simp [initial]
  holds := by
    intro k b at_k
    simp [before_zero] at at_k
  place := by simp [At, initial, point, pointOf, before_zero]
  ended := by simp [packets]

lemma before_length (s : Session) (i : Nat) : (s.before i).1.length < 2147483648 :=
  Nat.lt_of_le_of_lt (s.before_isPrefix i).length_le s.file_length

lemma at_start (pos : r.pos = .start) (last : r.lastN = some (seqOf i) → r.saved = s.point start i)
    (new : r.lastN ≠ some (seqOf i) → r.cur = s.point start i) : s.At start i r := by
  simp only [At, pos]
  split
  · rename_i same
    exact last same
  · rename_i other
    exact new other

lemma Receiving.packetError (inv : s.Receiving start i r) (saved : r.saved = s.point start i)
    (goes_on : i ≠ s.packets.length) : s.Receiving start i r.packetError where
  begins := inv.begins
  quote := inv.quote
  small := inv.small
  holds := inv.holds
  place := at_start rfl (fun _ => saved) (fun _ => saved)
  ended := fun h => absurd h goes_on

lemma saved_of_safe (between : if r.lastN = some (seqOf i) then r.saved = s.point start i
      else r.cur = s.point start i)
    (safe : r.saved = r.cur ∨ r.lastN = some (seqOf i)) : r.saved = s.point start i := by
  split at between
  · exact between
  rename_i other
  rcases safe with same | same
  · exact same.trans between
  · exact absurd same other

lemma checkpoint_of_safe {m : UInt8}
    (between : if r.lastN = some (seqOf i) then r.saved = s.point start i
      else r.cur = s.point start i)
    (safe : m = seqOf i ∨ r.saved = r.cur ∨ (r.lastN ≠ some m ∧ r.lastN ≠ some (seqOf i))) :
    (r.checkpoint m).saved = s.point start i ∧ (r.checkpoint m).cur = s.point start i := by
  have both : (some m = r.lastN → r.saved = s.point start i) ∧
      (some m ≠ r.lastN → r.cur = s.point start i) := by
    rcases safe with rfl | same | ⟨fresh, other⟩
    · split at between
      · rename_i last
        exact ⟨fun _ => between, fun h => absurd last.symm h⟩
      · rename_i last
        exact ⟨fun h => absurd h.symm last, fun _ => between⟩
    · rw [same] at between ⊢
      simp only [ite_self] at between
      exact ⟨fun _ => between, fun _ => between⟩
    · rw [if_neg other] at between
      exact ⟨fun h => absurd h.symm fresh, fun _ => between⟩
  simp only [Recv.checkpoint]
  split
  · rename_i last
    exact ⟨both.1 last, both.1 last⟩
  · rename_i last
    exact ⟨both.2 last, both.2 last⟩

lemma takeChar_past {k : Nat} (holds : Holds r.mem start (s.before i).1)
    (cur : r.cur.addr = (s.point start i).addr + UInt32.ofNat k) (room : k ≤ 25000) :
    Holds (r.takeChar c).mem start (s.before i).1 ∧
      ((r.takeChar c).cur.addr = (s.point start i).addr + UInt32.ofNat k ∨
        (r.takeChar c).cur.addr = (s.point start i).addr + UInt32.ofNat (k + 1)) := by
  have size := s.before_length i
  have place : r.cur.addr = start + UInt32.ofNat ((s.before i).1.length + k) := by
    rw [cur, point, pointOf, UInt32.ofNat_add, UInt32.add_assoc]
  have written : ∀ b, Holds (store r.mem r.cur.addr b) start (s.before i).1 := by
    intro b
    rw [place]
    exact holds.write_past b (by omega) (by omega)
  have next : r.cur.addr + 1 = (s.point start i).addr + UInt32.ofNat (k + 1) := by
    rw [cur, UInt32.ofNat_add, UInt32.add_assoc]
    rfl
  simp only [Recv.takeChar, Recv.kDataChar, Recv.dataChar, Recv.sendChar]
  split
  · split
    · exact ⟨written _, .inr next⟩
    · split
      · exact ⟨holds, .inl cur⟩
      · exact ⟨written _, .inr next⟩
  · split
    · exact ⟨holds, .inl cur⟩
    · exact ⟨holds, .inl cur⟩

lemma at_rest {k : Nat} (pos : r.pos = restPos r.length) (saved : r.saved = s.point start i)
    (cur : r.cur.addr = (s.point start i).addr + UInt32.ofNat k) (room : k + r.length ≤ 25000) :
    s.At start i r := by
  by_cases more : 1 < r.length
  · simp only [At, pos, restPos, if_pos more]
    exact ⟨saved, more, k, cur, room⟩
  · simp only [At, pos, restPos, if_neg more]
    exact saved

section
variable (inv : s.Receiving start i r) (goes_on : i ≠ s.packets.length)
include inv goes_on

lemma Receiving.rejected (saved : r.saved = s.point start i) (back : recvChar r c = r.packetError) :
    s.Receiving start i (recvChar r c) := by
  rw [back]
  exact inv.packetError saved goes_on

lemma start_keeps (pos : r.pos = .start) (safe : r.Safe (seqOf i) c) :
    s.Receiving start i (recvChar r c) := by
  have place := inv.place
  simp only [Recv.Safe, pos] at safe
  simp only [At, pos] at place
  by_cases first : c = startChar
  · rw [first, recvChar_start pos]
    exact ⟨inv.begins, inv.quote, inv.small, inv.holds, place, fun h => absurd h goes_on⟩
  · have still : recvChar r c = r := by simp only [recvChar, pos, if_neg first, if_neg safe]
    rw [still]
    exact inv

lemma length_keeps (pos : r.pos = .length) (safe : r.Safe (seqOf i) c) :
    s.Receiving start i (recvChar r c) := by
  have place := inv.place
  simp only [Recv.Safe, pos] at safe
  simp only [At, pos] at place
  by_cases control : Control c
  · refine inv.rejected goes_on (saved_of_safe place (safe control)) ?_
    simp only [recvChar, pos, if_pos control]
  have size := (untochar c).toNat_lt
  rw [recvChar_length pos control]
  exact ⟨inv.begins, inv.quote, by dsimp only; omega, inv.holds, place,
    fun h => absurd h goes_on⟩

lemma seq_keeps (pos : r.pos = .seq) (safe : r.Safe (seqOf i) c) :
    s.Receiving start i (recvChar r c) := by
  have place := inv.place
  have small := inv.small
  simp only [Recv.Safe, pos] at safe
  simp only [At, pos] at place
  by_cases control : Control c
  · rw [if_pos control] at safe
    refine inv.rejected goes_on (saved_of_safe place safe) ?_
    simp only [recvChar, pos, if_pos control]
  rw [if_neg control] at safe
  obtain ⟨address, quote, mem⟩ : (r.checkpoint (untochar c)).startAddress = r.startAddress ∧
      (r.checkpoint (untochar c)).hisQuote = r.hisQuote ∧
      (r.checkpoint (untochar c)).mem = r.mem := by
    simp only [Recv.checkpoint]
    split <;> exact ⟨rfl, rfl, rfl⟩
  rw [recvChar_seq pos control]
  exact ⟨address.trans inv.begins, fun h => quote.trans (inv.quote h), by dsimp only; omega,
    by dsimp only; rw [mem]; exact inv.holds, checkpoint_of_safe place safe,
    fun h => absurd h goes_on⟩

lemma type_keeps (pos : r.pos = .type) : s.Receiving start i (recvChar r c) := by
  have place := inv.place
  have small := inv.small
  simp only [At, pos] at place
  by_cases control : Control c
  · refine inv.rejected goes_on place.1 ?_
    simp only [recvChar, pos, if_pos control]
  rw [recvChar_type pos control]
  refine ⟨inv.begins, inv.quote, by dsimp only; omega, inv.holds, ?_, fun h => absurd h goes_on⟩
  by_cases long : r.length - 1 = -2
  · simp only [At, long, if_true]
    exact place
  apply at_rest (k := 0)
  · simp only [long, if_false]
  · exact place.1
  · simp [place.2]
  · dsimp only
    omega

lemma lenHi_keeps (pos : r.pos = .lenHi) : s.Receiving start i (recvChar r c) := by
  have place := inv.place
  simp only [At, pos] at place
  by_cases control : Control c
  · refine inv.rejected goes_on place.1 ?_
    simp only [recvChar, pos, if_pos control]
  have size := (untochar c).toNat_lt
  rw [recvChar_lenHi pos control]
  exact ⟨inv.begins, inv.quote, inv.small, inv.holds,
    ⟨place.1, place.2, by dsimp only; omega⟩, fun h => absurd h goes_on⟩

lemma lenLo_keeps (pos : r.pos = .lenLo) : s.Receiving start i (recvChar r c) := by
  have place := inv.place
  simp only [At, pos] at place
  by_cases control : Control c
  · refine inv.rejected goes_on place.1 ?_
    simp only [recvChar, pos, if_pos control]
  have size := (untochar c).toNat_lt
  rw [recvChar_lenLo pos control]
  exact ⟨inv.begins, inv.quote, by dsimp only; omega, inv.holds, ⟨place.1, place.2.1⟩,
    fun h => absurd h goes_on⟩

lemma headerCheck_keeps (pos : r.pos = .headerCheck) : s.Receiving start i (recvChar r c) := by
  have place := inv.place
  have small := inv.small
  simp only [At, pos] at place
  by_cases good : c = type1 r.sum
  · rw [good, recvChar_headerCheck pos]
    refine ⟨inv.begins, inv.quote, small, inv.holds, at_rest (k := 0) rfl place.1 ?_ ?_,
      fun h => absurd h goes_on⟩
    · simp [place.2]
    · dsimp only
      omega
  · refine inv.rejected goes_on place.1 ?_
    simp only [recvChar, pos, Recv.packetChar, if_pos good, ite_self]

lemma body_keeps (pos : r.pos = .body) : s.Receiving start i (recvChar r c) := by
  have place := inv.place
  simp only [At, pos] at place
  by_cases control : Control c
  · refine inv.rejected goes_on place.1 ?_
    simp only [recvChar, pos, if_pos control]
  obtain ⟨saved, more, k, cur, room⟩ := place
  obtain ⟨mem, cur', parms, frame⟩ := foldl_takeChar_eq r [c]
  obtain ⟨address, quote, saved'⟩ : (r.takeChar c).startAddress = r.startAddress ∧
      (r.takeChar c).hisQuote = r.hisQuote ∧ (r.takeChar c).saved = r.saved := by
    rw [List.foldl_cons, List.foldl_nil] at frame
    rw [frame]
    exact ⟨rfl, rfl, rfl⟩
  obtain ⟨stored, next⟩ := takeChar_past (c := c) inv.holds cur (by omega)
  rw [recvChar_body pos control]
  refine ⟨address.trans inv.begins, fun h => quote.trans (inv.quote h), by dsimp only; omega,
    stored, ?_, fun h => absurd h goes_on⟩
  rcases next with next | next
  · exact at_rest rfl (saved'.trans saved) next (by dsimp only; omega)
  · exact at_rest rfl (saved'.trans saved) next (by dsimp only; omega)

lemma check_keeps (pos : r.pos = .check) : s.Receiving start i (recvChar r c) := by
  have place := inv.place
  simp only [At, pos] at place
  by_cases good : c = type1 r.sum
  · rw [good, recvChar_check pos]
    exact ⟨inv.begins, inv.quote, inv.small, inv.holds, place, fun h => absurd h goes_on⟩
  · refine inv.rejected goes_on place ?_
    simp only [recvChar, pos, Recv.packetChar, if_pos good, ite_self]

lemma end_keeps (pos : r.pos = .end_) (other : c ≠ endChar) :
    s.Receiving start i (recvChar r c) := by
  have place := inv.place
  simp only [At, pos] at place
  refine inv.rejected goes_on place ?_
  simp only [recvChar, pos, if_pos other]

end

lemma char_keeps (inv : s.Receiving start i r) (safe : r.Safe (seqOf i) c)
    (incomplete : ¬ (r.pos = .end_ ∧ c = endChar)) : s.Receiving start i (recvChar r c) := by
  by_cases finished : ∃ size, r.pos = .done size
  · obtain ⟨size, done⟩ := finished
    have still : recvChar r c = r := by simp only [recvChar, done]
    rw [still]
    exact inv
  have goes_on : i ≠ s.packets.length := fun h => finished (inv.ended h)
  cases pos : r.pos with
  | start => exact start_keeps inv goes_on pos safe
  | length => exact length_keeps inv goes_on pos safe
  | seq => exact seq_keeps inv goes_on pos safe
  | type => exact type_keeps inv goes_on pos
  | lenHi => exact lenHi_keeps inv goes_on pos
  | lenLo => exact lenLo_keeps inv goes_on pos
  | headerCheck => exact headerCheck_keeps inv goes_on pos
  | body => exact body_keeps inv goes_on pos
  | check => exact check_keeps inv goes_on pos
  | end_ => exact end_keeps inv goes_on pos fun last => incomplete ⟨pos, last⟩
  | done size => exact absurd ⟨size, pos⟩ finished

variable {p : Packet}

lemma stored_packet (sum lenHi : Nat) (inv : s.Receiving start i r) (pos : r.pos = .start)
    (at_i : s.packets[i]? = some p) :
    let q := p.data.foldl Recv.takeChar (r.atData p (seqOf i) sum lenHi)
    q.cur = s.point start (i + 1) ∧ Holds q.mem start (s.before (i + 1)).1 := by
  have place := inv.place
  simp only [At, pos] at place
  obtain ⟨-, cur⟩ := checkpoint_of_safe place (.inl rfl)
  have mem : (r.checkpoint (seqOf i)).mem = r.mem ∧
      (r.checkpoint (seqOf i)).hisQuote = r.hisQuote := by
    simp only [Recv.checkpoint]
    split <;> exact ⟨rfl, rfl⟩
  have holds : Holds (r.atData p (seqOf i) sum lenHi).mem start (s.before i).1 := by
    simp only [Recv.atData, mem.1]
    exact inv.holds
  have next := before_succ at_i
  have types := s.type_at at_i
  by_cases data : p.type = dataType
  · have later : 0 < i := by
      rcases Nat.eq_zero_or_pos i with first | later
      · exact absurd (types.1.mpr first) (by simp [data, dataType, sendType])
      · exact later
    have quote : (r.atData p (seqOf i) sum lenHi).hisQuote = s.quote :=
      mem.2.trans (inv.quote later)
    have size := s.before_length (i + 1)
    rw [if_pos data] at next
    have stored := foldl_takeChar_data p.data (r := r.atData p (seqOf i) sum lenHi)
      data cur holds (by rw [quote, ← next]; omega)
    rw [quote, ← next] at stored
    exact stored
  · rw [if_neg data] at next
    rw [point, next]
    by_cases send : p.type = sendType
    · rw [foldl_takeChar_send send (Nat.zero_le _)]
      exact ⟨cur, holds⟩
    · rw [foldl_takeChar_other data send]
      exact ⟨cur, holds⟩

/-- Packet `i` has arrived as a whole and waits to be accepted. -/
structure Arrived (s : Session) (start : UInt32) (i : Nat) (p : Packet) (r : Recv) : Prop where
  at_i : s.packets[i]? = some p
  type : r.kState = p.type
  begins : r.startAddress = start
  quote : 0 < i → r.hisQuote = s.quote
  parms : p.type = sendType → r.sendParms = p.data.take (sendDataSize - 1)
  length : r.length = 1
  last : r.lastN = some (seqOf i)
  saved : r.saved = s.point start i
  cur : r.cur = s.point start (i + 1)
  holds : Holds r.mem start (s.before (i + 1)).1

lemma Arrived.waits {r' : Recv} (h : s.Arrived start i p r) (more : i + 1 < s.packets.length)
    (pos : r'.pos = .start) (quote : r'.hisQuote = s.quote)
    (begins : r'.startAddress = r.startAddress) (length : r'.length = r.length)
    (mem : r'.mem = r.mem) (last : r'.lastN = r.lastN) (saved : r'.saved = r.saved)
    (cur : r'.cur = r.cur) : s.Receiving start (i + 1) r' ∧ s.Receiving start i r' := by
  have other : r'.lastN ≠ some (seqOf (i + 1)) := by
    intro same
    exact seqOf_succ_ne i (Option.some.inj (h.last.symm.trans (last.symm.trans same)))
  have small : r'.length ≤ 25000 := by
    have := h.length
    omega
  have holds : Holds r'.mem start (s.before (i + 1)).1 := mem ▸ h.holds
  have before := holds.of_isPrefix (s.before_succ_isPrefix i)
  constructor
  · refine ⟨begins.trans h.begins, fun _ => quote, small, holds, ?_, fun h => by omega⟩
    exact at_start pos (fun same => absurd same other) (fun _ => cur.trans h.cur)
  · refine ⟨begins.trans h.begins, fun _ => quote, small, before, ?_, fun h => by omega⟩
    exact at_start pos (fun _ => saved.trans h.saved) (fun new => absurd (last.trans h.last) new)

lemma Arrived.whole (h : s.Arrived start i p r) (ended : i + 1 = s.packets.length) :
    (r.cur.addr - r.startAddress).toNat = s.file.length ∧ Holds r.mem start s.file := by
  have whole : (s.before (i + 1)).1 = s.file := by
    rw [ended]
    rfl
  constructor
  · rw [h.cur, h.begins, point, pointOf, whole]
    have size := s.file_length
    have offset : start + UInt32.ofNat s.file.length - start = UInt32.ofNat s.file.length := by
      rw [UInt32.add_comm, UInt32.add_sub_cancel]
    rw [offset, UInt32.toNat_ofNat']
    omega
  · rw [← whole]
    exact h.holds

lemma Arrived.accept (h : s.Arrived start i p r) :
    s.Receiving start (i + 1) r.accept ∧ s.Receiving start i r.accept := by
  obtain ⟨bound, -⟩ := List.getElem?_eq_some_iff.mp h.at_i
  have types := s.type_at h.at_i
  by_cases send : p.type = sendType
  · obtain rfl := types.1.mp send
    have more : 0 + 1 < s.packets.length := by simp [packets]
    obtain rfl : s.send = p := by simpa [packets] using h.at_i
    have taken : r.accept = r.handleSendPacket := if_pos (h.type.trans send)
    rw [taken]
    exact h.waits more rfl (handleSendPacket_quote (h.parms send)) rfl rfl rfl rfl rfl rfl
  have quote : r.hisQuote = s.quote := by
    apply h.quote
    rcases Nat.eq_zero_or_pos i with first | later
    · exact absurd (types.1.mpr first) send
    · exact later
  by_cases final : p.type = breakType
  · have ended := types.2.mp final
    have taken : r.accept = { r with
        pos := .done (r.cur.addr - r.startAddress), replies := r.replies ++ [.ack r.n []] } := by
      simp only [Recv.accept, h.type, if_neg send, if_pos final]
    have small : r.length ≤ 25000 := by
      have := h.length
      omega
    have before := h.holds.of_isPrefix (s.before_succ_isPrefix i)
    have place := h.whole ended
    rw [taken]
    exact ⟨⟨h.begins, fun _ => quote, small, h.holds, place, fun _ => ⟨_, rfl⟩⟩,
      ⟨h.begins, fun _ => quote, small, before, place, fun _ => ⟨_, rfl⟩⟩⟩
  · have more : i + 1 < s.packets.length := by
      have := mt types.2.mpr final
      omega
    have taken : r.accept = { r with
        pos := .start, replies := r.replies ++ [.ack r.n []] } := by
      simp only [Recv.accept, h.type, if_neg send, if_neg final]
    rw [taken]
    exact h.waits more rfl quote rfl rfl rfl rfl rfl rfl

lemma feed_intact (inv : s.Receiving start i r) (pos : r.pos = .start)
    (at_i : s.packets[i]? = some p) :
    let r' := feed r (p.chars (seqOf i))
    s.Receiving start (i + 1) r' ∧ s.Receiving start i r' ∧
      ∃ parms, r'.replies = r.replies ++ [.ack (seqOf i) parms] := by
  have place := inv.place
  simp only [At, pos] at place
  obtain ⟨sum, sum', lenHi, fed⟩ :=
    feed_packet pos (s.fits p (List.mem_of_getElem? at_i)) (seqOf_small i)
  obtain ⟨cur, holds⟩ := stored_packet sum lenHi inv pos at_i
  obtain ⟨saved, -⟩ := checkpoint_of_safe place (.inl rfl)
  have check : (r.checkpoint (seqOf i)).startAddress = r.startAddress ∧
      (r.checkpoint (seqOf i)).hisQuote = r.hisQuote ∧
      (r.checkpoint (seqOf i)).replies = r.replies ∧
      (r.checkpoint (seqOf i)).lastN = some (seqOf i) := by
    simp only [Recv.checkpoint]
    split
    · rename_i same
      exact ⟨rfl, rfl, rfl, same.symm⟩
    · exact ⟨rfl, rfl, rfl, rfl⟩
  have parms : p.type = sendType →
      (p.data.foldl Recv.takeChar (r.atData p (seqOf i) sum lenHi)).sendParms =
        p.data.take (sendDataSize - 1) := by
    intro send
    rw [foldl_takeChar_send send (Nat.zero_le _)]
    rfl
  obtain ⟨mem, cur', parms', frame⟩ :=
    foldl_takeChar_eq (r.atData p (seqOf i) sum lenHi) p.data
  have arrived : s.Arrived start i p
      { p.data.foldl Recv.takeChar (r.atData p (seqOf i) sum lenHi) with
        pos := .end_, length := 1, sum := sum' } := by
    refine ⟨at_i, ?_, ?_, ?_, parms, rfl, ?_, ?_, cur, holds⟩
    · rw [frame]
      rfl
    · rw [frame]
      exact check.1.trans inv.begins
    · rw [frame]
      exact fun later => check.2.1.trans (inv.quote later)
    · rw [frame]
      exact check.2.2.2
    · rw [frame]
      exact saved
  have both := arrived.accept
  obtain ⟨sent, replies⟩ := accept_replies
    { p.data.foldl Recv.takeChar (r.atData p (seqOf i) sum lenHi) with
      pos := .end_, length := 1, sum := sum' }
  rw [← fed] at both replies
  refine ⟨both.1, both.2, sent, ?_⟩
  rw [replies, frame]
  exact congrArg (· ++ [Reply.ack (seqOf i) sent]) check.2.2.1

end Session

end Kermit
