import UBoot.Serial.KermitDelivery

/-!
# The file after a session

The sender repeats packet `i` until its acknowledge comes back. A transmission arrives as it
was sent, or so that the receiver refuses it.
-/

namespace Kermit

open Runs Memory32

def Reply.refuses : Reply → Bool
  | .ack _ _ => false
  | .nack _ => true

/-- The sender sends packet `i`; unless it arrives intact, some check of it fails. -/
def Session.Legal (s : Session) (l : Link) (round : Round) : Prop :=
  s.packets[l.i]?.map (fun p => p.chars (seqOf l.i)) = some round.chars ∨
    ∀ reply ∈ (feed { l.recv with replies := [] } round.chars).replies, reply.refuses

def SafeRound (l : Link) (round : Round) : Prop :=
  StepsMeet (fun r c => some (recvChar r c)) (fun r c => r.Safe (seqOf l.i) c)
    { l.recv with replies := [] } round.chars

instance (s : Session) (l : Link) (round : Round) : Decidable (s.Legal l round) :=
  inferInstanceAs (Decidable (_ ∨ _))

namespace Session

variable {s : Session} {start : UInt32} {i : Nat} {r : Recv}

lemma feed_refused {cs : List UInt8} (inv : s.Receiving start i r)
    (safe : StepsMeet (fun r c => some (recvChar r c)) (fun r c => r.Safe (seqOf i) c) r cs)
    (refused : ∀ reply ∈ (feed r cs).replies, reply.refuses) :
    s.Receiving start i (feed r cs) := by
  induction cs generalizing r with
  | nil => exact inv
  | cons c cs ih =>
    obtain ⟨first, rest⟩ := safe
    have incomplete : ¬ (r.pos = .end_ ∧ c = endChar) := by
      rintro ⟨pos, rfl⟩
      have taken : recvChar r endChar = r.accept := by simp [recvChar, pos]
      obtain ⟨parms, replies⟩ := accept_replies r
      have sent : Reply.ack r.n parms ∈ (feed r (endChar :: cs)).replies := by
        apply (feed_replies (recvChar r endChar) cs).subset
        rw [taken, replies]
        exact List.mem_append_right _ List.mem_cons_self
      exact absurd (refused _ sent) (by simp [Reply.refuses])
    exact ih (char_keeps inv first incomplete) (rest _ rfl) refused

lemma chars_plain {p : Packet} {seq : UInt8} (fits : p.Fits) (small : seq < 95) :
    ∃ tail, p.chars seq = startChar :: tail ∧ ∀ c ∈ tail, c ≠ startChar ∧ c ≠ etxChar := by
  have plain (c : UInt8) (printable : ¬ Control c) : c ≠ startChar ∧ c ≠ etxChar := by
    constructor
    · rintro rfl
      exact printable (by decide)
    · rintro rfl
      exact printable (by decide)
  refine ⟨_, rfl, ?_⟩
  intro c hc
  rcases List.mem_append.mp hc with body | last
  · exact plain c (body_printable fits small c body)
  rcases List.mem_cons.mp last with rfl | final
  · exact plain _ (type1_printable _)
  · rw [List.mem_singleton.mp final]
    decide

lemma feed_busy {p : Packet} {seq : UInt8} (pos : r.pos ≠ .start) (fits : p.Fits)
    (small : seq < 95) (none : r.replies = []) :
    ∀ reply ∈ (feed r (p.chars seq)).replies, reply.refuses := by
  obtain ⟨tail, chars, plain⟩ := chars_plain fits small
  intro reply member
  rw [chars, feed_cons] at member
  by_cases done : ∃ size, r.pos = .done size
  · obtain ⟨size, at_done⟩ := done
    have still : recvChar r startChar = r := by simp only [recvChar, at_done]
    rw [still, feed_ignored (.inr ⟨size, at_done⟩), none] at member
    exact absurd member List.not_mem_nil
  have back : recvChar r startChar = r.packetError := by
    have control : Control startChar := by decide
    have other : startChar ≠ endChar := by decide
    cases h : r.pos <;> simp_all [recvChar]
  rw [back, feed_ignored (.inl ⟨rfl, plain⟩)] at member
  simp only [Recv.packetError, none, List.nil_append, List.mem_singleton] at member
  rw [member]
  rfl

lemma Receiving.listen (inv : s.Receiving start i r) :
    s.Receiving start i { r with replies := [] } :=
  ⟨inv.begins, inv.quote, inv.small, inv.holds, inv.place, inv.ended⟩

lemma transmit_refused {l : Link} {round : Round}
    (refused : ∀ reply ∈ (feed { l.recv with replies := [] } round.chars).replies,
      reply.refuses) :
    transmit l round = ⟨l.i, feed { l.recv with replies := [] } round.chars⟩ := by
  have none : (feed { l.recv with replies := [] } round.chars).replies.any
      (Reply.acks (seqOf l.i)) = false := by
    rw [List.any_eq_false]
    intro reply member
    have := refused reply member
    cases reply with
    | ack n parms => exact absurd this (by simp [Reply.refuses])
    | nack n => simp [Reply.acks]
  simp only [transmit, none, Bool.and_false, Bool.false_eq_true, if_false]

lemma transmit_intact {l : Link} {p : Packet} (inv : s.Receiving start l.i l.recv)
    (pos : l.recv.pos = .start) (at_i : s.packets[l.i]? = some p) (delivered : Bool) :
    transmit l ⟨p.chars (seqOf l.i), delivered⟩ = ⟨if delivered then l.i + 1 else l.i,
      feed { l.recv with replies := [] } (p.chars (seqOf l.i))⟩ := by
  obtain ⟨-, -, parms, replies⟩ := feed_intact inv.listen pos at_i
  simp only [transmit, replies, List.nil_append, List.any_cons, Reply.acks, decide_true,
    Bool.true_or, Bool.and_true]

def Keeps (s : Session) (start : UInt32) (l : Link) : Prop := s.Receiving start l.i l.recv

lemma round_keeps {l : Link} {round : Round} (inv : s.Keeps start l)
    (legal : s.Legal l round) (safe : SafeRound l round) : s.Keeps start (transmit l round) := by
  have refused (h : ∀ reply ∈ (feed { l.recv with replies := [] } round.chars).replies,
      reply.refuses) : s.Keeps start (transmit l round) := by
    rw [transmit_refused h]
    exact feed_refused inv.listen safe h
  rcases legal with intact | h
  · obtain ⟨p, at_i, chars⟩ := Option.map_eq_some_iff.mp intact
    obtain ⟨_, delivered⟩ := round
    subst chars
    by_cases pos : l.recv.pos = .start
    · obtain ⟨next, here, -⟩ := feed_intact inv.listen pos at_i
      rw [transmit_intact inv pos at_i]
      cases delivered with
      | true => exact next
      | false => exact here
    · exact refused (feed_busy pos (s.fits p (List.mem_of_getElem? at_i)) (seqOf_small l.i) rfl)
  · exact refused h

/-- In every session whose characters arrive where they are safe, `k_recv` returns the
size of the file with the file in memory, and it has returned when the sender is done; an
intact packet it waits for moves the sender on. -/
theorem file_received (s : Session) (mem : Mem) (start : UInt32) (rounds : List Round)
    (legal : StepsMeet (fun l round => some (transmit l round)) s.Legal
      ⟨0, initial mem start⟩ rounds)
    (safe : StepsMeet (fun l round => some (transmit l round)) SafeRound
      ⟨0, initial mem start⟩ rounds) :
    let l := rounds.foldl transmit ⟨0, initial mem start⟩
    (∀ size, l.recv.pos = .done size →
      size.toNat = s.file.length ∧ Holds l.recv.mem start s.file) ∧
    (l.i = s.packets.length → ∃ size, l.recv.pos = .done size) ∧
    (l.recv.pos = .start → ∀ p, s.packets[l.i]? = some p →
      (transmit l ⟨p.chars (seqOf l.i), true⟩).i = l.i + 1) := by
  have preserved : ∀ l round, s.Keeps start l → s.Legal l round ∧ SafeRound l round →
      ∃ t, some (transmit l round) = some t ∧ s.Keeps start t :=
    fun l round inv ok => ⟨_, rfl, round_keeps inv ok.1 ok.2⟩
  have connected : s.Keeps start ⟨0, initial mem start⟩ := initial_receiving s mem start
  obtain ⟨l, arrived, inv⟩ := invariant_of_run preserved connected (stepsMeet_and legal safe)
  rw [runFrom_total, Option.some.injEq] at arrived
  intro l'
  obtain rfl : l' = l := arrived
  refine ⟨?_, inv.ended, ?_⟩
  · intro size done
    have place := inv.place
    simp only [At, done] at place
    exact place
  · intro pos p at_i
    rw [transmit_intact inv pos at_i]
    rfl

end Session

instance (l : Link) (round : Round) : Decidable (SafeRound l round) :=
  inferInstanceAs (Decidable (StepsMeet _ _ _ _))

def twoBytes : Session := session [97, 98] (by decide)

def twoBytesSent (i : Nat) : List UInt8 :=
  (twoBytes.packets[i]?.map (fun p => p.chars (seqOf i))).getD []

def damagedData : List Round :=
  [⟨twoBytesSent 0, true⟩, ⟨twoBytesSent 1, true⟩, ⟨(twoBytesSent 2).set 4 122, true⟩,
    ⟨twoBytesSent 2, false⟩, ⟨twoBytesSent 2, true⟩, ⟨twoBytesSent 3, true⟩,
    ⟨twoBytesSent 4, true⟩, ⟨twoBytesSent 5, true⟩]

theorem file_received_damaged : (damagedData.foldl transmit ⟨0, initial (fun _ => 0) 4096⟩).i = 6 ∧
    (∃ size, (damagedData.foldl transmit ⟨0, initial (fun _ => 0) 4096⟩).recv.pos = .done size) ∧
    Holds (damagedData.foldl transmit ⟨0, initial (fun _ => 0) 4096⟩).recv.mem 4096
      twoBytes.file := by
  have received := Session.file_received twoBytes (fun _ => 0) 4096 damagedData (by decide +kernel)
    (by decide +kernel)
  have ended : (damagedData.foldl transmit ⟨0, initial (fun _ => 0) 4096⟩).i = 6 := by
    decide +kernel
  obtain ⟨size, done⟩ := received.2.1 ended
  exact ⟨ended, ⟨size, done⟩, (received.1 size done).2⟩

def damagedLength : List Round :=
  [⟨twoBytesSent 0, true⟩, ⟨twoBytesSent 1, true⟩, ⟨twoBytesSent 2, true⟩,
    ⟨(twoBytesSent 3).set 1 4, true⟩, ⟨twoBytesSent 3, true⟩, ⟨twoBytesSent 4, true⟩,
    ⟨twoBytesSent 5, true⟩]

/-- The receiver goes back to the checkpoint of the packet before: the first byte is lost. -/
theorem damaged_length_loses_byte :
    StepsMeet (fun l round => some (transmit l round)) twoBytes.Legal
      ⟨0, initial (fun _ => 0) 4096⟩ damagedLength ∧
    (damagedLength.foldl transmit ⟨0, initial (fun _ => 0) 4096⟩).recv.pos = .done 1 ∧
    (damagedLength.foldl transmit ⟨0, initial (fun _ => 0) 4096⟩).recv.mem 4096 = 98 ∧
    twoBytes.file = [97, 98] := by
  refine ⟨by decide +kernel, by decide +kernel, by decide +kernel, by decide +kernel⟩

end Kermit
