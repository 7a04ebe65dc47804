import UBoot.Usb.MassStorage

/-!
# Bulk transfers of any length (common/usb_storage.c)

`us_one_transfer` makes bulk calls of at most sixteen packets and repeats what is left of each.
Every call is answered with a status and a number of bytes.
-/

namespace OneTransfer

open MassStorage (stalled)

/-- What `usb_bulk_msg` leaves in `status` and `actual_length`. -/
structure Reply where
  status : UInt32
  actual : Nat

/-- The replies, call after call. No more bytes are moved than were asked for. -/
structure Replies where
  reply : (n len : Nat) → Reply
  actual_le : ∀ n len, (reply n len).actual ≤ len

def bulkResult (status : UInt32) : Int := if status = 0 then 0 else -1

def nakRec (status : UInt32) : Bool := status &&& 0x10 ≠ 0

/-- Before a call; `length` is what is behind the chunk. -/
structure State where
  length : Nat
  thisXfer : Nat
  buf : Nat
  maxtry : Nat

inductive Point where
  | call (s : State)
  | done (result : Int)

def nextChunk (maxSize length buf : Nat) : Point :=
  if length = 0 then .done 0
  else
    let thisXfer := if length > maxSize then maxSize else length
    .call ⟨length - thisXfer, thisXfer, buf, 10⟩

def moved (maxSize : Nat) (s : State) (actual : Nat) : Point :=
  let thisXfer := s.thisXfer - actual
  if thisXfer = 0 then nextChunk maxSize s.length (s.buf + actual)
  else .call { s with thisXfer := thisXfer, buf := s.buf + actual }

def step (maxSize : Nat) (s : State) (r : Reply) : Point :=
  if r.status ≠ 0 then
    if stalled r.status then
      if s.thisXfer = r.actual then .done 0 else .done (bulkResult r.status)
    else if nakRec r.status then .done (bulkResult r.status)
    else if s.thisXfer = r.actual then .done 0
    else if s.maxtry = 0 then .done (bulkResult r.status)
    else moved maxSize { s with maxtry := s.maxtry - 1 } r.actual
  else moved maxSize s r.actual

structure Call where
  buf : Nat
  reply : Reply

def usOneTransfer (replies : Replies) (maxpacket length : Nat) : (n : Nat) → Point × List Call
  | 0 => (nextChunk (maxpacket * 16) length 0, [])
  | n + 1 =>
    match usOneTransfer replies maxpacket length n with
    | (.call s, calls) =>
      let r := replies.reply n s.thisXfer
      (step (maxpacket * 16) s r, calls ++ [⟨s.buf, r⟩])
    | (.done result, calls) => (.done result, calls)

def Consecutive : (first : Nat) → List Call → (last : Nat) → Prop
  | first, [], last => first = last
  | first, c :: calls, last => c.buf = first ∧ Consecutive (first + c.reply.actual) calls last

def Complete (replies : Replies) (maxpacket length : Nat) : Prop :=
  ∀ n calls, usOneTransfer replies maxpacket length n = (.done 0, calls) →
    Consecutive 0 calls length

def Call.idle (c : Call) : Bool := c.reply.actual = 0

def Call.busy (c : Call) : Bool := c.reply.actual ≠ 0 ∨ c.reply.status ≠ 0

def IdleBounded (replies : Replies) (maxpacket length : Nat) : Prop :=
  ∃ bound, ∀ n, (usOneTransfer replies maxpacket length n).2.countP Call.idle ≤ bound

/-- A call that reports an error after the last byte of a chunk, with more chunks behind it. -/
def DoneEarly (s : State) (r : Reply) : Prop :=
  r.status ≠ 0 ∧ (stalled r.status ∨ nakRec r.status = false) ∧ s.thisXfer = r.actual ∧
    s.length ≠ 0

def NeverDoneEarly (replies : Replies) (maxpacket length : Nat) : Prop :=
  ∀ n s calls, usOneTransfer replies maxpacket length n = (.call s, calls) →
    ¬ DoneEarly s (replies.reply n s.thisXfer)

def EmptyForever (replies : Replies) (maxpacket length : Nat) : Prop :=
  ∃ first, ∀ n ≥ first, ∃ s calls, usOneTransfer replies maxpacket length n = (.call s, calls) ∧
    (replies.reply n s.thisXfer).actual = 0 ∧ (replies.reply n s.thisXfer).status = 0

variable {calls : List Call} {s : State}

lemma consecutive_append (first : Nat) (calls : List Call) (middle : Nat) (c : Call)
    (before : Consecutive first calls middle) (here : c.buf = middle) :
    Consecutive first (calls ++ [c]) (middle + c.reply.actual) := by
  induction calls generalizing first with
  | nil =>
    have start : first = middle := before
    exact ⟨here.trans start.symm, congrArg (· + c.reply.actual) start⟩
  | cons d calls ih => exact ⟨before.1, ih _ before.2⟩

lemma consecutive_unique {first : Nat} {last last' : Nat} (one : Consecutive first calls last)
    (other : Consecutive first calls last') :
    last = last' := by
  induction calls generalizing first with
  | nil => exact one.symm.trans other
  | cons c calls ih => exact ih one.2 other.2

inductive Leads (maxSize : Nat) (s : State) (r : Reply) : Point → Prop where
  | whole : r.status ≠ 0 → (stalled r.status ∨ nakRec r.status = false) → s.thisXfer = r.actual →
      Leads maxSize s r (.done 0)
  | failed (result : Int) : r.status ≠ 0 → result ≠ 0 → Leads maxSize s r (.done result)
  | again : r.status ≠ 0 → r.actual < s.thisXfer → 0 < s.maxtry →
      Leads maxSize s r
        (.call ⟨s.length, s.thisXfer - r.actual, s.buf + r.actual, s.maxtry - 1⟩)
  | chunk : r.status = 0 → s.thisXfer = r.actual →
      Leads maxSize s r (nextChunk maxSize s.length (s.buf + r.actual))
  | rest : r.status = 0 → r.actual < s.thisXfer →
      Leads maxSize s r (.call ⟨s.length, s.thisXfer - r.actual, s.buf + r.actual, s.maxtry⟩)

lemma step_leads (maxSize : Nat) {r : Reply} (le : r.actual ≤ s.thisXfer) :
    Leads maxSize s r (step maxSize s r) := by
  have failed (error : r.status ≠ 0) : bulkResult r.status ≠ 0 := by
    rw [bulkResult, if_neg error]
    decide
  unfold step
  by_cases error : r.status ≠ 0
  · rw [if_pos error]
    by_cases all : s.thisXfer = r.actual
    · rw [if_pos all, if_pos all]
      split
      case isTrue stall => exact .whole error (.inl stall) all
      case isFalse =>
        split
        case isTrue => exact .failed _ error (failed error)
        case isFalse no_nak => exact .whole error (.inr (Bool.eq_false_iff.mpr no_nak)) all
    rw [if_neg all, if_neg all]
    split
    case isTrue => exact .failed _ error (failed error)
    case isFalse =>
      split
      case isTrue => exact .failed _ error (failed error)
      case isFalse =>
        split
        case isTrue => exact .failed _ error (failed error)
        case isFalse tries =>
          rw [moved]
          dsimp only
          rw [if_neg (by omega)]
          exact .again error (by omega) (pos_of_ne_zero tries)
  · rw [if_neg error, moved]
    have none := not_not.mp error
    by_cases all : s.thisXfer = r.actual
    · rw [if_pos (by omega)]
      exact .chunk none all
    · rw [if_neg (by omega)]
      exact .rest none (by omega)

lemma nextChunk_cases (maxSize length buf : Nat) :
    (length = 0 ∧ nextChunk maxSize length buf = .done 0) ∨
    (length ≠ 0 ∧ ∃ s, nextChunk maxSize length buf = .call s ∧ s.buf = buf ∧ s.maxtry = 10 ∧
      s.thisXfer + s.length = length ∧ (0 < maxSize → 0 < s.thisXfer) ∧
      (maxSize = 0 → s.thisXfer = 0)) := by
  unfold nextChunk
  split
  case isTrue none => exact .inl ⟨none, rfl⟩
  case isFalse more =>
    refine .inr ⟨more, _, rfl, rfl, rfl, ?_, ?_, ?_⟩ <;> dsimp only <;> split <;> omega

lemma usOneTransfer_succ {replies : Replies} {maxpacket length n : Nat}
    (here : usOneTransfer replies maxpacket length n = (.call s, calls)) :
    usOneTransfer replies maxpacket length (n + 1) =
      (step (maxpacket * 16) s (replies.reply n s.thisXfer),
        calls ++ [⟨s.buf, replies.reply n s.thisXfer⟩]) := by
  rw [usOneTransfer, here]

lemma usOneTransfer_done {replies : Replies} {maxpacket length n : Nat} {result : Int}
    (here : usOneTransfer replies maxpacket length n = (.done result, calls)) :
    usOneTransfer replies maxpacket length (n + 1) = (.done result, calls) := by
  rw [usOneTransfer, here]

structure Placed (length : Nat) (s : State) (calls : List Call) : Prop where
  before : Consecutive 0 calls s.buf
  rest : s.buf + s.thisXfer + s.length = length

lemma Placed.moved {length : Nat} (placed : Placed length s calls) (r : Reply) :
    Consecutive 0 (calls ++ [⟨s.buf, r⟩]) (s.buf + r.actual) :=
  consecutive_append 0 calls s.buf ⟨s.buf, r⟩ placed.before rfl

lemma Placed.next {length maxSize : Nat} {s t : State} {calls : List Call} {r : Reply}
    (placed : Placed length s calls) (leads : Leads maxSize s r (.call t)) :
    Placed length t (calls ++ [⟨s.buf, r⟩]) := by
  have moved := placed.moved r
  have rest := placed.rest
  generalize point : Point.call t = p at leads
  cases leads with
  | whole => cases point
  | failed => cases point
  | again _ less =>
    obtain rfl := Point.call.inj point
    exact ⟨moved, by dsimp only; omega⟩
  | rest _ less =>
    obtain rfl := Point.call.inj point
    exact ⟨moved, by dsimp only; omega⟩
  | chunk _ all =>
    rcases nextChunk_cases maxSize s.length (s.buf + r.actual) with
      ⟨-, ended⟩ | ⟨-, t', next, buf, -, sum, -⟩
    · rw [ended] at point
      cases point
    · obtain rfl := Point.call.inj (point.trans next)
      exact ⟨buf ▸ moved, by omega⟩

/-- What holds of the first call, and of each call that a step leads to, holds of all calls. -/
lemma call_invariant {P : State → List Call → Prop} {replies : Replies} {maxpacket length : Nat}
    (first : ∀ s, nextChunk (maxpacket * 16) length 0 = .call s → P s [])
    (next : ∀ s t calls r, P s calls → Leads (maxpacket * 16) s r (.call t) →
      P t (calls ++ [⟨s.buf, r⟩])) {n : Nat}
    (here : usOneTransfer replies maxpacket length n = (.call s, calls)) : P s calls := by
  induction n generalizing s calls with
  | zero =>
    obtain ⟨point, rfl⟩ := Prod.mk.inj here
    exact first s point
  | succ n ih =>
    cases before : usOneTransfer replies maxpacket length n with
    | mk point earlier =>
      cases point with
      | done result =>
        rw [usOneTransfer_done before] at here
        cases here
      | call t =>
        rw [usOneTransfer_succ before] at here
        obtain ⟨point, rfl⟩ := Prod.mk.inj here
        have leads := step_leads (maxpacket * 16) (replies.actual_le n t.thisXfer)
        rw [point] at leads
        exact next t s earlier _ (ih before) leads

lemma placed_run (replies : Replies) (maxpacket length : Nat) {n : Nat}
    (here : usOneTransfer replies maxpacket length n = (.call s, calls)) :
    Placed length s calls := by
  refine call_invariant (fun s point => ?_) (fun _ _ _ _ placed leads => placed.next leads) here
  rcases nextChunk_cases (maxpacket * 16) length 0 with ⟨-, ended⟩ | ⟨-, t, next, buf, -, sum, -⟩
  · rw [ended] at point
    cases point
  · obtain rfl := Point.call.inj (next.symm.trans point)
    exact ⟨buf.symm, by omega⟩

lemma complete_iff (replies : Replies) (maxpacket length : Nat) :
    Complete replies maxpacket length ↔ NeverDoneEarly replies maxpacket length := by
  constructor
  · intro complete n s calls here early
    obtain ⟨error, kind, all, more⟩ := early
    have placed := placed_run replies maxpacket length here
    have ended : step (maxpacket * 16) s (replies.reply n s.thisXfer) = .done 0 := by
      rw [step, if_pos error, if_pos all, if_pos all]
      split
      case isTrue => rfl
      case isFalse no_stall => rw [if_neg (Bool.eq_false_iff.mp (kind.resolve_left no_stall))]
    have next := usOneTransfer_succ here
    rw [ended] at next
    have same := consecutive_unique (placed.moved _) (complete (n + 1) _ next)
    have rest := placed.rest
    omega
  · intro never n
    induction n with
    | zero =>
      intro calls here
      obtain ⟨point, rfl⟩ := Prod.mk.inj here
      rcases nextChunk_cases (maxpacket * 16) length 0 with ⟨none, -⟩ | ⟨-, t, next, -⟩
      · exact none.symm
      · rw [next] at point
        cases point
    | succ n ih =>
      intro calls here
      cases before : usOneTransfer replies maxpacket length n with
      | mk point earlier =>
        cases point with
        | done result =>
          rw [usOneTransfer_done before] at here
          rw [here] at before
          exact ih calls before
        | call s =>
          rw [usOneTransfer_succ before] at here
          obtain ⟨point, rfl⟩ := Prod.mk.inj here
          have leads := step_leads (maxpacket * 16) (replies.actual_le n s.thisXfer)
          have placed := placed_run replies maxpacket length before
          have rest := placed.rest
          suffices last : s.buf + (replies.reply n s.thisXfer).actual = length from
            last ▸ placed.moved _
          generalize ended : step (maxpacket * 16) s _ = p at leads point
          cases leads with
          | whole error kind all =>
            have behind : s.length = 0 := by
              by_contra more
              exact never n s earlier before ⟨error, kind, all, more⟩
            omega
          | failed result error nonzero => exact absurd (Point.done.inj point) nonzero
          | again => cases point
          | rest => cases point
          | chunk none all =>
            rcases nextChunk_cases (maxpacket * 16) s.length _ with ⟨behind, -⟩ | ⟨-, t, next, -⟩
            · omega
            · rw [next] at point
              cases point

/-- What is left to do pays for the busy calls to come: eleven tries and a byte or more for each
chunk. With no packets at all there is nothing to pay for. -/
structure Paid (maxSize length : Nat) (s : State) (busy : Nat) : Prop where
  some_length : 0 < length
  chunk : 0 < maxSize → 0 < s.thisXfer
  budget : 0 < maxSize → busy + s.maxtry + 12 * s.length + s.thisXfer < 12 * length
  none : maxSize = 0 → busy = 0 ∧ s.thisXfer = 0

lemma Paid.first {maxSize length buf : Nat} {s : State}
    (next : nextChunk maxSize length buf = .call s) : Paid maxSize length s 0 := by
  rcases nextChunk_cases maxSize length buf with
    ⟨-, ended⟩ | ⟨more, t, next', -, tries, sum, some_bytes, no_bytes⟩
  · rw [ended] at next
    cases next
  obtain rfl := Point.call.inj (next'.symm.trans next)
  refine ⟨pos_of_ne_zero more, some_bytes, ?_, fun none => ⟨rfl, no_bytes none⟩⟩
  intro positive
  omega

lemma busy_iff (buf : Nat) (r : Reply) :
    (⟨buf, r⟩ : Call).busy = true ↔ r.actual ≠ 0 ∨ r.status ≠ 0 :=
  decide_eq_true_iff

lemma Paid.next {maxSize length busy : Nat} {s t : State} {r : Reply}
    (paid : Paid maxSize length s busy) (leads : Leads maxSize s r (.call t)) :
    Paid maxSize length t (busy + if (⟨s.buf, r⟩ : Call).busy then 1 else 0) := by
  obtain ⟨some_length, chunk, budget, none⟩ := paid
  have cost := busy_iff s.buf r
  generalize point : Point.call t = p at leads
  cases leads with
  | whole => cases point
  | failed => cases point
  | again error less tries =>
    obtain rfl := Point.call.inj point
    refine ⟨some_length, fun _ => by dsimp only; omega, fun positive => ?_, fun zero => ?_⟩
    · have := budget positive
      split <;> dsimp only <;> omega
    · have := none zero
      omega
  | rest no_error less =>
    obtain rfl := Point.call.inj point
    refine ⟨some_length, fun _ => by dsimp only; omega, fun positive => ?_, fun zero => ?_⟩
    · have := budget positive
      dsimp only
      split
      case isTrue busy =>
        have some_bytes := (cost.mp busy).resolve_right (not_not.mpr no_error)
        omega
      case isFalse => omega
    · have := none zero
      omega
  | chunk no_error all =>
    rcases nextChunk_cases maxSize s.length (s.buf + r.actual) with
      ⟨-, ended⟩ | ⟨more, t', next, -, tries, sum, some_bytes, no_bytes⟩
    · rw [ended] at point
      cases point
    obtain rfl := Point.call.inj (point.trans next)
    refine ⟨some_length, some_bytes, fun positive => ?_, fun zero => ⟨?_, no_bytes zero⟩⟩
    · have := budget positive
      split <;> omega
    · obtain ⟨no_calls, no_xfer⟩ := none zero
      rw [if_neg fun busy => (cost.mp busy).elim (by omega) (fun error => error no_error)]
      exact no_calls

lemma Paid.last {maxSize length busy : Nat} {s : State} (paid : Paid maxSize length s busy) :
    busy + 1 ≤ 12 * length := by
  obtain ⟨some_length, -, budget, none⟩ := paid
  rcases Nat.eq_zero_or_pos maxSize with zero | positive
  · have := none zero
    omega
  · have := budget positive
    omega

lemma paid_run (replies : Replies) (maxpacket length : Nat) {n : Nat}
    (here : usOneTransfer replies maxpacket length n = (.call s, calls)) :
    Paid (maxpacket * 16) length s (calls.countP Call.busy) := by
  refine call_invariant (P := fun s calls => Paid (maxpacket * 16) length s (calls.countP Call.busy))
    (fun _ point => Paid.first point) (fun s t calls r paid leads => ?_) here
  rw [List.countP_append, List.countP_singleton]
  exact paid.next leads

lemma busy_le (replies : Replies) (maxpacket length n : Nat) :
    (usOneTransfer replies maxpacket length n).2.countP Call.busy ≤ 12 * length := by
  induction n with
  | zero => exact Nat.zero_le _
  | succ n ih =>
    cases before : usOneTransfer replies maxpacket length n with
    | mk point earlier =>
      rw [before] at ih
      cases point with
      | done result =>
        rw [usOneTransfer_done before]
        exact ih
      | call t =>
        have paid := paid_run replies maxpacket length before
        rw [usOneTransfer_succ before, List.countP_append, List.countP_singleton]
        have last := paid.last
        split <;> omega

lemma counted_mono (p : Call → Bool) (replies : Replies) (maxpacket length : Nat) :
    Monotone fun n => (usOneTransfer replies maxpacket length n).2.countP p := by
  apply monotone_nat_of_le_succ
  intro n
  cases here : usOneTransfer replies maxpacket length n with
  | mk point calls =>
    cases point with
    | done result => rw [usOneTransfer_done here]
    | call s =>
      rw [usOneTransfer_succ here, List.countP_append]
      exact Nat.le_add_right _ _

lemma stays_in_the_end {f : Nat → Nat} (grows : Monotone f) {bound : Nat}
    (bounded : ∀ n, f n ≤ bound) : ∃ first, ∀ n ≥ first, f n = f first := by
  by_contra never
  have above (k : Nat) : ∃ n, k ≤ f n := by
    induction k with
    | zero => exact ⟨0, Nat.zero_le _⟩
    | succ k ih =>
      obtain ⟨n, reached⟩ := ih
      by_contra none
      refine never ⟨n, fun m after => le_antisymm ?_ (grows after)⟩
      have below : ¬ k + 1 ≤ f m := fun le => none ⟨m, le⟩
      omega
  obtain ⟨n, reached⟩ := above (bound + 1)
  exact absurd (bounded n) (not_le.mpr reached)

lemma idleBounded_iff (replies : Replies) (maxpacket length : Nat) :
    IdleBounded replies maxpacket length ↔ ¬ EmptyForever replies maxpacket length := by
  constructor
  · rintro ⟨bound, bounded⟩ ⟨first, forever⟩
    have many (k : Nat) :
        k ≤ (usOneTransfer replies maxpacket length (first + k)).2.countP Call.idle := by
      induction k with
      | zero => exact Nat.zero_le _
      | succ k ih =>
        obtain ⟨s, calls, here, nothing, -⟩ := forever (first + k) (Nat.le_add_right _ _)
        have idle : (⟨s.buf, replies.reply (first + k) s.thisXfer⟩ : Call).idle = true :=
          decide_eq_true nothing
        rw [here] at ih
        rw [← add_assoc, usOneTransfer_succ here, List.countP_append, List.countP_singleton,
          if_pos idle]
        exact Nat.succ_le_succ ih
    exact absurd (le_trans (many (bound + 1)) (bounded _)) (Nat.not_succ_le_self bound)
  · intro not_forever
    obtain ⟨first, same⟩ := stays_in_the_end (counted_mono Call.busy replies maxpacket length)
      (busy_le replies maxpacket length)
    have stops : ∃ n result calls,
        usOneTransfer replies maxpacket length n = (.done result, calls) := by
      by_contra goes_on
      refine not_forever ⟨first, fun n after => ?_⟩
      cases here : usOneTransfer replies maxpacket length n with
      | mk point calls =>
        cases point with
        | done result => exact absurd ⟨n, result, calls, here⟩ goes_on
        | call s =>
          have still := (same (n + 1) (Nat.le_succ_of_le after)).trans (same n after).symm
          rw [usOneTransfer_succ here, here, List.countP_append, List.countP_singleton] at still
          dsimp only at still
          have quiet : ¬ (⟨s.buf, replies.reply n s.thisXfer⟩ : Call).busy = true := by
            intro busy
            rw [if_pos busy] at still
            omega
          rw [busy_iff, not_or, not_not, not_not] at quiet
          exact ⟨s, calls, rfl, quiet.1, quiet.2⟩
    obtain ⟨n, result, calls, ended⟩ := stops
    have stay (k : Nat) :
        usOneTransfer replies maxpacket length (n + k) = (.done result, calls) := by
      induction k with
      | zero => exact ended
      | succ k ih => exact usOneTransfer_done ih
    refine ⟨calls.countP Call.idle, fun m => ?_⟩
    have upTo := counted_mono Call.idle replies maxpacket length (Nat.le_add_left m n)
    dsimp only at upTo
    rw [stay m] at upTo
    exact upTo

/-- 0 means that all bytes have been moved unless an error is reported behind the last byte of a
chunk that is not the last, and all calls are bounded but those that move nothing without an
error. -/
theorem usOneTransfer_iff (replies : Replies) (maxpacket length : Nat) :
    (Complete replies maxpacket length ↔ NeverDoneEarly replies maxpacket length) ∧
    (IdleBounded replies maxpacket length ↔ ¬ EmptyForever replies maxpacket length) ∧
    ∀ n, (usOneTransfer replies maxpacket length n).2.countP Call.busy ≤ 12 * length :=
  ⟨complete_iff replies maxpacket length, idleBounded_iff replies maxpacket length,
    busy_le replies maxpacket length⟩

def stalls : Replies where
  reply _ len := ⟨2, len⟩
  actual_le _ len := Nat.le_refl len

/-- Two chunks of 1024 bytes, of which the second is not asked for. -/
theorem stalls_after_a_chunk : ¬ Complete stalls 64 2048 := by
  intro complete
  have first : Consecutive 0 [⟨0, ⟨2, 1024⟩⟩] 2048 := complete 1 _ rfl
  have second : 1024 = 2048 := first.2
  exact absurd second (by decide)

end OneTransfer
