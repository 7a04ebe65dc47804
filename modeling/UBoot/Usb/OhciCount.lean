import UBoot.Usb.OhciChain

/-!
# How a transfer ends

The TDs of a call are retired in their order; a done list hands some of them back, and behind one
that halts the ED the rest is skipped. `td_cnt` reaches the length of the URB with the last one.
-/

namespace Ohci

open Runs

/-! ## The TDs of a call -/

/-- The TDs `u 0` to `u (n - 1)` of the URB and the dummy `d`, on the ED `e`. -/
structure Shape (s : State) (e : Fin 32) (n : Nat) (u : Nat → Fin 64) (d : Fin 64) : Prop where
  length : s.urb.length.toNat = n
  pos : 0 < n
  small : n < 47
  urb_td : ∀ i < n, s.urb.td i = some (u i)
  inj : ∀ i < n, ∀ j < n, u i = u j → i = j
  tail : (s.ed e).hwTailP = some d
  dummy : ∀ i < n, ∀ e', (s.ed e').hwTailP ≠ some (u i)
  index : ∀ i < n, (s.td (u i)).index.toNat = i
  td_ed : ∀ i < n, (s.td (u i)).ed = e
  others : ∀ e', e' ≠ e → (s.ed e').hwHeadP = (s.ed e').hwTailP ∧ (s.ed e').halted = false

/-- The first `k` TDs are retired, of which the first `m` were handed over and the first `j` were
processed. -/
structure Progress (s : State) (e : Fin 32) (n : Nat) (u : Nat → Fin 64) (d : Fin 64)
    (j m k : Nat) : Prop extends Shape s e n u d where
  processed_le : j ≤ m
  handed_le : m ≤ k
  retired_le : k ≤ n
  queue : ∀ i, k ≤ i → i < n →
    (s.td (u i)).hwNextTD = if i + 1 < n then some (u (i + 1)) else some d
  head : (s.ed e).hwHeadP = if k < n then some (u k) else some d
  links : ∀ i, j ≤ i → i < k →
    (s.td (u i)).hwNextTD = if i = j ∨ i = m then none else some (u (i - 1))
  done_head : s.done_head = if j < m then some (u (m - 1)) else none
  hcDoneHead : s.hcDoneHead = if m < k then some (u (k - 1)) else none
  codes : ∀ i, j ≤ i → i + 1 < k → (s.td (u i)).cc = 0
  halted : (s.ed e).halted = true ↔ j < k ∧ (s.td (u (k - 1))).cc ≠ 0
  td_cnt : s.urb.td_cnt.toNat = j
  state : (s.ed e).state = .oper ∨ (s.ed e).state = .unlink ∧ k = n
  finished : s.urb_finished = true ↔ j = n

variable {s : State} {e : Fin 32} {n : Nat} {u : Nat → Fin 64} {d : Fin 64} {j m k : Nat}

lemma Progress.ed_inUse (progress : Progress s e n u d j m k) : InUse s e :=
  progress.state.imp id And.left

lemma Progress.idle_iff (progress : Progress s e n u d j m k) :
    (s.ed e).hwHeadP = (s.ed e).hwTailP ↔ k = n := by
  rw [progress.head, progress.tail]
  have le := progress.retired_le
  split
  · next more =>
    refine iff_of_false (fun same => ?_) (ne_of_lt more)
    exact progress.dummy k more e (progress.tail.trans same.symm)
  · exact iff_of_true rfl (by omega)

lemma Progress.quiet_of_finished (progress : Progress s e n u d j m k)
    (finished : s.urb_finished = true) : Quiet s := by
  have all := progress.finished.mp finished
  have := progress.processed_le
  have := progress.handed_le
  have := progress.retired_le
  refine ⟨fun e' => ?_, ?_, ?_⟩
  · by_cases here : e' = e
    · rw [here]
      exact progress.idle_iff.mpr (by omega)
    · exact (progress.others e' here).1
  · rw [progress.done_head, if_neg (by omega)]
  · rw [progress.hcDoneHead, if_neg (by omega)]

lemma Progress.reachable (progress : Progress s e n u d j m k) (more : j < n) :
    ∃ i < n, Reachable s (u i) := by
  have := progress.handed_le
  have := progress.retired_le
  by_cases queued : k < n
  · refine ⟨k, queued, .inl ⟨e, .inr ?_⟩⟩
    rw [progress.head, if_pos queued]
    exact .here _
  by_cases retired : m < k
  · refine ⟨k - 1, by omega, .inr (.inr ?_)⟩
    rw [progress.hcDoneHead, if_pos retired]
    exact .here _
  · refine ⟨m - 1, by omega, .inr (.inl ?_)⟩
    rw [progress.done_head, if_pos (by omega)]
    exact .here _

lemma Progress.exact {c : Call} (progress : Progress s e c.size u d j m k) : Exact s c := by
  refine ⟨⟨fun finished i less t there reachable => ?_, fun none_left => ?_⟩,
    progress.quiet_of_finished⟩
  · obtain ⟨e', tail⟩ := (progress.quiet_of_finished finished).reachable reachable
    rw [progress.urb_td i less] at there
    exact progress.dummy i less e' (there ▸ tail)
  · by_contra unfinished
    have := progress.processed_le
    have := progress.handed_le
    have := progress.retired_le
    have more : j ≠ c.size := fun all => unfinished (progress.finished.mpr all)
    obtain ⟨i, less, reachable⟩ := progress.reachable (by omega)
    exact none_left i less (u i) (progress.urb_td i less) reachable

lemma Progress.marked (progress : Progress s e n u d j m k) : Marked s := by
  intro e' halted
  by_cases here : e' = e
  · subst here
    obtain ⟨some_left, -⟩ := progress.halted.mp halted
    by_cases retired : m < k
    · right
      rw [progress.hcDoneHead, if_pos retired]
      exact nofun
    · left
      rw [progress.done_head, if_pos (by omega)]
      exact nofun
  · rw [(progress.others e' here).2] at halted
    cases halted

lemma Shape.of_same {s' : State} (shape : Shape s e n u d)
    (urb : s'.urb.length = s.urb.length ∧ s'.urb.td = s.urb.td)
    (td : ∀ t, (s'.td t).index = (s.td t).index ∧ (s'.td t).ed = (s.td t).ed)
    (tail : (s'.ed e).hwTailP = (s.ed e).hwTailP) (others : ∀ e', e' ≠ e → s'.ed e' = s.ed e') :
    Shape s' e n u d where
  length := urb.1 ▸ shape.length
  pos := shape.pos
  small := shape.small
  urb_td := urb.2 ▸ shape.urb_td
  inj := shape.inj
  tail := tail.trans shape.tail
  dummy i less e' := by
    by_cases here : e' = e
    · rw [here, tail]
      exact shape.dummy i less e
    · rw [others e' here]
      exact shape.dummy i less e'
  index i less := (td (u i)).1 ▸ shape.index i less
  td_ed i less := (td (u i)).2.trans (shape.td_ed i less)
  others e' other := by
    rw [others e' other]
    exact shape.others e' other

/-! ## The controller -/

lemma Progress.pop (progress : Progress s e n u d j m k) (more : k < n)
    (oper : (s.ed e).state = .oper) (running : (s.ed e).halted = false) (cc : Fin 16)
    (bytes : Nat) : Progress (popHead s e (u k) cc bytes) e n u d j m (k + 1) := by
  have jm := progress.processed_le
  have mk := progress.handed_le
  have at_td := fun t => popHead_td s e (u k) t cc bytes
  have here : (popHead s e (u k) cc bytes).ed e =
      { s.ed e with hwHeadP := (s.td (u k)).hwNextTD, halted := cc ≠ 0 } := setEd_self _ _ _
  have other (e' : Fin 32) (apart : e' ≠ e) : (popHead s e (u k) cc bytes).ed e' = s.ed e' :=
    setEd_ne s _ apart
  have old {i : Nat} (less : i < n) (apart : i ≠ k) :
      (popHead s e (u k) cc bytes).td (u i) = s.td (u i) := by
    rw [at_td, if_neg fun same => apart (progress.inj i less k more same)]
  have new : (popHead s e (u k) cc bytes).td (u k) =
      { s.td (u k) with cc, hwCBP := (s.td (u k)).advance bytes, hwNextTD := s.hcDoneHead } := by
    rw [at_td, if_pos rfl]
  have good : j < k → (s.td (u (k - 1))).cc = 0 := by
    intro some_left
    by_contra error
    have halted := progress.halted.mpr ⟨some_left, error⟩
    rw [running] at halted
    cases halted
  refine ⟨progress.toShape.of_same ⟨rfl, rfl⟩ ?_ ?_ other, jm, by omega, more, ?_, ?_, ?_, ?_,
    ?_, ?_, ?_, progress.td_cnt, ?_, progress.finished⟩
  · intro t
    rw [at_td]
    split
    · next same =>
      rw [same]
      exact ⟨rfl, rfl⟩
    · exact ⟨rfl, rfl⟩
  · rw [here]
  · intro i low less
    rw [old less (by omega)]
    exact progress.queue i (by omega) less
  · rw [here]
    exact progress.queue k (Nat.le_refl k) more
  · intro i low less
    rcases Nat.lt_succ_iff_lt_or_eq.mp less with before | rfl
    · rw [old (by omega) (by omega)]
      exact progress.links i low before
    rw [new, progress.hcDoneHead]
    by_cases first : m < i
    · rw [if_pos first, if_neg (by omega)]
    · rw [if_neg first, if_pos (by omega)]
  · exact progress.done_head
  · rw [if_pos (by omega)]
    rfl
  · intro i low less
    rw [old (by omega) (by omega)]
    by_cases before : i + 1 < k
    · exact progress.codes i low before
    · have last : i = k - 1 := by omega
      rw [last]
      exact good (by omega)
  · rw [here, Nat.add_sub_cancel, new]
    exact decide_eq_true_iff.trans (and_iff_right (by omega)).symm
  · rw [here]
    exact .inl oper

lemma Progress.retire (progress : Progress s e n u d j m k) (e' : Fin 32) (cc : Fin 16)
    (bytes : Nat) : ∃ k', Progress (retire s e' cc bytes) e n u d j m k' := by
  unfold Ohci.retire
  split
  · exact ⟨k, progress⟩
  next t head =>
  split
  · next guard =>
    obtain ⟨oper, running, queued, -⟩ := guard
    have here : e' = e := by
      by_contra other
      exact queued (progress.others e' other).1
    subst here
    have more : k < n := by
      have le := progress.retired_le
      have := progress.idle_iff.not.mp queued
      omega
    have first : t = u k := by
      rw [progress.head, if_pos more] at head
      exact (Option.some.inj head).symm
    rw [first]
    exact ⟨k + 1, progress.pop more oper running cc bytes⟩
  · exact ⟨k, progress⟩

lemma Progress.writeDone (progress : Progress s e n u d j m k) (other : Bool) :
    ∃ m', Progress (writeDone s other) e n u d j m' k := by
  have jm := progress.processed_le
  have mk := progress.handed_le
  unfold Ohci.writeDone
  split
  · next guard =>
    obtain ⟨empty, retired⟩ := guard
    have same : j = m := by
      rw [progress.done_head] at empty
      split at empty
      · cases empty
      · omega
    have some_left : m < k := by
      rw [progress.hcDoneHead] at retired
      split at retired
      · assumption
      · exact absurd rfl retired
    subst same
    refine ⟨k, { progress with
      processed_le := mk, handed_le := Nat.le_refl k, links := ?_, done_head := ?_,
      hcDoneHead := ?_ }⟩
    · intro i low less
      rw [progress.links i low less]
      by_cases first : i = j
      · rw [if_pos (.inl first), if_pos (.inl first)]
      · rw [if_neg (by omega), if_neg (by omega)]
    · rw [if_pos some_left]
      exact progress.hcDoneHead.trans (if_pos some_left)
    · rw [if_neg (lt_irrefl k)]
  · exact ⟨m, progress⟩

lemma Progress.hcAct (progress : Progress s e n u d j m k) (act : HcAct) :
    ∃ m' k', Progress (hcAct s act) e n u d j m' k' := by
  cases act with
  | retire e' cc bytes =>
    obtain ⟨k', after⟩ := progress.retire e' cc bytes
    exact ⟨m, k', after⟩
  | writeDone other =>
    obtain ⟨m', after⟩ := progress.writeDone other
    exact ⟨m', k, after⟩

/-! ## Done lists -/

def tdsFrom (u : Nat → Fin 64) (j r : Nat) : List (Fin 64) := (List.range' j r).map u

lemma tdsFrom_succ (u : Nat → Fin 64) (j r : Nat) :
    tdsFrom u j (r + 1) = tdsFrom u j r ++ [u (j + r)] := by
  rw [tdsFrom, List.range'_concat, List.map_append, one_mul]
  rfl

lemma mem_tdsFrom {r : Nat} {t : Fin 64} :
    t ∈ tdsFrom u j r ↔ ∃ i, j ≤ i ∧ i < j + r ∧ u i = t := by
  simp only [tdsFrom, List.mem_map, List.mem_range'_1, and_assoc]

lemma doneChain_eq {r : Nat} (left : Nat) (enough : r < left)
    (links : ∀ i, j ≤ i → i ≤ j + r →
      (s.td (u i)).hwNextTD = if i = j then none else some (u (i - 1))) :
    doneChain s left (some (u (j + r))) = some (tdsFrom u j (r + 1)).reverse := by
  induction r generalizing left with
  | zero =>
    obtain ⟨left, rfl⟩ := Nat.exists_eq_succ_of_ne_zero (Nat.ne_of_gt enough)
    rw [doneChain, add_zero, links j (Nat.le_refl j) (Nat.le_refl j), if_pos rfl]
    cases left <;> rfl
  | succ r ih =>
    obtain ⟨left, rfl⟩ := Nat.exists_eq_succ_of_ne_zero (by omega : left ≠ 0)
    have rest := ih left (by omega) fun i low high => links i low (by omega)
    rw [doneChain, links (j + (r + 1)) (by omega) le_rfl, if_neg (by omega)]
    rw [show j + (r + 1) - 1 = j + r by omega, rest, tdsFrom_succ u j (r + 1),
      List.reverse_append]
    rfl

lemma Progress.chain_eq (progress : Progress s e n u d j m k) :
    doneChain s 64 s.done_head = some (tdsFrom u j (m - j)).reverse := by
  have mk := progress.handed_le
  have kn := progress.retired_le
  have small := progress.small
  rw [progress.done_head]
  split
  · next some_left =>
    have found := @doneChain_eq s u j (m - 1 - j) 64 (by omega) fun i low high => by
      rw [progress.links i low (by omega)]
      by_cases first : i = j
      · rw [if_pos (.inl first), if_pos first]
      · rw [if_neg (by omega), if_neg first]
    rw [show j + (m - 1 - j) = m - 1 by omega, show m - 1 - j + 1 = m - j by omega] at found
    exact found
  · rw [show m - j = 0 by omega]
    rfl

lemma reverse_good {tds : List (Fin 64)} (good : ∀ t ∈ tds, (s.td t).cc = 0) :
    tds.foldl reverseTd s = s := by
  induction tds with
  | nil => rfl
  | cons t tds ih =>
    obtain ⟨first, rest⟩ := List.forall_mem_cons.mp good
    have same : reverseTd s t = s := by
      unfold reverseTd
      rw [if_neg fun error => error.1 first]
    rw [List.foldl_cons, same]
    exact ih rest

/-- What `dl_done_list` changes: `r` TDs are counted, and an ED without TDs is unlinked. -/
structure Counted (s s' : State) (e : Fin 32) (r : Nat) : Prop where
  td : s'.td = s.td
  urb : s'.urb.length = s.urb.length ∧ s'.urb.td = s.urb.td
  others : ∀ e', e' ≠ e → s'.ed e' = s.ed e'
  queue : (s'.ed e).hwHeadP = (s.ed e).hwHeadP ∧ (s'.ed e).hwTailP = (s.ed e).hwTailP ∧
    (s'.ed e).halted = (s.ed e).halted
  state : (s'.ed e).state = (s.ed e).state ∨
    (s.ed e).hwHeadP = (s.ed e).hwTailP ∧ (s'.ed e).state = .unlink
  done_head : s'.done_head = s.done_head
  hcDoneHead : s'.hcDoneHead = s.hcDoneHead
  td_cnt : s'.urb.td_cnt.toNat = s.urb.td_cnt.toNat + r
  finished : s'.urb_finished = true ↔ s.urb_finished = true ∨
    0 < r ∧ s'.urb.td_cnt.toNat = s.urb.length.toNat

lemma doneTd_counted {t : Fin 64} (on_ed : (s.td t).ed = e) (used : InUse s e)
    (small : s.urb.td_cnt.toNat + 1 < 65536) : Counted s (doneTd s t) e 1 := by
  obtain ⟨a, moved⟩ := dlTransferLength_only s (s.td t)
  obtain ⟨b, counted, finished⟩ := countTd_only (dlTransferLength s (s.td t)) (s.td t).ed
  rw [moved] at counted finished
  rw [doneTd, moved, counted, on_ed]
  rw [on_ed] at finished
  have sum : (s.urb.td_cnt + 1).toNat = s.urb.td_cnt.toNat + 1 := by
    rw [UInt16.toNat_add]
    exact Nat.mod_eq_of_lt small
  have last : b = true ↔ s.urb_finished = true ∨
      0 < 1 ∧ (s.urb.td_cnt + 1).toNat = s.urb.length.toNat := by
    rw [finished]
    refine or_congr_right ((and_iff_left used).trans ?_)
    exact UInt16.toNat_inj.symm.trans (and_iff_right Nat.one_pos).symm
  unfold unlinkIdle
  split
  · next idle =>
    refine ⟨rfl, ⟨rfl, rfl⟩, fun e' other => setEd_ne _ _ other, ?_, .inr ⟨idle.1, ?_⟩, rfl, rfl,
      sum, last⟩
    · rw [setEd_self]
      exact ⟨rfl, rfl, rfl⟩
    · rw [setEd_self]
  · exact ⟨rfl, ⟨rfl, rfl⟩, fun _ _ => rfl, ⟨rfl, rfl, rfl⟩, .inl rfl, rfl, rfl, sum, last⟩

lemma Counted.inUse {s' : State} {r : Nat} (counted : Counted s s' e r) (used : InUse s e) :
    InUse s' e := by
  rcases counted.state with same | ⟨-, unlinked⟩
  · rw [InUse, same]
    exact used
  · exact .inr unlinked

lemma Counted.cons {s' s'' : State} {r : Nat} (first : Counted s s' e 1)
    (rest : Counted s' s'' e r) (room : s.urb.td_cnt.toNat + (r + 1) ≤ s.urb.length.toNat) :
    Counted s s'' e (r + 1) := by
  obtain ⟨head, tail, halted⟩ := first.queue
  refine ⟨rest.td.trans first.td, ⟨rest.urb.1.trans first.urb.1, rest.urb.2.trans first.urb.2⟩,
    fun e' other => (rest.others e' other).trans (first.others e' other),
    ⟨rest.queue.1.trans head, rest.queue.2.1.trans tail, rest.queue.2.2.trans halted⟩, ?_,
    rest.done_head.trans first.done_head, rest.hcDoneHead.trans first.hcDoneHead, ?_, ?_⟩
  · rcases rest.state with same | ⟨idle, unlinked⟩
    · rw [same]
      exact first.state
    · rw [head, tail] at idle
      exact .inr ⟨idle, unlinked⟩
  · rw [rest.td_cnt, first.td_cnt]
    omega
  · have total := rest.td_cnt
    have one := first.td_cnt
    rw [rest.finished, first.finished, first.urb.1, or_assoc]
    refine or_congr_right ⟨fun early => ⟨Nat.succ_pos r, ?_⟩, fun late => ?_⟩
    · rcases early with ⟨-, full⟩ | ⟨-, full⟩
      · omega
      · exact full
    · by_cases empty : r = 0
      · exact .inl ⟨Nat.one_pos, by omega⟩
      · exact .inr ⟨pos_of_ne_zero empty, late.2⟩

lemma done_counted {tds : List (Fin 64)} (on_ed : ∀ t ∈ tds, (s.td t).ed = e) (used : InUse s e)
    (room : s.urb.td_cnt.toNat + tds.length ≤ s.urb.length.toNat) :
    Counted s (tds.foldl doneTd s) e tds.length := by
  induction tds generalizing s with
  | nil =>
    exact ⟨rfl, ⟨rfl, rfl⟩, fun _ _ => rfl, ⟨rfl, rfl, rfl⟩, .inl rfl, rfl, rfl, rfl,
      (or_iff_left fun none => absurd none.1 (lt_irrefl 0)).symm⟩
  | cons t tds ih =>
    obtain ⟨here, later⟩ := List.forall_mem_cons.mp on_ed
    rw [List.length_cons] at room
    have long := s.urb.length.toNat_lt
    have first := doneTd_counted here used (by omega)
    have rest := ih (fun t' member => first.td ▸ later t' member) (first.inUse used) (by
      rw [first.td_cnt, first.urb.1]
      omega)
    exact first.cons rest room

lemma tdsFrom_length (u : Nat → Fin 64) (j r : Nat) : (tdsFrom u j r).length = r := by
  rw [tdsFrom, List.length_map, List.length_range']

lemma Progress.counted (progress : Progress s e n u d j m k)
    (good : ∀ i, j ≤ i → i < m → (s.td (u i)).cc = 0) :
    Progress ((tdsFrom u j (m - j)).foldl doneTd s.taken) e n u d m m k := by
  have jm := progress.processed_le
  have mk := progress.handed_le
  have kn := progress.retired_le
  have full : s.taken.urb.td_cnt.toNat + (m - j) = m := by
    rw [show s.taken.urb.td_cnt = s.urb.td_cnt from rfl, progress.td_cnt]
    omega
  have length : s.taken.urb.length.toNat = n := progress.length
  have counted := @done_counted s.taken e (tdsFrom u j (m - j))
    (fun t member => by
      obtain ⟨i, -, high, rfl⟩ := mem_tdsFrom.mp member
      exact progress.td_ed i (by omega))
    progress.ed_inUse (by
      rw [tdsFrom_length, full, length]
      omega)
  rw [tdsFrom_length] at counted
  generalize (tdsFrom u j (m - j)).foldl doneTd s.taken = s' at counted
  have td : s'.td = s.td := counted.td
  have td_cnt : s'.urb.td_cnt.toNat = m := counted.td_cnt.trans full
  refine ⟨progress.toShape.of_same counted.urb (fun t => td ▸ ⟨rfl, rfl⟩) counted.queue.2.1
    counted.others, Nat.le_refl m, mk, kn, td ▸ progress.queue, counted.queue.1.trans progress.head,
    ?_, ?_, counted.hcDoneHead.trans progress.hcDoneHead, ?_, ?_, td_cnt, ?_, ?_⟩
  · intro i low less
    rw [td, progress.links i (by omega) less]
    by_cases first : i = m
    · rw [if_pos (.inr first), if_pos (.inr first)]
    · rw [if_neg (by omega), if_neg (by omega)]
  · rw [if_neg (lt_irrefl m)]
    exact counted.done_head
  · intro i low less
    rw [td]
    exact progress.codes i (by omega) less
  · rw [counted.queue.2.2, td]
    refine progress.halted.trans ⟨fun ⟨some_left, error⟩ => ⟨?_, error⟩,
      fun ⟨some_left, error⟩ => ⟨by omega, error⟩⟩
    by_contra none_left
    exact error (good (k - 1) (by omega) (by omega))
  · rcases counted.state with same | ⟨idle, unlinked⟩
    · rw [same]
      exact progress.state
    · exact .inr ⟨unlinked, progress.idle_iff.mp idle⟩
  · rw [counted.finished, td_cnt, length]
    refine (or_congr_left progress.finished).trans ⟨fun all => ?_, fun all => ?_⟩
    · rcases all with all | ⟨-, all⟩
      · omega
      · exact all
    · by_cases done : j = n
      · exact .inl done
      · exact .inr ⟨by omega, all⟩

structure CutOff (s s' : State) (e : Fin 32) (d : Fin 64) (skipped : Nat) : Prop where
  td : s'.td = s.td
  urb : s'.urb.length = s.urb.length ∧ s'.urb.td = s.urb.td
  others : ∀ e', e' ≠ e → s'.ed e' = s.ed e'
  ed : s'.ed e = { s.ed e with hwHeadP := some d, halted := false }
  done_head : s'.done_head = s.done_head
  hcDoneHead : s'.hcDoneHead = s.hcDoneHead
  td_cnt : s'.urb.td_cnt.toNat = s.urb.td_cnt.toNat + skipped
  finished : s'.urb_finished = s.urb_finished

lemma skipped_toNat {length : UInt16} {index : UInt8} (inside : index.toNat < length.toNat) :
    (length - index.toUInt16 - 1).toNat = length.toNat - index.toNat - 1 := by
  have wide : index.toUInt16.toNat = index.toNat := UInt8.toNat_toUInt16 index
  have first : (length - index.toUInt16).toNat = length.toNat - index.toNat := by
    rw [UInt16.toNat_sub_of_le _ _ (UInt16.le_iff_toNat_le.mpr (by omega)), wide]
  rw [UInt16.toNat_sub_of_le, first]
  · rfl
  · rw [UInt16.le_iff_toNat_le, first]
    exact (by omega : 1 ≤ length.toNat - index.toNat)

lemma reverseTd_cutOff {t : Fin 64} (on_ed : (s.td t).ed = e) (error : (s.td t).cc ≠ 0)
    (halted : (s.ed e).halted = true) (index : (s.td t).index.toNat + 1 = k)
    (within : k ≤ s.urb.length.toNat) (room : s.urb.td_cnt.toNat + s.urb.length.toNat < 65536)
    (behind : k < s.urb.length.toNat → ∃ last, s.urb.td (s.urb.length.toNat - 1) = some last ∧
      (s.td last).hwNextTD = some d)
    (empty : k = s.urb.length.toNat → (s.ed e).hwHeadP = some d) :
    CutOff s (reverseTd s t) e d (s.urb.length.toNat - k) := by
  unfold reverseTd
  dsimp only
  rw [on_ed, if_pos ⟨error, halted⟩, index]
  split
  · next more =>
    obtain ⟨last, there, leads⟩ := behind more
    rw [there]
    dsimp only
    rw [leads]
    refine ⟨rfl, ⟨rfl, rfl⟩, fun e' other => setEd_ne _ _ other, setEd_self _ _ _, rfl, rfl, ?_,
      rfl⟩
    have skipped := skipped_toNat (by omega : (s.td t).index.toNat < s.urb.length.toNat)
    refine (UInt16.toNat_add _ _).trans ?_
    rw [skipped, Nat.mod_eq_of_lt (by omega)]
    omega
  · next none_left =>
    have all : k = s.urb.length.toNat := le_antisymm within (Nat.le_of_not_lt none_left)
    have head := empty all
    refine ⟨rfl, ⟨rfl, rfl⟩, fun e' other => setEd_ne _ _ other, ?_, rfl, rfl, ?_, rfl⟩
    · refine (setEd_self _ _ _).trans ?_
      rw [← head]
    · rw [← all, Nat.sub_self]
      rfl

lemma Progress.cutOff (progress : Progress s e n u d j m k) (some_left : j < k)
    (error : (s.td (u (k - 1))).cc ≠ 0) :
    CutOff s.taken (reverseTd s.taken (u (k - 1))) e d (n - k) := by
  have kn := progress.retired_le
  have small := progress.small
  have length : s.taken.urb.length.toNat = n := progress.length
  have td_cnt : s.taken.urb.td_cnt.toNat = j := progress.td_cnt
  have index := progress.index (k - 1) (by omega)
  have cut := @reverseTd_cutOff s.taken e d k (u (k - 1)) (progress.td_ed (k - 1) (by omega)) error
    (progress.halted.mpr ⟨some_left, error⟩) (by
      rw [show (s.taken.td (u (k - 1))).index.toNat = k - 1 from index]
      omega)
    (by omega) (by omega) (fun more => ?_) (fun all => ?_)
  · rw [length] at cut
    exact cut
  · rw [length] at more ⊢
    have leads := progress.queue (n - 1) (by omega) (by omega)
    rw [if_neg (by omega)] at leads
    exact ⟨u (n - 1), progress.urb_td (n - 1) (by omega), leads⟩
  · rw [length] at all
    exact progress.head.trans (if_neg (by omega))

lemma Progress.ended (progress : Progress s e n u d j k k) (some_left : j < k)
    (error : (s.td (u (k - 1))).cc ≠ 0) :
    Progress ((tdsFrom u j (k - j)).foldl doneTd (reverseTd s.taken (u (k - 1)))) e n u d
      n n n := by
  have kn := progress.retired_le
  have cut := progress.cutOff some_left error
  generalize reverseTd s.taken (u (k - 1)) = s₁ at cut
  have td : s₁.td = s.td := cut.td
  have length : s₁.urb.length.toNat = n := by
    rw [cut.urb.1]
    exact progress.length
  have skipped : s₁.urb.td_cnt.toNat = j + (n - k) := by
    rw [cut.td_cnt, show s.taken.urb.td_cnt.toNat = j from progress.td_cnt]
  have shape : Shape s₁ e n u d := progress.toShape.of_same cut.urb (fun t => td ▸ ⟨rfl, rfl⟩)
    (by rw [cut.ed]; rfl) cut.others
  have used : InUse s₁ e := by
    rw [InUse, cut.ed]
    exact progress.ed_inUse
  have full : s₁.urb.td_cnt.toNat + (tdsFrom u j (k - j)).length = n := by
    rw [skipped, tdsFrom_length]
    omega
  have counted := @done_counted s₁ e (tdsFrom u j (k - j))
    (fun t member => by
      obtain ⟨i, -, high, rfl⟩ := mem_tdsFrom.mp member
      exact shape.td_ed i (by omega))
    used (by omega)
  generalize (tdsFrom u j (k - j)).foldl doneTd s₁ = s' at counted
  have td_cnt : s'.urb.td_cnt.toNat = n := counted.td_cnt.trans full
  have head : (s'.ed e).hwHeadP = some d := by
    rw [counted.queue.1, cut.ed]
  have running : (s'.ed e).halted = false := by
    rw [counted.queue.2.2, cut.ed]
  refine ⟨shape.of_same counted.urb (fun t => counted.td ▸ ⟨rfl, rfl⟩) counted.queue.2.1
    counted.others, Nat.le_refl n, Nat.le_refl n, Nat.le_refl n, ?_, ?_, ?_, ?_, ?_, ?_, ?_,
    td_cnt, ?_, ?_⟩
  · intro i low less
    omega
  · rw [head, if_neg (lt_irrefl n)]
  · intro i low less
    omega
  · rw [if_neg (lt_irrefl n), counted.done_head, cut.done_head]
    rfl
  · rw [if_neg (lt_irrefl n), counted.hcDoneHead, cut.hcDoneHead]
    exact progress.hcDoneHead.trans (if_neg (lt_irrefl k))
  · intro i low less
    omega
  · rw [running]
    exact iff_of_false Bool.false_ne_true fun h => lt_irrefl n h.1
  · have same : (s₁.ed e).state = (s.ed e).state := by
      rw [cut.ed]
      rfl
    rcases counted.state with kept | ⟨-, unlinked⟩
    · rw [kept, same]
      exact progress.state.imp id fun h => ⟨h.1, rfl⟩
    · exact .inr ⟨unlinked, rfl⟩
  · rw [counted.finished, td_cnt, length, tdsFrom_length]
    exact iff_of_true (.inr ⟨by omega, rfl⟩) rfl

lemma Progress.listed (progress : Progress s e n u d j m k) {tds : List (Fin 64)} {s₁ : State}
    (reversed : dlReverseDoneList s = some (tds, s₁)) :
    ∃ j' m' k', Progress (tds.foldl doneTd s₁) e n u d j' m' k' := by
  have mk := progress.handed_le
  rw [dlReverseDoneList, progress.chain_eq] at reversed
  obtain ⟨rfl, rfl⟩ := Prod.mk.inj (Option.some.inj reversed)
  rw [List.reverse_reverse]
  by_cases error : j < m ∧ m = k ∧ (s.td (u (k - 1))).cc ≠ 0
  · obtain ⟨some_left, rfl, error⟩ := error
    have rest : ((tdsFrom u j (m - 1 - j)).reverse).foldl reverseTd
        (reverseTd s.taken (u (m - 1))) = reverseTd s.taken (u (m - 1)) := by
      refine reverse_good fun t member => ?_
      obtain ⟨i, low, high, rfl⟩ := mem_tdsFrom.mp (List.mem_reverse.mp member)
      rw [reverseTd_td]
      exact progress.codes i low (by omega)
    have split : tdsFrom u j (m - j) = tdsFrom u j (m - 1 - j) ++ [u (m - 1)] := by
      rw [show m - j = m - 1 - j + 1 by omega, tdsFrom_succ, show j + (m - 1 - j) = m - 1 by omega]
    have whole : ((tdsFrom u j (m - j)).reverse).foldl reverseTd s.taken =
        reverseTd s.taken (u (m - 1)) := by
      rw [split, List.reverse_append]
      exact rest
    rw [whole]
    exact ⟨n, n, n, progress.ended some_left error⟩
  · have good (i : Nat) (low : j ≤ i) (less : i < m) : (s.td (u i)).cc = 0 := by
      by_cases before : i + 1 < k
      · exact progress.codes i low before
      · by_contra bad
        have last : i = k - 1 := by omega
        exact error ⟨by omega, by omega, last ▸ bad⟩
    have same : ((tdsFrom u j (m - j)).reverse).foldl reverseTd s.taken = s.taken := by
      refine reverse_good fun t member => ?_
      obtain ⟨i, low, high, rfl⟩ := mem_tdsFrom.mp (List.mem_reverse.mp member)
      exact good i low (by omega)
    rw [same]
    exact ⟨m, m, k, progress.counted good⟩

lemma hcInterrupt_progress (progress : Progress s e n u d j m k) {s' : State}
    {intrstatus : UInt32} {stat : Int} (served : hcInterrupt s intrstatus = some (stat, s')) :
    ∃ j' m' k', Progress s' e n u d j' m' k' := by
  have failed : Progress { s with disabled := s.disabled + 1 } e n u d j m k :=
    ⟨progress.toShape.of_same ⟨rfl, rfl⟩ (fun _ => ⟨rfl, rfl⟩) rfl (fun _ _ => rfl),
      progress.processed_le, progress.handed_le, progress.retired_le, progress.queue,
      progress.head, progress.links, progress.done_head, progress.hcDoneHead, progress.codes,
      progress.halted, progress.td_cnt, progress.state, progress.finished⟩
  unfold hcInterrupt at served
  split at served
  · cases served
    exact ⟨j, m, k, failed⟩
  split at served
  · cases served
    exact ⟨j, m, k, progress⟩
  unfold serve at served
  split at served
  · cases served
    exact ⟨j, m, k, failed⟩
  obtain ⟨⟨stat', s''⟩, list_served, same⟩ := Option.map_eq_some_iff.mp served
  obtain ⟨-, rfl⟩ := Prod.mk.inj same
  split at list_served
  · obtain ⟨⟨tds, s₁⟩, reversed, done⟩ := Option.map_eq_some_iff.mp list_served
    obtain ⟨-, rfl⟩ := Prod.mk.inj done
    exact progress.listed reversed
  · cases list_served
    exact ⟨j, m, k, progress⟩

end Ohci
