import UBoot.Usb.OhciReach

/-!
# The queue of a call

`td_submit_job` is a sequence of calls of `td_fill`. On an ED with nothing queued they leave a
queue of the TDs of the URB, in their order, with the data spread over them.
-/

namespace Ohci

variable {c : Call}

/-- `data` and `len` of the calls of `td_fill` for a bulk transfer. -/
def bulkFills : (left : Nat) → (data : UInt32) → (data_len : Nat) → List (UInt32 × Nat)
  | 0, data, data_len => [(data, data_len)]
  | left + 1, data, data_len =>
    if 4096 < data_len then (data, 4096) :: bulkFills left (data + 4096) (data_len - 4096)
    else [(data, data_len)]

/-- Those of `td_submit_job`. Their number is its `cnt`. -/
def Call.fills (c : Call) : List (UInt32 × Nat) :=
  let data := if c.transfer_len = 0 then 0 else c.buffer
  if c.control then
    (c.setup, 8) :: if 0 < c.transfer_len then [(data, c.transfer_len), (data, 0)] else [(data, 0)]
  else bulkFills c.transfer_len data c.transfer_len

def fillAll : List (UInt32 × Nat) → (cnt : Nat) → State → State
  | [], _, s => s
  | (data, len) :: rest, cnt, s => fillAll rest (cnt + 1) (tdFill s data len cnt)

lemma fillBulk_eq (left : Nat) (s : State) (data : UInt32) (data_len cnt : Nat) :
    fillBulk left s data data_len cnt = fillAll (bulkFills left data data_len) cnt s := by
  induction left generalizing s data data_len cnt with
  | zero => rfl
  | succ left ih =>
    rw [fillBulk, bulkFills]
    split
    · exact ih _ _ _ _
    · rfl

lemma tdSubmitJob_eq (s : State) (c : Call) : tdSubmitJob s c =
    fillAll c.fills 0 { s with urb := { s.urb with td_cnt := 0 } } := by
  unfold tdSubmitJob Call.fills
  dsimp only
  split
  · split
    · rfl
    · rfl
  · by_cases empty : c.transfer_len = 0
    · rw [empty]
      rfl
    · rw [if_neg empty]
      exact fillBulk_eq _ _ _ _ _

lemma bulkFills_length (left : Nat) (data : UInt32) (data_len : Nat)
    (enough : data_len ≤ 4096 * (left + 1)) :
    (bulkFills left data data_len).length = (data_len - 1) / 4096 + 1 := by
  induction left generalizing data data_len with
  | zero =>
    rw [bulkFills, List.length_singleton]
    omega
  | succ left ih =>
    rw [bulkFills]
    split
    · rw [List.length_cons, ih _ _ (by omega)]
      omega
    · rw [List.length_singleton]
      omega

def Call.Short (c : Call) : Prop := c.control = true → c.transfer_len ≤ 4096

lemma fills_length (short : c.Short) : c.fills.length = c.size := by
  unfold Call.fills Call.size
  cases control : c.control with
  | true =>
    have few := short control
    rw [if_pos rfl, if_pos rfl]
    by_cases empty : c.transfer_len = 0
    · rw [if_neg (by omega), if_pos empty, if_pos empty]
      rfl
    · rw [if_pos (pos_of_ne_zero empty), if_neg empty, if_neg empty]
      change 3 = _
      omega
  | false =>
    rw [if_neg Bool.false_ne_true, if_neg Bool.false_ne_true]
    exact bulkFills_length _ _ _ (by omega)

/-- TDs of the URB, by their indices, with ranges of at most 4096 bytes, one behind the other. -/
def Tiles (s : State) : (addr : UInt32) → (len : Nat) → List Nat → Prop
  | _, len, [] => len = 0
  | addr, len, i :: rest => ∃ t n, s.urb.td i = some t ∧ 0 < n ∧ n ≤ 4096 ∧ n ≤ len ∧
      (s.td t).hwCBP = addr ∧ (s.td t).hwBE = addr + UInt32.ofNat n - 1 ∧
      Tiles s (addr + UInt32.ofNat n) (len - n) rest

/-- The indices of the data TDs: in a control transfer those between the setup and the status. -/
def dataIndices (s : State) (c : Call) : List Nat :=
  if c.transfer_len = 0 then []
  else if c.control then ((List.range s.urb.length.toNat).drop 1).dropLast
  else List.range s.urb.length.toNat

/-- The URB is finished exactly when none of its TDs is left in a queue or in a done list, and then
nothing but the dummies is. -/
structure Exact (s : State) (c : Call) : Prop where
  finished : s.urb_finished = true ↔
    ∀ i < c.size, ∀ t, s.urb.td i = some t → ¬ Reachable s t
  quiet : s.urb_finished = true → Quiet s

/-- An accepted call: as many TDs are filled as were allocated, and the data is spread over
them. -/
structure Submitted (s : State) (c : Call) : Prop where
  count : s.urb.length.toNat = c.fills.length
  tiles : Tiles s c.buffer c.transfer_len (dataIndices s c)
  exact : Exact s c

/-- The TD at an index of the URB was filled, and leads to `next`. -/
structure FilledTd (s : State) (i : Nat) (fill : UInt32 × Nat) (next : TdPtr) (t : Fin 64) :
    Prop where
  index : (s.td t).index = UInt8.ofNat i
  ed : (s.td t).ed = s.urb.ed
  hwNextTD : (s.td t).hwNextTD = next
  cbp : (s.td t).hwCBP = if fill.2 = 0 then 0 else fill.1
  be : (s.td t).hwBE = if (if fill.2 = 0 then 0 else fill.1) = 0 then 0
    else (if fill.2 = 0 then 0 else fill.1) + UInt32.ofNat fill.2 - 1

structure Still (s : State) : Prop where
  queues : ∀ e, e ≠ s.urb.ed → (s.ed e).hwHeadP = (s.ed e).hwTailP
  halted : ∀ e, (s.ed e).halted = false
  oper : (s.ed s.urb.ed).state = .oper
  done_head : s.done_head = none
  hcDoneHead : s.hcDoneHead = none
  td_cnt : s.urb.td_cnt = 0
  unfinished : s.urb_finished = false

/-- The first TDs of the URB are filled and queued, the dummy behind them. -/
structure Chain (s : State) (n : Nat) (fills : List (UInt32 × Nat)) : Prop where
  ready : Ready s n
  still : Still s
  head : (s.ed s.urb.ed).hwHeadP =
    if fills = [] then (s.ed s.urb.ed).hwTailP else s.urb.td 0
  filled : ∀ i fill, fills[i]? = some fill → ∀ t, s.urb.td i = some t →
    FilledTd s i fill
      (if i + 1 < fills.length then s.urb.td (i + 1) else (s.ed s.urb.ed).hwTailP) t

variable {s : State} {n : Nat} {fills : List (UInt32 × Nat)}

variable {s' : State}

/-- `td_fill` on the dummy `td`, where `td_pt` becomes the new one. -/
structure Filling (s s' : State) (fill : UInt32 × Nat) (index : Nat) (td td_pt : Fin 64) : Prop
    extends Fills s s' fill.1 fill.2 index td td_pt where
  apart : td_pt ≠ td
  here : FilledTd s' index fill (some td_pt) td
  others : ∀ u, u ≠ td → u ≠ td_pt → s'.td u = s.td u
  done : s'.done_head = s.done_head ∧ s'.hcDoneHead = s.hcDoneHead
  count : s'.urb.td_cnt = s.urb.td_cnt ∧ s'.urb_finished = s.urb_finished

lemma tdFill_filling (ready : Ready s n) (fill : UInt32 × Nat) {index : Nat} (inside : index < n) :
    ∃ td td_pt, Filling s (tdFill s fill.1 fill.2 index) fill index td td_pt := by
  obtain ⟨td, td_pt, fills⟩ :=
    tdFill_fills ready.owned ready.length ready.set_up fill.1 fill.2 inside
  have apart : td_pt ≠ td := by
    rintro rfl
    exact ready.owned.inside index td_pt (Nat.zero_le index) inside fills.old_td
      ⟨s.urb.ed, ready.set_up, fills.old_tail⟩
  have written : ((tdFill s fill.1 fill.2 index).td td = { s.td td with
        ed := s.urb.ed, index := UInt8.ofNat index, data := fill.1, cc := 15,
        hwCBP := if fill.2 = 0 then 0 else fill.1,
        hwBE := if (if fill.2 = 0 then 0 else fill.1) = 0 then 0
          else (if fill.2 = 0 then 0 else fill.1) + UInt32.ofNat fill.2 - 1,
        hwNextTD := some td_pt }) ∧
      (∀ u, u ≠ td → u ≠ td_pt → (tdFill s fill.1 fill.2 index).td u = s.td u) ∧
      ((tdFill s fill.1 fill.2 index).done_head = s.done_head ∧
        (tdFill s fill.1 fill.2 index).hcDoneHead = s.hcDoneHead) ∧
      (tdFill s fill.1 fill.2 index).urb.td_cnt = s.urb.td_cnt ∧
        (tdFill s fill.1 fill.2 index).urb_finished = s.urb_finished := by
    have length := ready.length
    unfold tdFill
    rw [if_neg (by omega), fills.old_td, fills.old_tail]
    dsimp only
    refine ⟨?_, fun u other other' => ?_, ⟨rfl, rfl⟩, rfl, rfl⟩
    · rw [setEd_td, setTd_self]
      congr 1
      exact congrArg Td.usb_dev (setTd_ne s _ apart.symm)
    · rw [setEd_td, setTd_ne _ _ other]
      exact setTd_ne s _ other'
  obtain ⟨here, others, done, count⟩ := written
  refine ⟨td, td_pt, { fills with apart, others, done, count, here := ?_ }⟩
  constructor <;> rw [here]
  exact fills.same.2.symm

lemma Filling.still {fill : UInt32 × Nat} {index : Nat} {td td_pt : Fin 64}
    (filling : Filling s s' fill index td td_pt) (still : Still s) : Still s' := by
  obtain ⟨length, ed⟩ := filling.same
  constructor
  · intro e other
    rw [ed] at other
    rw [filling.ed_other e other]
    exact still.queues e other
  · intro e
    by_cases here : e = s.urb.ed
    · rw [here, filling.ed_here]
      exact still.halted s.urb.ed
    · rw [filling.ed_other e here]
      exact still.halted e
  · rw [ed, filling.ed_here]
    exact still.oper
  · exact filling.done.1.trans still.done_head
  · exact filling.done.2.trans still.hcDoneHead
  · exact filling.count.1.trans still.td_cnt
  · exact filling.count.2.trans still.unfinished

lemma Filling.keeps_filled {fill : UInt32 × Nat} {td td_pt : Fin 64}
    (filling : Filling s s' fill fills.length td td_pt) (chain : Chain s n fills)
    (inside : fills.length < n) {i : Nat} {before : UInt32 × Nat} (at_i : fills[i]? = some before)
    {t : Fin 64} (there : s.urb.td i = some t) :
    FilledTd s' i before
      (if i + 1 < fills.length + 1 then s'.urb.td (i + 1) else some td_pt) t := by
  have owned := chain.ready.owned
  have less : i < fills.length := (List.getElem?_eq_some_iff.mp at_i).1
  have no_dummy : t ≠ td := by
    rintro rfl
    exact owned.inside i t (Nat.zero_le i) (less.trans inside) there
      ⟨s.urb.ed, chain.ready.set_up, filling.old_tail⟩
  have no_next : t ≠ td_pt := by
    rintro rfl
    have same := owned.distinct i fills.length t (Nat.zero_le i) (less.trans inside)
      (Nat.zero_le _) inside there filling.old_td
    omega
  have same : s'.td t = s.td t := filling.others t no_dummy no_next
  obtain ⟨index, ed, next, cbp, be⟩ := chain.filled i before at_i t there
  have leads : (s'.td t).hwNextTD = s'.urb.td (i + 1) := by
    rw [same, next]
    split
    · next more => exact (filling.urb_other (i + 1) (ne_of_lt more)).symm
    · next last =>
      have eq : i + 1 = fills.length := by omega
      rw [eq, filling.urb_here, filling.old_tail]
  rw [if_pos (by omega)]
  exact ⟨same ▸ index, by rw [same, ed, filling.same.2], leads, same ▸ cbp, same ▸ be⟩

lemma Chain.fill (chain : Chain s n fills) (inside : fills.length < n) (fill : UInt32 × Nat) :
    Chain (tdFill s fill.1 fill.2 fills.length) n (fills ++ [fill]) := by
  obtain ⟨td, td_pt, filling⟩ := tdFill_filling chain.ready fill inside
  generalize tdFill s fill.1 fill.2 fills.length = s' at filling
  have tail : (s'.ed s'.urb.ed).hwTailP = some td_pt := by
    rw [filling.same.2, filling.ed_here]
  refine ⟨filling.ready chain.ready inside, filling.still chain.still, ?_, ?_⟩
  · have same : (s'.ed s'.urb.ed).hwHeadP = (s.ed s.urb.ed).hwHeadP := by
      rw [filling.same.2, filling.ed_here]
    rw [if_neg (List.append_ne_nil_of_right_ne_nil _ (List.cons_ne_nil _ _)), same, chain.head]
    split
    · next first =>
      rw [filling.old_tail, ← filling.urb_here, first]
      rfl
    · next more =>
      refine (filling.urb_other 0 fun zero => more ?_).symm
      exact List.length_eq_zero_iff.mp zero.symm
  · intro i before at_i t there
    rw [tail, List.length_append, List.length_singleton]
    rcases lt_or_ge i fills.length with less | last
    · rw [List.getElem?_append_left less] at at_i
      rw [filling.urb_other i (ne_of_lt less)] at there
      exact filling.keeps_filled chain inside at_i there
    rw [List.getElem?_append_right last] at at_i
    obtain ⟨here, same⟩ := List.getElem?_eq_some_iff.mp at_i
    have index : i = fills.length := by
      rw [List.length_singleton] at here
      omega
    subst index
    rw [List.getElem_singleton] at same
    subst same
    obtain rfl := Option.some.inj (filling.urb_here.symm.trans there)
    rw [if_neg (lt_irrefl _)]
    exact filling.here

lemma Chain.fillAll {more : List (UInt32 × Nat)} (chain : Chain s n fills)
    (enough : fills.length + more.length ≤ n) :
    Chain (fillAll more fills.length s) n (fills ++ more) := by
  induction more generalizing s fills with
  | nil =>
    rw [List.append_nil]
    exact chain
  | cons fill rest ih =>
    rw [List.length_cons] at enough
    have next := ih (chain.fill (by omega) fill) (by
      rw [List.length_append, List.length_singleton]
      omega)
    rw [List.length_append, List.length_singleton, List.append_assoc] at next
    exact next

def Marked (s : State) : Prop :=
  ∀ e, (s.ed e).halted = true → s.done_head ≠ none ∨ s.hcDoneHead ≠ none

lemma Marked.unhalted (marked : Marked s) (quiet : Quiet s) (e : Fin 32) :
    (s.ed e).halted = false := by
  by_contra halted
  rcases marked e (Bool.eq_true_of_not_eq_false halted) with listed | listed
  · exact listed quiet.done_head
  · exact listed quiet.hcDoneHead

lemma SameQueues.marked (same : SameQueues s s') (marked : Marked s) : Marked s' := by
  intro e halted
  rw [same.ed] at halted
  rw [same.done_head, same.hcDoneHead]
  exact marked e halted

lemma epAddEd_marked (added : epAddEd s c = some s') (marked : Marked s) :
    Marked s' := by
  have replaced (t : State) (td : TdPtr) (same : SameQueues s t) :
      Marked (t.setEd c.edIndex ⟨td, td, false, .unlink⟩) := by
    intro e halted
    by_cases here : e = c.edIndex
    · rw [here, setEd_self] at halted
      cases halted
    · rw [setEd_ne _ _ here] at halted
      exact same.marked marked e halted
  unfold epAddEd at added
  dsimp only at added
  split at added
  · cases added
  split at added
  · cases added
    cases tdAlloc s with
    | none => exact replaced s none (.refl s)
    | some t => exact replaced _ _ ⟨rfl, rfl, rfl⟩
  · cases added
    exact marked

lemma epAddEd_finished (added : epAddEd s c = some s') :
    s'.urb_finished = s.urb_finished := by
  unfold epAddEd at added
  dsimp only at added
  split at added
  · cases added
  split at added
  · cases added
    cases tdAlloc s <;> rfl
  · cases added
    rfl

/-- What `td_submit_job` starts with: the TDs are there and the ED is linked, with the queues as
they were. -/
structure Linked (s s' : State) (c : Call) : Prop where
  ready : Ready s' c.size
  ed : s'.urb.ed = c.edIndex
  oper : (s'.ed c.edIndex).state = .oper
  queues : ∀ e, (s'.ed e).hwHeadP = (s.ed e).hwHeadP ∧ (s'.ed e).hwTailP = (s.ed e).hwTailP ∧
    (s'.ed e).halted = (s.ed e).halted
  done_head : s'.done_head = s.done_head
  hcDoneHead : s'.hcDoneHead = s.hcDoneHead
  finished : s'.urb_finished = s.urb_finished

lemma epLink_linked (ready : Ready s' c.size) (ed : s'.urb.ed = c.edIndex) (same : SameQueues s s')
    (finished : s'.urb_finished = s.urb_finished) :
    Linked s (epLink s' c.edIndex) c := by
  have there : (s'.ed c.edIndex).state ≠ .new := ed ▸ ready.set_up
  refine ⟨(epLink_sameUrb s' there).ready ready, ed, ?_, ?_, same.done_head, same.hcDoneHead,
    finished⟩
  · rw [epLink, setEd_self]
  · intro e
    rw [← same.ed]
    by_cases here : e = c.edIndex
    · subst here
      rw [epLink, setEd_self]
      exact ⟨rfl, rfl, rfl⟩
    · rw [epLink, setEd_ne _ _ here]
      exact ⟨rfl, rfl, rfl⟩

lemma allocAndFill_linked (owned : Owned s 0 0) (small : c.size < 47)
    (set_up : (s.ed c.edIndex).state ≠ .new) (accepted : (allocAndFill s c).accepted = true) :
    ∃ s', (allocAndFill s c).state = tdSubmitJob s' c ∧ Linked s s' c := by
  have start : SameOwners s (fillPriv s c) := ⟨fun _ => Iff.rfl, fun _ => rfl, rfl, fun _ => rfl⟩
  obtain ⟨taken, -⟩ := allocTds_owned (start.owned owned) (by omega : c.size + 0 < 65536)
  have keeps := allocTds_keeps c.size 0 (fillPriv s c)
  have same := (fillPriv_sameQueues s c).trans (allocTds_sameQueues c.size 0 _)
  unfold allocAndFill at accepted ⊢
  by_cases enough : (allocTds c.size 0 (fillPriv s c)).accepted = true
  · obtain ⟨length, ed⟩ := allocTds_urb enough
    have ready : Ready (allocTds c.size 0 (fillPriv s c)).state c.size := by
      refine ⟨taken enough, ?_, ?_⟩
      · rw [length]
        change (UInt16.ofNat c.size).toNat = c.size
        rw [UInt16.toNat_ofNat']
        omega
      · rw [ed, keeps.state]
        exact set_up
    rw [if_neg (by simp [enough])] at accepted ⊢
    split at accepted
    · cases accepted
    next present =>
    rw [if_neg present]
    split
    · exact ⟨_, rfl, epLink_linked ready ed same keeps.finished⟩
    next linked =>
    have oper := not_not.mp linked
    exact ⟨_, rfl, ready, ed, oper, fun e => by rw [same.ed]; exact ⟨rfl, rfl, rfl⟩,
      same.done_head, same.hcDoneHead, keeps.finished⟩
  · rw [if_pos (by simpa using enough)] at accepted
    exact absurd accepted enough

lemma Linked.chain {s' : State} {c : Call} (linked : Linked s s' c) (quiet : Quiet s)
    (unhalted : ∀ e, (s.ed e).halted = false) (unfinished : s.urb_finished = false) :
    Chain { s' with urb := { s'.urb with td_cnt := 0 } } c.size [] := by
  have same : SameUrb s' { s' with urb := { s'.urb with td_cnt := 0 } } :=
    ⟨⟨fun _ => Iff.rfl, fun _ => rfl, rfl, fun _ => rfl⟩, rfl, rfl⟩
  have queue (e : Fin 32) : (s'.ed e).hwHeadP = (s'.ed e).hwTailP := by
    rw [(linked.queues e).1, (linked.queues e).2.1]
    exact quiet.queues e
  refine ⟨same.ready linked.ready, ⟨fun e _ => queue e, ?_, ?_, ?_, ?_, rfl, ?_⟩, ?_, nofun⟩
  · intro e
    exact (linked.queues e).2.2.trans (unhalted e)
  · exact linked.ed ▸ linked.oper
  · exact linked.done_head.trans quiet.done_head
  · exact linked.hcDoneHead.trans quiet.hcDoneHead
  · exact linked.finished.trans unfinished
  · rw [if_pos rfl]
    exact queue _

lemma tdFill_ed (s : State) (data : UInt32) (len index : Nat) :
    (tdFill s data len index).urb.ed = s.urb.ed := by
  unfold tdFill
  split
  · rfl
  · split <;> rfl

lemma fillAll_ed (fills : List (UInt32 × Nat)) (cnt : Nat) (s : State) :
    (fillAll fills cnt s).urb.ed = s.urb.ed := by
  induction fills generalizing cnt s with
  | nil => rfl
  | cons fill rest ih => exact (ih (cnt + 1) _).trans (tdFill_ed s fill.1 fill.2 cnt)

lemma sohciSubmitJob_chain (owned : Owned s 0 0) (quiet : Quiet s) (marked : Marked s)
    (short : c.Short) (accepted : (sohciSubmitJob s c).accepted = true) : c.size < 47 ∧
      (sohciSubmitJob s c).state.urb.ed = c.edIndex ∧
      Chain (sohciSubmitJob s c).state c.size c.fills := by
  have same : SameOwners s { s with urb_finished := false } :=
    ⟨fun _ => Iff.rfl, fun _ => rfl, rfl, fun _ => rfl⟩
  have queues : SameQueues s { s with urb_finished := false } := ⟨rfl, rfl, rfl⟩
  unfold sohciSubmitJob at accepted ⊢
  split at accepted
  · cases accepted
  next enabled =>
  split at accepted
  · cases accepted
  next finished =>
  rw [if_neg enabled, if_neg finished]
  dsimp only at accepted ⊢
  cases added : epAddEd { s with urb_finished := false } c with
  | none =>
    rw [added] at accepted
    cases accepted
  | some next =>
    rw [added] at accepted
    dsimp only at accepted ⊢
    split at accepted
    · cases accepted
    next small =>
    rw [if_neg small]
    have few : c.size < 47 := Nat.lt_of_not_le small
    obtain ⟨owned', set_up⟩ := epAddEd_owned (same.owned owned) added
    have quiet' := (epAddEd_quiet added).1 (queues.quiet quiet)
    have unhalted := (epAddEd_marked added (queues.marked marked)).unhalted quiet'
    have unfinished : next.urb_finished = false := epAddEd_finished added
    obtain ⟨s', filled, linked⟩ := allocAndFill_linked owned' few set_up accepted
    have chain := @Chain.fillAll _ _ _ c.fills (linked.chain quiet' unhalted unfinished) (by
      rw [fills_length short]
      exact le_of_eq (zero_add _))
    rw [filled, tdSubmitJob_eq]
    exact ⟨few, (fillAll_ed _ _ _).trans linked.ed, chain⟩

/-- The buffer pointers of the TD at an index are those of a call of `td_fill`. -/
def Points (s : State) (i : Nat) (fill : UInt32 × Nat) : Prop :=
  ∃ t, s.urb.td i = some t ∧ ∃ next, FilledTd s i fill next t

lemma Chain.points (chain : Chain s n fills) (enough : fills.length ≤ n) {i : Nat}
    {fill : UInt32 × Nat} (at_i : fills[i]? = some fill) : Points s i fill := by
  have less := (List.getElem?_eq_some_iff.mp at_i).1
  obtain ⟨t, there⟩ := chain.ready.owned.present i (Nat.zero_le i) (by omega)
  exact ⟨t, there, _, chain.filled i fill at_i t there⟩

lemma Points.tiles {i : Nat} {data : UInt32} {n len : Nat} {rest : List Nat}
    (points : Points s i (data, n)) (address : 0 < data.toNat) (some_bytes : 0 < n) (few : n ≤ 4096)
    (part : n ≤ len) (tiles : Tiles s (data + UInt32.ofNat n) (len - n) rest) :
    Tiles s data len (i :: rest) := by
  obtain ⟨t, there, next, filled⟩ := points
  have nonzero : n ≠ 0 := Nat.ne_of_gt some_bytes
  have not_null : data ≠ 0 := by
    rintro rfl
    exact lt_irrefl 0 address
  have cbp := filled.cbp
  have be := filled.be
  rw [if_neg nonzero] at cbp be
  rw [if_neg not_null] at be
  exact ⟨t, n, there, some_bytes, few, part, cbp, be, tiles⟩

lemma bulk_tiles (left : Nat) (data : UInt32) (data_len cnt : Nat) (some_bytes : 0 < data_len)
    (enough : data_len ≤ 4096 * (left + 1)) (address : 0 < data.toNat)
    (memory : data.toNat + data_len ≤ 4294967296)
    (points : ∀ k fill, (bulkFills left data data_len)[k]? = some fill → Points s (cnt + k) fill) :
    Tiles s data data_len (List.range' cnt (bulkFills left data data_len).length) := by
  induction left generalizing data data_len cnt with
  | zero =>
    exact (points 0 _ rfl).tiles address some_bytes (by omega) le_rfl (Nat.sub_self _)
  | succ left ih =>
    rw [bulkFills] at points ⊢
    split at points
    · next more =>
      rw [if_pos more, List.length_cons, List.range'_succ]
      have next : (data + 4096).toNat = data.toNat + 4096 := by
        rw [UInt32.toNat_add]
        change (data.toNat + 4096) % 2 ^ 32 = data.toNat + 4096
        omega
      refine (points 0 _ rfl).tiles address (by decide) (by decide) (by omega) ?_
      refine ih (data + 4096) (data_len - 4096) (cnt + 1) (by omega) (by omega) (by omega)
        (by omega) fun k fill at_k => ?_
      rw [add_assoc, add_comm 1 k]
      exact points (k + 1) fill at_k
    · next last =>
      rw [if_neg last]
      exact (points 0 _ rfl).tiles address some_bytes (by omega) le_rfl (Nat.sub_self _)

lemma Chain.tiles (chain : Chain s c.size c.fills) (short : c.Short)
    (memory : 0 < c.transfer_len → c.InMemory) :
    Tiles s c.buffer c.transfer_len (dataIndices s c) := by
  have length := fills_length short
  have points (i : Nat) (fill : UInt32 × Nat) (at_i : c.fills[i]? = some fill) :
      Points s i fill := chain.points (le_of_eq length) at_i
  unfold dataIndices
  split
  · next empty => exact empty
  next some_bytes =>
  obtain ⟨address, room⟩ := memory (pos_of_ne_zero some_bytes)
  rw [chain.ready.length, ← length]
  cases control : c.control with
  | true =>
    have fills : c.fills = [(c.setup, 8), (c.buffer, c.transfer_len), (c.buffer, 0)] := by
      unfold Call.fills
      rw [control, if_pos rfl, if_pos (pos_of_ne_zero some_bytes), if_neg some_bytes]
    rw [fills] at points ⊢
    exact (points 1 _ rfl).tiles address (pos_of_ne_zero some_bytes) (short control)
      le_rfl (Nat.sub_self _)
  | false =>
    have fills : c.fills = bulkFills c.transfer_len c.buffer c.transfer_len := by
      unfold Call.fills
      rw [control, if_neg Bool.false_ne_true, if_neg some_bytes]
    rw [if_neg Bool.false_ne_true, List.range_eq_range', fills]
    rw [fills] at points
    exact bulk_tiles _ _ _ _ (pos_of_ne_zero some_bytes) (by omega) address room
      fun k fill at_k => (zero_add k).symm ▸ points k fill at_k

end Ohci
