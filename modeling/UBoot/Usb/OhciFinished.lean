import UBoot.Usb.Ohci
import Mathlib.Data.Fintype.Card

/-!
# No URB is left unfinished

`urb_finished` is cleared by a submit, and set when the last TD of the URB was counted or the
time is over. Here: exactly which steps end a call with the flag still clear.
-/

namespace Ohci

open Runs

/-! ## What most functions do not change -/

variable {s s' : State}

structure Keeps (s s' : State) : Prop where
  finished : s'.urb_finished = s.urb_finished
  disabled : s'.disabled = s.disabled
  state : ∀ e, (s'.ed e).state = (s.ed e).state

lemma Keeps.refl (s : State) : Keeps s s := ⟨rfl, rfl, fun _ => rfl⟩

lemma Keeps.trans {s'' : State} (first : Keeps s s') (second : Keeps s' s'') :
    Keeps s s'' :=
  ⟨second.finished.trans first.finished, second.disabled.trans first.disabled,
    fun e => (second.state e).trans (first.state e)⟩

lemma Keeps.foldl {α : Type} {f : State → α → State} (one : ∀ s a, Keeps s (f s a)) (s : State)
    (as : List α) : Keeps s (as.foldl f s) := by
  induction as generalizing s with
  | nil => exact .refl s
  | cons a as ih => exact (one s a).trans (ih (f s a))

lemma setEd_state (s : State) {e : Fin 32} {d : Ed} (same : d.state = (s.ed e).state)
    (e' : Fin 32) : ((s.setEd e d).ed e').state = (s.ed e').state := by
  by_cases here : e' = e
  · subst here
    rw [setEd_self, same]
  · rw [setEd_ne s d here]

lemma freeTd_keeps (s : State) (i : Nat) : Keeps s (freeTd s i) := by
  unfold freeTd
  split
  · exact ⟨rfl, rfl, fun _ => rfl⟩
  · exact .refl s

lemma urbFreePriv_keeps (s : State) : Keeps s (urbFreePriv s) := Keeps.foldl freeTd_keeps s _

lemma takeTd_keeps {i : Nat} (took : takeTd s i = some s') : Keeps s s' := by
  obtain ⟨t, -, rfl⟩ := Option.map_eq_some_iff.mp took
  exact ⟨rfl, rfl, fun _ => rfl⟩

lemma allocTds_keeps (left i : Nat) (s : State) : Keeps s (allocTds left i s).state := by
  induction left generalizing i s with
  | zero => exact .refl s
  | succ left ih =>
    rw [allocTds]
    split
    · rename_i next took
      exact (takeTd_keeps took).trans (ih (i + 1) next)
    · exact ⟨(urbFreePriv_keeps _).finished, (urbFreePriv_keeps _).disabled,
        (urbFreePriv_keeps _).state⟩

lemma tdFill_keeps (s : State) (data : UInt32) (len index : Nat) :
    Keeps s (tdFill s data len index) := by
  unfold tdFill
  split
  · exact .refl s
  · split
    · exact ⟨rfl, rfl, setEd_state _ rfl⟩
    · exact .refl s

lemma fillBulk_keeps (left : Nat) (s : State) (data : UInt32) (data_len cnt : Nat) :
    Keeps s (fillBulk left s data data_len cnt) := by
  induction left generalizing s data data_len cnt with
  | zero => exact tdFill_keeps s data data_len cnt
  | succ left ih =>
    rw [fillBulk]
    split
    · exact (tdFill_keeps s data 4096 cnt).trans (ih _ _ _ _)
    · exact tdFill_keeps s data data_len cnt

lemma tdSubmitJob_keeps (s : State) (c : Call) : Keeps s (tdSubmitJob s c) := by
  have start : Keeps s { s with urb := { s.urb with td_cnt := 0 } } := ⟨rfl, rfl, fun _ => rfl⟩
  unfold tdSubmitJob
  dsimp only
  split
  · split
    · exact start.trans (((tdFill_keeps _ _ _ _).trans (tdFill_keeps _ _ _ _)).trans
        (tdFill_keeps _ _ _ _))
    · exact start.trans ((tdFill_keeps _ _ _ _).trans (tdFill_keeps _ _ _ _))
  · exact start.trans (fillBulk_keeps _ _ _ _ _)

lemma reverseTd_keeps (s : State) (t : Fin 64) : Keeps s (reverseTd s t) := by
  unfold reverseTd
  dsimp only
  split
  · split
    · exact ⟨rfl, rfl, setEd_state _ rfl⟩
    · exact ⟨rfl, rfl, setEd_state _ rfl⟩
  · exact .refl s

lemma retire_cases (s : State) (e : Fin 32) (cc : Fin 16) (bytes : Nat) :
    retire s e cc bytes = s ∨ ∃ t, (s.ed e).hwHeadP = some t ∧ (s.ed e).state = .oper ∧
      (s.ed e).hwHeadP ≠ (s.ed e).hwTailP ∧ cc < 14 ∧
      retire s e cc bytes = popHead s e t cc bytes := by
  unfold retire
  split
  · exact .inl rfl
  rename_i t head
  split
  · rename_i guard
    exact .inr ⟨t, head, guard.1, guard.2.2.1, guard.2.2.2, rfl⟩
  · exact .inl rfl

lemma retire_keeps (s : State) (e : Fin 32) (cc : Fin 16) (bytes : Nat) :
    Keeps s (retire s e cc bytes) := by
  rcases retire_cases s e cc bytes with same | ⟨t, -, -, -, -, popped⟩
  · rw [same]
    exact .refl s
  · rw [popped]
    exact ⟨rfl, rfl, setEd_state s (d := { s.ed e with
      hwHeadP := (s.td t).hwNextTD, halted := cc ≠ 0 }) rfl⟩

lemma writeDone_cases (s : State) (other : Bool) : writeDone s other = s ∨
    (s.done_head = none ∧ writeDone s other =
      { s with done_head := s.hcDoneHead, done_other := other, hcDoneHead := none }) := by
  unfold writeDone
  split
  · rename_i guard
    exact .inr ⟨guard.1, rfl⟩
  · exact .inl rfl

lemma writeDone_keeps (s : State) (other : Bool) : Keeps s (writeDone s other) := by
  rcases writeDone_cases s other with same | ⟨-, written⟩
  · rw [same]
    exact .refl s
  · rw [written]
    exact ⟨rfl, rfl, fun _ => rfl⟩

lemma hcAct_keeps (s : State) (act : HcAct) : Keeps s (hcAct s act) := by
  cases act with
  | retire e cc bytes => exact retire_keeps s e cc bytes
  | writeDone other => exact writeDone_keeps s other

/-! ## The pool -/

def free (s : State) : Nat := (Finset.univ.filter fun t => (s.td t).usb_dev = false).card

lemma tdAlloc_some {t : Fin 64} (got : tdAlloc s = some t) :
    (s.td t).usb_dev = false := by
  have found := List.find?_some got
  simpa using found

lemma tdAlloc_none_iff (s : State) : tdAlloc s = none ↔ free s = 0 := by
  rw [free, Finset.card_eq_zero, Finset.filter_eq_empty_iff, tdAlloc, List.find?_eq_none]
  constructor
  · intro all t _ free
    exact all t (List.mem_finRange t) (by simp [free])
  · intro all t _ free
    exact all (Finset.mem_univ t) (by simpa using free)

lemma free_setOwner {t : Fin 64} (unused : (s.td t).usb_dev = false) :
    free (s.setOwner t true) + 1 = free s := by
  have erased : (Finset.univ.filter fun i => ((s.setOwner t true).td i).usb_dev = false) =
      (Finset.univ.filter fun i => (s.td i).usb_dev = false).erase t := by
    ext i
    rw [Finset.mem_erase, Finset.mem_filter, Finset.mem_filter, owner_setOwner]
    by_cases here : i = t
    · simp [here]
    · simp [here]
  have mem : t ∈ Finset.univ.filter fun i => (s.td i).usb_dev = false := by simp [unused]
  rw [free, erased, free]
  exact Finset.card_erase_add_one mem

lemma free_takeTd {i : Nat} (took : takeTd s i = some s') :
    free s' + 1 = free s := by
  obtain ⟨t, got, rfl⟩ := Option.map_eq_some_iff.mp took
  exact free_setOwner (tdAlloc_some got)

lemma takeTd_none_iff (s : State) (i : Nat) : takeTd s i = none ↔ free s = 0 := by
  rw [takeTd, Option.map_eq_none_iff, tdAlloc_none_iff]

lemma allocTds_accepted_iff (left i : Nat) (s : State) :
    (allocTds left i s).accepted = true ↔ left ≤ free s := by
  induction left generalizing i s with
  | zero => simp [allocTds]
  | succ left ih =>
    rw [allocTds]
    rcases took : takeTd s i with _ | next
    · have empty := (takeTd_none_iff s i).mp took
      simp [empty]
    · have used := free_takeTd took
      rw [ih (i + 1) next]
      omega

def needed (s : State) (c : Call) : Nat :=
  c.size + if (s.ed c.edIndex).state = .new then 1 else 0

def NoneRemoved (s : State) : Prop := ∀ e, (s.ed e).state ≠ .del ∧ (s.ed e).state ≠ .urbDel

lemma Keeps.noneRemoved (keeps : Keeps s s') (none_removed : NoneRemoved s) :
    NoneRemoved s' := by
  intro e
  rw [keeps.state e]
  exact none_removed e

lemma size_pos (c : Call) : 0 < c.size := by
  unfold Call.size
  split
  · split <;> omega
  · omega

lemma epAddEd_some {c : Call} (none_removed : NoneRemoved s) :
    ∃ s', epAddEd s c = some s' ∧ NoneRemoved s' ∧ (s'.ed c.edIndex).state ≠ .new ∧
      s'.urb_finished = s.urb_finished ∧ s'.disabled = s.disabled ∧
      (c.size ≤ free s' ↔ needed s c ≤ free s) := by
  have present := none_removed c.edIndex
  unfold epAddEd
  rw [if_neg (not_or.mpr present)]
  by_cases fresh : (s.ed c.edIndex).state = .new
  · rw [if_pos fresh]
    have after (s' : State) (td : TdPtr) (same : s'.ed = s.ed) : NoneRemoved
        (s'.setEd c.edIndex ⟨td, td, false, .unlink⟩) := by
      intro e
      by_cases here : e = c.edIndex
      · subst here
        rw [setEd_self]
        exact ⟨nofun, nofun⟩
      · rw [setEd_ne _ _ here, same]
        exact none_removed e
    have some_size := size_pos c
    rcases got : tdAlloc s with _ | t
    · refine ⟨_, rfl, after s none rfl, ?_, rfl, rfl, ?_⟩
      · rw [setEd_self]
        exact nofun
      · have empty : free (s.setEd c.edIndex ⟨none, none, false, .unlink⟩) = 0 :=
          (tdAlloc_none_iff s).mp got
        have empty_before := (tdAlloc_none_iff s).mp got
        simp only [needed, fresh, if_true, empty, empty_before]
        omega
    · refine ⟨_, rfl, after (s.setOwner t true) (some t) rfl, ?_, rfl, rfl, ?_⟩
      · rw [setEd_self]
        exact nofun
      · have used : free ((s.setOwner t true).setEd c.edIndex ⟨some t, some t, false, .unlink⟩) +
            1 = free s := free_setOwner (tdAlloc_some got)
        simp only [needed, fresh, if_true]
        omega
  · rw [if_neg fresh]
    exact ⟨s, rfl, none_removed, fresh, rfl, rfl, by simp [needed, fresh]⟩

/-! ## Submitting -/

def Fits (s : State) (c : Call) : Prop := c.size < 47 ∧ needed s c ≤ free s

lemma epLink_noneRemoved (none_removed : NoneRemoved s) (e : Fin 32) :
    NoneRemoved (epLink s e) := by
  intro i
  by_cases here : i = e
  · subst here
    rw [epLink, setEd_self]
    exact ⟨nofun, nofun⟩
  · rw [epLink, setEd_ne _ _ here]
    exact none_removed i

lemma allocAndFill_spec {c : Call} (none_removed : NoneRemoved s)
    (present : (s.ed c.edIndex).state ≠ .new) :
    ((allocAndFill s c).accepted = true ↔ c.size ≤ free s) ∧
      NoneRemoved (allocAndFill s c).state ∧
      (allocAndFill s c).state.urb_finished = s.urb_finished ∧
      (allocAndFill s c).state.disabled = s.disabled := by
  have start : Keeps s (fillPriv s c) := ⟨rfl, rfl, fun _ => rfl⟩
  have keeps := start.trans (allocTds_keeps c.size 0 (fillPriv s c))
  have accepted := allocTds_accepted_iff c.size 0 (fillPriv s c)
  unfold allocAndFill
  by_cases enough : (allocTds c.size 0 (fillPriv s c)).accepted = true
  · have dropped : ¬(((allocTds c.size 0 (fillPriv s c)).state.ed c.edIndex).state = .new ∨
        ((allocTds c.size 0 (fillPriv s c)).state.ed c.edIndex).state = .del) := by
      rw [keeps.state c.edIndex, not_or]
      exact ⟨present, (none_removed c.edIndex).1⟩
    rw [if_neg (by simp [enough]), if_neg dropped]
    split
    · have filled := tdSubmitJob_keeps (epLink (allocTds c.size 0 (fillPriv s c)).state c.edIndex) c
      exact ⟨iff_of_true rfl (accepted.mp enough),
        filled.noneRemoved (epLink_noneRemoved (keeps.noneRemoved none_removed) _),
        filled.finished.trans keeps.finished, filled.disabled.trans keeps.disabled⟩
    · have filled := keeps.trans (tdSubmitJob_keeps (allocTds c.size 0 (fillPriv s c)).state c)
      exact ⟨iff_of_true rfl (accepted.mp enough), filled.noneRemoved none_removed,
        filled.finished, filled.disabled⟩
  · rw [if_pos (by simpa using enough)]
    exact ⟨iff_of_false enough (mt accepted.mpr enough), keeps.noneRemoved none_removed,
      keeps.finished, keeps.disabled⟩

lemma sohciSubmitJob_spec (c : Call) (none_removed : NoneRemoved s) (enabled : s.disabled = 0)
    (finished : s.urb_finished = true) :
    ((sohciSubmitJob s c).accepted = true ↔ Fits s c) ∧
      NoneRemoved (sohciSubmitJob s c).state ∧
      (sohciSubmitJob s c).state.urb_finished = false ∧
      (sohciSubmitJob s c).state.disabled = 0 := by
  obtain ⟨s', added, none_removed', present, unfinished, still, enough⟩ :=
    epAddEd_some (s := { s with urb_finished := false }) (c := c) none_removed
  unfold sohciSubmitJob
  rw [if_neg (by simp [enabled]), if_neg (by simp [finished])]
  dsimp only
  rw [added]
  dsimp only
  by_cases long : 47 ≤ c.size
  · rw [if_pos long]
    exact ⟨iff_of_false nofun (fun fits => not_lt.mpr long fits.1), none_removed', unfinished,
      still.trans enabled⟩
  · rw [if_neg long]
    obtain ⟨accepted, kept, finished', disabled'⟩ := allocAndFill_spec none_removed' present
    refine ⟨?_, kept, finished'.trans unfinished, disabled'.trans (still.trans enabled)⟩
    rw [accepted, enough]
    exact ⟨fun fits => ⟨not_le.mp long, fits⟩, And.right⟩

/-! ## Done lists -/

/-- What `dl_reverse_done_list` adds to `td_cnt` for the TDs it cuts off. -/
def cutOff : State → List (Fin 64) → UInt16
  | _, [] => 0
  | s, t :: chain =>
    (if (s.td t).cc ≠ 0 ∧ (s.ed (s.td t).ed).halted ∧
        (s.td t).index.toNat + 1 < s.urb.length.toNat then
      s.urb.length - (s.td t).index.toUInt16 - 1
    else 0) + cutOff (reverseTd s t) chain

def InUse (s : State) (e : Fin 32) : Prop := (s.ed e).state = .oper ∨ (s.ed e).state = .unlink

/-- The done list, newest first, ends the URB: with what is cut off, one of its TDs is the last. -/
def Completes (s : State) (chain : List (Fin 64)) : Prop :=
  ∃ k t, chain.reverse[k]? = some t ∧
    s.urb.td_cnt + cutOff s.taken chain + UInt16.ofNat (k + 1) = s.urb.length ∧
    InUse s (s.td t).ed

lemma reverseTd_td (s : State) (t : Fin 64) : (reverseTd s t).td = s.td := by
  unfold reverseTd
  dsimp only
  split
  · split <;> rfl
  · rfl

lemma reverseTd_length (s : State) (t : Fin 64) :
    (reverseTd s t).urb.length = s.urb.length := by
  unfold reverseTd
  dsimp only
  split
  · split <;> rfl
  · rfl

lemma reverseTd_cnt (s : State) (t : Fin 64) : (reverseTd s t).urb.td_cnt = s.urb.td_cnt +
    if (s.td t).cc ≠ 0 ∧ (s.ed (s.td t).ed).halted ∧
        (s.td t).index.toNat + 1 < s.urb.length.toNat then
      s.urb.length - (s.td t).index.toUInt16 - 1
    else 0 := by
  unfold reverseTd
  by_cases error : (s.td t).cc ≠ 0 ∧ (s.ed (s.td t).ed).halted
  · rw [if_pos error]
    by_cases behind : (s.td t).index.toNat + 1 < s.urb.length.toNat
    · rw [if_pos behind, if_pos ⟨error.1, error.2, behind⟩]
    · rw [if_neg behind, if_neg (fun h => behind h.2.2), UInt16.add_zero]
      rfl
  · rw [if_neg error, if_neg (fun h => error ⟨h.1, h.2.1⟩), UInt16.add_zero]

lemma reverse_spec (chain : List (Fin 64)) (s : State) :
    Keeps s (chain.foldl reverseTd s) ∧ (chain.foldl reverseTd s).td = s.td ∧
      (chain.foldl reverseTd s).urb.length = s.urb.length ∧
      (chain.foldl reverseTd s).urb.td_cnt = s.urb.td_cnt + cutOff s chain := by
  refine ⟨Keeps.foldl reverseTd_keeps s chain, ?_⟩
  induction chain generalizing s with
  | nil => exact ⟨rfl, rfl, (UInt16.add_zero _).symm⟩
  | cons t chain ih =>
    obtain ⟨td, length, cnt⟩ := ih (reverseTd s t)
    refine ⟨td.trans (reverseTd_td s t), length.trans (reverseTd_length s t), ?_⟩
    rw [List.foldl_cons, cnt, reverseTd_cnt, cutOff, UInt16.add_assoc]

lemma dlTransferLength_only (s : State) (td : Td) :
    ∃ n, dlTransferLength s td = { s with urb := { s.urb with actual_length := n } } := by
  unfold dlTransferLength
  split
  · exact ⟨s.urb.actual_length, rfl⟩
  · exact ⟨_, rfl⟩

lemma countTd_only (s : State) (e : Fin 32) : ∃ b,
    countTd s e = { s with urb := { s.urb with td_cnt := s.urb.td_cnt + 1 }, urb_finished := b } ∧
      (b = true ↔ s.urb_finished = true ∨
        (s.urb.td_cnt + 1 = s.urb.length ∧ InUse s e)) := by
  unfold countTd
  dsimp only
  split
  · rename_i last
    exact ⟨true, rfl, iff_of_true rfl (.inr last)⟩
  · rename_i more
    exact ⟨s.urb_finished, rfl, (or_iff_left more).symm⟩

lemma unlinkIdle_only (s : State) (e : Fin 32) : unlinkIdle s e = s ∨
    ((s.ed e).state = .oper ∧ unlinkIdle s e = s.setEd e { s.ed e with state := .unlink }) := by
  unfold unlinkIdle
  split
  · rename_i idle
    exact .inr ⟨idle.2, rfl⟩
  · exact .inl rfl

lemma unlink_inUse {e : Fin 32} (oper : (s.ed e).state = .oper) (i : Fin 32) :
    InUse (s.setEd e { s.ed e with state := .unlink }) i ↔ InUse s i := by
  by_cases here : i = e
  · subst here
    rw [InUse, setEd_self]
    exact iff_of_true (.inr rfl) (.inl oper)
  · rw [InUse, setEd_ne _ _ here]
    rfl

lemma unlink_noneRemoved (none_removed : NoneRemoved s) (e : Fin 32) :
    NoneRemoved (s.setEd e { s.ed e with state := .unlink }) := by
  intro i
  by_cases here : i = e
  · subst here
    rw [setEd_self]
    exact ⟨nofun, nofun⟩
  · rw [setEd_ne _ _ here]
    exact none_removed i

lemma doneTd_spec (s : State) (t : Fin 64) :
    (doneTd s t).td = s.td ∧ (doneTd s t).urb.length = s.urb.length ∧
      (doneTd s t).urb.td_cnt = s.urb.td_cnt + 1 ∧ (doneTd s t).disabled = s.disabled ∧
      (∀ e, InUse (doneTd s t) e ↔ InUse s e) ∧ (NoneRemoved s → NoneRemoved (doneTd s t)) ∧
      ((doneTd s t).urb_finished = true ↔ s.urb_finished = true ∨
        (s.urb.td_cnt + 1 = s.urb.length ∧ InUse s (s.td t).ed)) := by
  obtain ⟨n, moved⟩ := dlTransferLength_only s (s.td t)
  obtain ⟨b, counted, finished⟩ := countTd_only (dlTransferLength s (s.td t)) (s.td t).ed
  rw [moved] at counted finished
  rw [doneTd, moved, counted]
  set more : State := { s with
    urb := { s.urb with actual_length := n, td_cnt := s.urb.td_cnt + 1 }, urb_finished := b }
  rcases unlinkIdle_only more (s.td t).ed with same | ⟨oper, unlinked⟩
  · rw [same]
    exact ⟨rfl, rfl, rfl, rfl, fun _ => Iff.rfl, id, finished⟩
  · rw [unlinked]
    exact ⟨rfl, rfl, rfl, rfl, unlink_inUse oper,
      fun none_removed => unlink_noneRemoved (s := more) none_removed _, finished⟩

lemma done_spec (tds : List (Fin 64)) (s : State) :
    (tds.foldl doneTd s).disabled = s.disabled ∧
      (NoneRemoved s → NoneRemoved (tds.foldl doneTd s)) ∧
      ((tds.foldl doneTd s).urb_finished = true ↔ s.urb_finished = true ∨
        ∃ k t, tds[k]? = some t ∧ s.urb.td_cnt + UInt16.ofNat (k + 1) = s.urb.length ∧
          InUse s (s.td t).ed) := by
  induction tds generalizing s with
  | nil => simp
  | cons t tds ih =>
    obtain ⟨td, length, cnt, disabled, inUse, removed, finished⟩ := doneTd_spec s t
    obtain ⟨disabled', removed', finished'⟩ := ih (doneTd s t)
    refine ⟨disabled'.trans disabled, fun h => removed' (removed h), ?_⟩
    rw [List.foldl_cons, finished', finished, or_assoc]
    refine or_congr_right ?_
    simp only [td, length, cnt, inUse]
    have next (k : Nat) : s.urb.td_cnt + 1 + UInt16.ofNat (k + 1) =
        s.urb.td_cnt + UInt16.ofNat (k + 1 + 1) := by
      rw [UInt16.ofNat_add (k + 1) 1, UInt16.add_assoc, UInt16.add_comm 1]
      rfl
    constructor
    · rintro (⟨last, used⟩ | ⟨k, u, at_k, last, used⟩)
      · exact ⟨0, t, rfl, last, used⟩
      · exact ⟨k + 1, u, at_k, (next k).symm.trans last, used⟩
    · rintro ⟨k, u, at_k, last, used⟩
      cases k with
      | zero =>
        cases at_k
        exact .inl ⟨last, used⟩
      | succ k =>
        exact .inr ⟨k, u, at_k, (next k).trans last, used⟩

/-! ## Interrupts -/

variable {intrstatus : UInt32}

def Fatal (s : State) (intrstatus : UInt32) : Prop :=
  (¬(s.done_head ≠ none ∧ !s.done_other) ∧ intrstatus = 0xffffffff) ∨
    pending s intrstatus &&& intrUE ≠ 0

def Overrun (s : State) (intrstatus : UInt32) : Prop := pending s intrstatus &&& intrSO ≠ 0

def listed (s : State) (intrstatus : UInt32) : Option (List (Fin 64)) :=
  if pending s intrstatus &&& intrWDH ≠ 0 then doneChain s 64 s.done_head else some []

/-- The loop is left for an overrun, or for an error code without a name of its own, and the
URB is not at its end. -/
def LeavesUnfinished (s : State) (intrstatus : UInt32) : Prop :=
  ¬Fatal s intrstatus ∧ ∃ chain ∈ listed s intrstatus,
    (Overrun s intrstatus ∨ lastError s chain.reverse < 0) ∧ s.urb_finished = false ∧
      ¬Completes s chain

lemma pending_masked (s : State) (intrstatus : UInt32) :
    pending s intrstatus &&& intrenable = pending s intrstatus := by
  unfold pending
  split
  · rfl
  · rw [UInt32.and_assoc, UInt32.and_self]

lemma pending_sf (s : State) (intrstatus : UInt32) : pending s intrstatus &&& intrSF = 0 := by
  rw [← pending_masked, UInt32.and_assoc]
  exact UInt32.and_zero

lemma pending_bits (no_ue : pending s intrstatus &&& intrUE = 0)
    (no_wdh : pending s intrstatus &&& intrWDH = 0) (no_so : pending s intrstatus &&& intrSO = 0)
    (no_rhsc : pending s intrstatus &&& intrRHSC = 0) : pending s intrstatus = 0 := by
  have split (a b : UInt32) : pending s intrstatus &&& (a ||| b) =
      pending s intrstatus &&& a ||| pending s intrstatus &&& b := by
    apply UInt32.toBitVec_inj.mp
    exact BitVec.and_or_distrib_left
  rw [← pending_masked, intrenable, split, split, split, no_ue, no_wdh, no_so, no_rhsc]
  rfl

lemma hcInterrupt_cases {stat : Int} (served : hcInterrupt s intrstatus = some (stat, s')) :
    (Fatal s intrstatus ∧ stat = -1 ∧ s' = { s with disabled := s.disabled + 1 }) ∨
    (¬Fatal s intrstatus ∧ ∃ chain ∈ listed s intrstatus,
      (stat < 0 ↔ Overrun s intrstatus ∨ lastError s chain.reverse < 0) ∧
      s'.disabled = s.disabled ∧ (NoneRemoved s → NoneRemoved s') ∧
      (s'.urb_finished = true ↔ s.urb_finished = true ∨ Completes s chain)) := by
  have quiet (s : State) : ¬Completes s [] := by
    rintro ⟨k, t, at_k, -⟩
    cases at_k
  unfold hcInterrupt at served
  by_cases gone : ¬(s.done_head ≠ none ∧ !s.done_other) ∧ intrstatus = 0xffffffff
  · rw [if_pos gone] at served
    cases served
    exact .inl ⟨.inl gone, rfl, rfl⟩
  rw [if_neg gone] at served
  by_cases nothing : pending s intrstatus = 0
  · rw [if_pos nothing] at served
    cases served
    refine .inr ⟨?_, [], ?_, ?_, rfl, id, (or_iff_left (quiet s)).symm⟩
    · rintro (h | h)
      · exact gone h
      · exact h (by rw [nothing, UInt32.zero_and])
    · rw [listed, nothing, UInt32.zero_and]
      rfl
    · apply iff_of_false
      · decide
      · rintro (h | h)
        · exact h (by rw [nothing, UInt32.zero_and])
        · exact absurd h (Int.lt_irrefl 0)
  rw [if_neg nothing, serve] at served
  by_cases failed : pending s intrstatus &&& intrUE ≠ 0
  · rw [if_pos failed] at served
    cases served
    exact .inl ⟨.inr failed, rfl, rfl⟩
  rw [if_neg failed] at served
  obtain ⟨⟨stat', s''⟩, list_served, same⟩ := Option.map_eq_some_iff.mp served
  simp only [pending_sf, ne_eq, not_true_eq_false, if_false, Prod.mk.injEq] at same
  obtain ⟨stat_eq, rfl⟩ := same
  refine .inr ⟨not_or.mpr ⟨gone, failed⟩, ?_⟩
  by_cases wdh : pending s intrstatus &&& intrWDH ≠ 0
  · rw [if_pos wdh] at list_served
    obtain ⟨⟨tds, s₁⟩, reversed, done⟩ := Option.map_eq_some_iff.mp list_served
    obtain ⟨chain, list, both⟩ := Option.map_eq_some_iff.mp reversed
    cases both
    cases done
    obtain ⟨keeps, td, length, cnt⟩ := reverse_spec chain s.taken
    obtain ⟨disabled, removed, finished⟩ :=
      done_spec chain.reverse (chain.foldl reverseTd s.taken)
    refine ⟨chain, ?_, ?_, disabled.trans keeps.disabled,
      fun none_removed => removed (keeps.noneRemoved none_removed), ?_⟩
    · rw [listed, if_pos wdh]
      exact list
    · have same_error : lastError (chain.foldl reverseTd s.taken) chain.reverse =
          lastError s chain.reverse := by
        unfold lastError
        rw [td]
        rfl
      rw [← stat_eq, same_error, Overrun]
      split
      · rename_i overrun
        exact iff_of_true (by decide) (.inl overrun)
      · rename_i other
        exact (or_iff_right other).symm
    · rw [finished, keeps.finished]
      refine or_congr_right ?_
      simp only [td, length, cnt, InUse, keeps.state]
      rfl
  · rw [if_neg wdh] at list_served
    cases list_served
    refine ⟨[], ?_, ?_, rfl, id, (or_iff_left (quiet s)).symm⟩
    · rw [listed, if_neg wdh]
      rfl
    · rw [← stat_eq, Overrun]
      split
      · rename_i overrun
        exact iff_of_true (by decide) (.inl overrun)
      rename_i other
      have rhsc : pending s intrstatus &&& intrRHSC ≠ 0 := fun zero =>
        nothing (pending_bits (not_not.mp failed) (not_not.mp wdh) (not_not.mp other) zero)
      rw [if_pos rhsc]
      refine iff_of_false (by decide) (not_or.mpr ⟨other, ?_⟩)
      exact Int.lt_irrefl 0

lemma hcInterrupt_none (hangs : hcInterrupt s intrstatus = none) :
    ¬LeavesUnfinished s intrstatus := by
  rintro ⟨alive, chain, list, -⟩
  rw [Fatal, not_or] at alive
  rw [hcInterrupt, if_neg alive.1] at hangs
  by_cases nothing : pending s intrstatus = 0
  · rw [if_pos nothing] at hangs
    cases hangs
  rw [if_neg nothing, serve, if_neg alive.2] at hangs
  by_cases wdh : pending s intrstatus &&& intrWDH ≠ 0
  · rw [listed, if_pos wdh] at list
    simp [dlReverseDoneList, Option.mem_def.mp list, wdh] at hangs
  · simp [wdh] at hangs

/-! ## Runs -/

def Settled (h : Host) : Prop :=
  h.phase = .idle → h.s.urb_finished = true ∨ h.s.disabled ≠ 0

/-- Which steps keep it so: a submit finds its TDs, and the loop is not left with the URB
unfinished. -/
def Meets (h : Host) : Input → Prop
  | .submit c => h.phase = .idle → c.maxsize ≠ 0 → h.s.disabled = 0 → Fits h.s c
  | .hc _ => True
  | .poll intrstatus => h.phase ≠ .idle → ¬LeavesUnfinished h.s intrstatus

structure Sound (h : Host) : Prop where
  noneRemoved : NoneRemoved h.s
  enabled : h.phase ≠ .idle → h.s.disabled = 0

lemma submit_spec {h : Host} (c : Call) (sound : Sound h) (idle : h.phase = .idle)
    (settled : Settled h) : Sound (submit h c) ∧
      (Settled (submit h c) ↔ (c.maxsize ≠ 0 → h.s.disabled = 0 → Fits h.s c)) := by
  unfold submit
  by_cases no_pipe : c.maxsize = 0
  · rw [if_pos no_pipe]
    exact ⟨⟨sound.noneRemoved, sound.enabled⟩, iff_of_true settled (fun h => absurd no_pipe h)⟩
  rw [if_neg no_pipe]
  by_cases enabled : h.s.disabled = 0
  · have finished := (settled idle).resolve_right (fun h => h enabled)
    obtain ⟨accepted, removed, unfinished, disabled⟩ :=
      sohciSubmitJob_spec c sound.noneRemoved enabled finished
    by_cases fits : Fits h.s c
    · rw [if_pos (accepted.mpr fits)]
      exact ⟨⟨removed, fun _ => disabled⟩, iff_of_true nofun (fun _ _ => fits)⟩
    rw [if_neg (mt accepted.mp fits)]
    refine ⟨⟨removed, fun h => absurd rfl h⟩, iff_of_false ?_ (fun h => fits (h no_pipe enabled))⟩
    intro still
    rcases still rfl with set | off
    · rw [unfinished] at set
      cases set
    · exact off disabled
  · have same : sohciSubmitJob h.s c = ⟨false, h.s⟩ := if_pos enabled
    rw [same]
    exact ⟨⟨sound.noneRemoved, fun h => absurd rfl h⟩,
      iff_of_true (fun _ => .inr enabled) (fun _ h => absurd h enabled)⟩

lemma finish_spec (c : Call) (stat : Int) (removed : NoneRemoved s) :
    Sound (finish s c stat) ∧
      (Settled (finish s c stat) ↔ s.urb_finished = true ∨ s.disabled ≠ 0) := by
  have keeps := urbFreePriv_keeps s
  refine ⟨⟨keeps.noneRemoved removed, fun h => absurd rfl h⟩, ?_⟩
  rw [← keeps.finished, ← keeps.disabled]
  exact ⟨fun settled => settled rfl, fun holds _ => holds⟩

lemma turn_spec (c : Call) (timeout : Nat) (stat : Int) (removed : NoneRemoved s)
    (enabled : 0 ≤ stat → s.disabled = 0) : Sound (turn c timeout stat s) ∧
      (Settled (turn c timeout stat s) ↔
        ¬(stat < 0 ∧ s.urb_finished = false ∧ s.disabled = 0)) := by
  unfold turn
  by_cases negative : stat < 0
  · rw [if_pos negative]
    obtain ⟨sound, settled⟩ := finish_spec c 0x20 removed
    refine ⟨sound, settled.trans ?_⟩
    cases s.urb_finished <;> simp [negative]
  rw [if_neg negative]
  have no : ¬(stat < 0 ∧ s.urb_finished = false ∧ s.disabled = 0) := fun h => negative h.1
  split
  · rename_i done
    obtain ⟨sound, settled⟩ := finish_spec c stat removed
    exact ⟨sound, iff_of_true (settled.mpr (.inl done.2)) no⟩
  · split
    · obtain ⟨sound, settled⟩ :=
        finish_spec (s := { s with urb_finished := true }) c 0x20 removed
      exact ⟨sound, iff_of_true (settled.mpr (.inl rfl)) no⟩
    · exact ⟨⟨removed, fun _ => enabled (Int.not_lt.mp negative)⟩, iff_of_true nofun no⟩

lemma poll_spec {stat : Int} (c : Call) (timeout : Nat) (removed : NoneRemoved s)
    (enabled : s.disabled = 0) (served : hcInterrupt s intrstatus = some (stat, s')) :
    Sound (turn c timeout stat s') ∧
      (Settled (turn c timeout stat s') ↔ ¬LeavesUnfinished s intrstatus) := by
  rcases hcInterrupt_cases served with ⟨fatal, rfl, rfl⟩ | ⟨alive, chain, list, negative, rest⟩
  · obtain ⟨sound, settled⟩ := turn_spec (s := { s with disabled := s.disabled + 1 }) c timeout
      (-1) removed (fun h => absurd h (by decide))
    refine ⟨sound, iff_of_true (settled.mpr ?_) (fun h => h.1 fatal)⟩
    exact fun h => absurd h.2.2 (Nat.succ_ne_zero _)
  obtain ⟨disabled, removed', finished⟩ := rest
  have enabled' : s'.disabled = 0 := disabled.trans enabled
  obtain ⟨sound, settled⟩ := turn_spec c timeout stat (removed' removed) (fun _ => enabled')
  refine ⟨sound, settled.trans (not_congr ?_)⟩
  have unfinished : s'.urb_finished = false ↔ s.urb_finished = false ∧ ¬Completes s chain := by
    rw [← Bool.not_eq_true, finished, not_or, Bool.not_eq_true]
  constructor
  · rintro ⟨low, flag, -⟩
    exact ⟨alive, chain, list, negative.mp low, unfinished.mp flag⟩
  · rintro ⟨-, chain', list', low, flag⟩
    obtain rfl := Option.mem_unique list list'
    exact ⟨negative.mpr low, unfinished.mpr flag, enabled'⟩

lemma step_spec {h h' : Host} {i : Input} (sound : Sound h) (settled : Settled h)
    (taken : step h i = some h') : Sound h' ∧ (Meets h i ↔ Settled h') := by
  cases i with
  | submit c =>
    rcases h with ⟨s, _ | ⟨c', timeout⟩, result⟩
    · cases taken
      obtain ⟨sound', settled'⟩ := submit_spec c sound rfl settled
      exact ⟨sound', ⟨fun meets => settled'.mpr (meets rfl), fun h _ => settled'.mp h⟩⟩
    · cases taken
  | hc act =>
    cases taken
    have keeps := hcAct_keeps h.s act
    refine ⟨⟨keeps.noneRemoved sound.noneRemoved, ?_⟩, iff_of_true trivial ?_⟩
    · intro waits
      exact keeps.disabled.trans (sound.enabled waits)
    · intro idle
      rw [keeps.finished, keeps.disabled]
      exact settled idle
  | poll intrstatus =>
    rcases h with ⟨s, _ | ⟨c, timeout⟩, result⟩
    · cases taken
    obtain ⟨⟨stat, s'⟩, served, rfl⟩ := Option.map_eq_some_iff.mp taken
    obtain ⟨sound', settled'⟩ :=
      poll_spec c timeout sound.noneRemoved (sound.enabled nofun) served
    exact ⟨sound', ⟨fun meets => settled'.mpr (meets nofun), fun h _ => settled'.mp h⟩⟩

lemma stuck_meets {h : Host} {i : Input} (stuck : step h i = none) : Meets h i := by
  cases i with
  | submit c =>
    rcases h with ⟨s, _ | ⟨c', timeout⟩, result⟩
    · cases stuck
    · intro idle
      cases idle
  | hc act => trivial
  | poll intrstatus =>
    rcases h with ⟨s, _ | ⟨c, timeout⟩, result⟩
    · exact fun waits => absurd rfl waits
    · exact fun _ => hcInterrupt_none (Option.map_eq_none_iff.mp stuck)

/-- In a run of calls, controller steps and interrupts `urb_finished` is set after each call,
unless the controller is disabled, if and only if every submit finds its TDs and no loop is left
with an unfinished URB. -/
theorem urb_finished_iff (inputs : List Input) : StepsMeet step Meets Host.init inputs ↔
    ∀ done todo, inputs = done ++ todo → ∀ h, runFrom step Host.init done = some h →
      Settled h := by
  apply stepsMeet_iff Sound
  · exact fun h i _ stuck => stuck_meets stuck
  · exact fun h i h' sound settled taken => (step_spec sound settled taken).2
  · exact fun h i h' sound settled taken => (step_spec sound settled taken).1
  · exact ⟨fun _ => ⟨nofun, nofun⟩, fun h => absurd rfl h⟩
  · exact fun _ => .inl rfl

def longCall : Call := ⟨1, false, true, 64, 0x30000000, 188417, 0⟩

def shortCall : Call := ⟨1, false, true, 64, 0x30000000, 31, 0⟩

/-- A bulk transfer of 188417 bytes needs 47 TDs and is refused. So is every call after it. -/
theorem long_call_wedges : ∃ h, runFrom step Host.init [.submit longCall] = some h ∧
    h.phase = .idle ∧ h.s.urb_finished = false ∧ h.s.disabled = 0 ∧
    runFrom step h [.submit shortCall] = some { h with result := some .refused } := by
  exact ⟨_, rfl, rfl, rfl, rfl, rfl⟩

end Ohci
