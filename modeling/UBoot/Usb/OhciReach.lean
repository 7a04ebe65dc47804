import UBoot.Usb.OhciFill

/-!
# TDs the controller can still reach

`td_alloc` may give out a TD only when neither an ED nor a done list leads to it. It does so as
long as every call ends with nothing queued and nothing left to process.
-/

namespace Ohci

open Runs

variable {s : State}

/-- The TDs from a pointer on, along `hwNextTD`, up to the one at `tail`. -/
inductive InQueue (s : State) (tail : TdPtr) : TdPtr → Fin 64 → Prop
  | here (t : Fin 64) : InQueue s tail (some t) t
  | next {t u : Fin 64} (before : some t ≠ tail)
      (rest : InQueue s tail (s.td t).hwNextTD u) : InQueue s tail (some t) u

def Reachable (s : State) (t : Fin 64) : Prop :=
  (∃ e, (s.ed e).hwTailP = some t ∨ InQueue s (s.ed e).hwTailP (s.ed e).hwHeadP t) ∨
    InQueue s none s.done_head t ∨ InQueue s none s.hcDoneHead t

structure Quiet (s : State) : Prop where
  queues : ∀ e, (s.ed e).hwHeadP = (s.ed e).hwTailP
  done_head : s.done_head = none
  hcDoneHead : s.hcDoneHead = none

instance (s : State) : Decidable (Quiet s) :=
  decidable_of_iff ((∀ e, (s.ed e).hwHeadP = (s.ed e).hwTailP) ∧ s.done_head = none ∧
    s.hcDoneHead = none) ⟨fun h => ⟨h.1, h.2.1, h.2.2⟩, fun h => ⟨h.1, h.2, h.3⟩⟩

lemma inQueue_self {p : TdPtr} {t : Fin 64} (found : InQueue s p p t) :
    p = some t := by
  rcases found with _ | ⟨before, -⟩
  · rfl
  · exact absurd rfl before

lemma Quiet.reachable (quiet : Quiet s) {t : Fin 64} (reachable : Reachable s t) :
    ∃ e, (s.ed e).hwTailP = some t := by
  rcases reachable with ⟨e, tail | queued⟩ | done | done
  · exact ⟨e, tail⟩
  · rw [quiet.queues e] at queued
    exact ⟨e, inQueue_self queued⟩
  · rw [quiet.done_head] at done
    cases done
  · rw [quiet.hcDoneHead] at done
    cases done

def Untouched (s : State) : Prop := ∀ e, (s.ed e).state = .new → (s.ed e).hwTailP = none

lemma tdAlloc_unreachable {n : Nat} (owned : Owned s 0 n) (quiet : Quiet s)
    (untouched : Untouched s) {t : Fin 64} (got : tdAlloc s = some t) : ¬Reachable s t := by
  intro reachable
  obtain ⟨e, tail⟩ := quiet.reachable reachable
  have set_up : (s.ed e).state ≠ .new := by
    intro fresh
    rw [untouched e fresh] at tail
    cases tail
  have used := (owned.owner t).mpr (.inl ⟨e, set_up, tail⟩)
  rw [tdAlloc_some got] at used
  cases used

/-- The states in which the loop of `sohci_submit_job` calls `td_alloc`. -/
def loopPoints : (left i : Nat) → State → List State
  | 0, _, _ => []
  | left + 1, i, s => s :: match takeTd s i with
    | some s => loopPoints left (i + 1) s
    | none => []

/-- The states in which a submit that comes to `ep_add_ed` calls `td_alloc`. -/
def allocPoints (s : State) (c : Call) : List State :=
  let s := { s with urb_finished := false }
  (if (s.ed c.edIndex).state = .new then [s] else []) ++ match epAddEd s c with
    | none => []
    | some s => if 47 ≤ c.size then [] else loopPoints c.size 0 (fillPriv s c)

/-- The submit uses an ED of `ohci_dev`, gives it a dummy that is not null, and takes no TD that
can be reached. -/
structure SafeSubmit (s : State) (c : Call) : Prop where
  inside : c.edIndex.val < numEds
  dummy : (s.ed c.edIndex).state = .new → tdAlloc s ≠ none
  unreachable : ∀ p ∈ allocPoints s c, ∀ t, tdAlloc p = some t → ¬Reachable p t

def Proceeds (h : Host) (c : Call) : Prop :=
  h.phase.isIdle = true ∧ c.maxsize ≠ 0 ∧ h.s.disabled = 0 ∧ h.s.urb_finished = true

instance (h : Host) (c : Call) : Decidable (Proceeds h c) := by
  unfold Proceeds
  infer_instance

def Safe (h : Host) : Input → Prop
  | .submit c => Proceeds h c → SafeSubmit h.s c
  | .hc _ => True
  | .poll _ => True

/-- Submits are for the endpoints 0 to 3, and when the TDs of a call are freed nothing is queued
or left to process. -/
def Clean (h : Host) : Input → Prop
  | .submit c => Proceeds h c → c.endpoint < 4
  | .hc _ => True
  | .poll intrstatus => match h.phase, hcInterrupt h.s intrstatus with
    | .waiting c timeout, some (stat, s) => (turn c timeout stat s).phase.isIdle = true → Quiet s
    | _, _ => True

variable {s' : State}

structure SameQueues (s s' : State) : Prop where
  ed : s'.ed = s.ed
  done_head : s'.done_head = s.done_head
  hcDoneHead : s'.hcDoneHead = s.hcDoneHead

lemma SameQueues.refl (s : State) : SameQueues s s := ⟨rfl, rfl, rfl⟩

lemma SameQueues.trans {s'' : State} (first : SameQueues s s') (second : SameQueues s' s'') :
    SameQueues s s'' :=
  ⟨second.ed.trans first.ed, second.done_head.trans first.done_head,
    second.hcDoneHead.trans first.hcDoneHead⟩

lemma SameQueues.quiet (same : SameQueues s s') (quiet : Quiet s) : Quiet s' where
  queues e := by
    rw [same.ed]
    exact quiet.queues e
  done_head := same.done_head.trans quiet.done_head
  hcDoneHead := same.hcDoneHead.trans quiet.hcDoneHead

lemma SameQueues.untouched (same : SameQueues s s') (untouched : Untouched s) :
    Untouched s' := by
  intro e
  rw [same.ed]
  exact untouched e

lemma takeTd_sameQueues {i : Nat} (took : takeTd s i = some s') :
    SameQueues s s' := by
  obtain ⟨t, -, rfl⟩ := Option.map_eq_some_iff.mp took
  exact ⟨rfl, rfl, rfl⟩

lemma freeTd_sameQueues (s : State) (i : Nat) : SameQueues s (freeTd s i) := by
  unfold freeTd
  split
  · exact ⟨rfl, rfl, rfl⟩
  · exact .refl s

lemma urbFreePriv_sameQueues (s : State) : SameQueues s (urbFreePriv s) := by
  have loop (is : List Nat) (s : State) : SameQueues s (is.foldl freeTd s) := by
    induction is generalizing s with
    | nil => exact .refl s
    | cons i is ih => exact (freeTd_sameQueues s i).trans (ih _)
  exact loop _ s

lemma allocTds_sameQueues (left i : Nat) (s : State) :
    SameQueues s (allocTds left i s).state := by
  induction left generalizing i s with
  | zero => exact .refl s
  | succ left ih =>
    rw [allocTds]
    split
    · rename_i next took
      exact (takeTd_sameQueues took).trans (ih (i + 1) next)
    · have shorter : SameQueues s { s with urb := { s.urb with length := UInt16.ofNat i } } :=
        ⟨rfl, rfl, rfl⟩
      exact shorter.trans (urbFreePriv_sameQueues _)

lemma fillPriv_sameQueues (s : State) (c : Call) : SameQueues s (fillPriv s c) := ⟨rfl, rfl, rfl⟩

lemma SameOwners.untouched (same : SameOwners s s') (untouched : Untouched s) :
    Untouched s' := by
  intro e fresh
  rw [same.tail e]
  exact untouched e ((same.fresh e).mp fresh)

lemma setEd_untouched {e : Fin 32} {d : Ed} (set_up : d.state ≠ .new) (untouched : Untouched s) :
    Untouched (s.setEd e d) := by
  intro i fresh
  by_cases here : i = e
  · rw [here, setEd_self] at fresh
    exact absurd fresh set_up
  · rw [setEd_ne _ _ here] at fresh ⊢
    exact untouched i fresh

lemma tdFill_untouched (data : UInt32) (len index : Nat) (untouched : Untouched s) :
    Untouched (tdFill s data len index) := by
  unfold tdFill
  split
  · exact untouched
  split
  · rename_i td_pt td at_index tail
    have set_up : (s.ed s.urb.ed).state ≠ .new := by
      intro fresh
      rw [untouched _ fresh] at tail
      cases tail
    exact setEd_untouched set_up untouched
  · exact untouched

lemma fillBulk_untouched (left : Nat) (data : UInt32) (data_len cnt : Nat) (untouched : Untouched s)
    : Untouched (fillBulk left s data data_len cnt) := by
  induction left generalizing s data data_len cnt with
  | zero => exact tdFill_untouched data data_len cnt untouched
  | succ left ih =>
    rw [fillBulk]
    split
    · exact ih _ _ _ (tdFill_untouched data 4096 cnt untouched)
    · exact tdFill_untouched data data_len cnt untouched

lemma tdSubmitJob_untouched (c : Call) (untouched : Untouched s) :
    Untouched (tdSubmitJob s c) := by
  have start : Untouched { s with urb := { s.urb with td_cnt := 0 } } := untouched
  unfold tdSubmitJob
  dsimp only
  split
  · have first := tdFill_untouched c.setup 8 0 start
    split
    · exact tdFill_untouched _ 0 2 (tdFill_untouched _ c.transfer_len 1 first)
    · exact tdFill_untouched _ 0 1 first
  · exact fillBulk_untouched _ _ _ _ start

lemma setEd_quiet (e : Fin 32) (td : TdPtr) (quiet : Quiet s) :
    Quiet (s.setEd e ⟨td, td, false, .unlink⟩) where
  queues i := by
    by_cases here : i = e
    · rw [here, setEd_self]
    · rw [setEd_ne _ _ here]
      exact quiet.queues i
  done_head := quiet.done_head
  hcDoneHead := quiet.hcDoneHead

lemma epAddEd_quiet {c : Call} (added : epAddEd s c = some s') :
    (Quiet s → Quiet s') ∧ (Untouched s → Untouched s') := by
  unfold epAddEd at added
  dsimp only at added
  split at added
  · cases added
  split at added
  · cases added
    have set_up : EdState.unlink ≠ .new := by decide
    rcases tdAlloc s with _ | t
    · exact ⟨setEd_quiet _ none, setEd_untouched set_up⟩
    · have taken : SameQueues s (s.setOwner t true) := ⟨rfl, rfl, rfl⟩
      exact ⟨fun quiet => setEd_quiet _ _ (taken.quiet quiet),
        fun untouched => setEd_untouched set_up (taken.untouched untouched)⟩
  · cases added
    exact ⟨id, id⟩

lemma loopPoints_spec {left i : Nat} (owned : Owned s 0 i) :
    ∀ p ∈ loopPoints left i s, SameQueues s p ∧ ∃ n, Owned p 0 n := by
  induction left generalizing i s with
  | zero => exact nofun
  | succ left ih =>
    intro p mem
    rcases List.mem_cons.mp mem with rfl | later
    · exact ⟨.refl _, i, owned⟩
    rcases took : takeTd s i with _ | next
    · rw [took] at later
      cases later
    · rw [took] at later
      obtain ⟨same, some_owned⟩ := ih (takeTd_owned owned took) p later
      exact ⟨(takeTd_sameQueues took).trans same, some_owned⟩

lemma safeSubmit_of_quiet {c : Call} (owned : Owned s 0 0) (quiet : Quiet s)
    (untouched : Untouched s) (low : c.endpoint < 4) : SafeSubmit s c where
  inside := by
    unfold Call.edIndex numEds
    dsimp only
    split
    · omega
    · split <;> omega
  dummy _ := by
    obtain ⟨t, got⟩ := tdAlloc_idle owned
    rw [got]
    exact nofun
  unreachable p mem t got := by
    have start : SameQueues s { s with urb_finished := false } := ⟨rfl, rfl, rfl⟩
    have same : SameOwners s { s with urb_finished := false } :=
      ⟨fun _ => Iff.rfl, fun _ => rfl, rfl, fun _ => rfl⟩
    rcases List.mem_append.mp mem with first | later
    · split at first
      · obtain rfl := List.mem_singleton.mp first
        exact tdAlloc_unreachable (same.owned owned) (start.quiet quiet)
          (start.untouched untouched) got
      · cases first
    rcases added : epAddEd { s with urb_finished := false } c with _ | next
    · rw [added] at later
      cases later
    rw [added] at later
    dsimp only at later
    split at later
    · cases later
    obtain ⟨quiet', untouched'⟩ := epAddEd_quiet added
    have filled : SameOwners next (fillPriv next c) :=
      ⟨fun _ => Iff.rfl, fun _ => rfl, rfl, fun _ => rfl⟩
    obtain ⟨kept, n, owned'⟩ := loopPoints_spec
      (filled.owned (epAddEd_owned (same.owned owned) added).1) p later
    have queues := (fillPriv_sameQueues next c).trans kept
    exact tdAlloc_unreachable owned' (queues.quiet (quiet' (start.quiet quiet)))
      (queues.untouched (untouched' (start.untouched untouched))) got

lemma allocAndFill_quiet (s : State) (c : Call) :
    (Untouched s → Untouched (allocAndFill s c).state) ∧
      ((allocAndFill s c).accepted = false → Quiet s → Quiet (allocAndFill s c).state) := by
  have taken := (fillPriv_sameQueues s c).trans (allocTds_sameQueues c.size 0 _)
  unfold allocAndFill
  dsimp only
  split
  · exact ⟨taken.untouched, fun _ => taken.quiet⟩
  split
  · have freed := taken.trans (urbFreePriv_sameQueues _)
    exact ⟨freed.untouched, fun _ => freed.quiet⟩
  split
  · refine ⟨fun untouched => tdSubmitJob_untouched c ?_, nofun⟩
    exact setEd_untouched nofun (taken.untouched untouched)
  · exact ⟨fun untouched => tdSubmitJob_untouched c (taken.untouched untouched), nofun⟩

lemma sohciSubmitJob_quiet (s : State) (c : Call) :
    (Untouched s → Untouched (sohciSubmitJob s c).state) ∧
      ((sohciSubmitJob s c).accepted = false → Quiet s → Quiet (sohciSubmitJob s c).state) := by
  have start : SameQueues s { s with urb_finished := false } := ⟨rfl, rfl, rfl⟩
  unfold sohciSubmitJob
  split
  · exact ⟨id, fun _ => id⟩
  split
  · exact ⟨id, fun _ => id⟩
  dsimp only
  split
  · exact ⟨start.untouched, fun _ => start.quiet⟩
  rename_i next added
  obtain ⟨quiet, untouched⟩ := epAddEd_quiet added
  split
  · exact ⟨fun h => untouched (start.untouched h), fun _ h => quiet (start.quiet h)⟩
  · obtain ⟨filled, refused⟩ := allocAndFill_quiet next c
    exact ⟨fun h => filled (untouched (start.untouched h)),
      fun bad h => refused bad (quiet (start.quiet h))⟩

structure Settles (h : Host) : Prop where
  reach : Reach h
  untouched : Untouched h.s
  quiet : h.phase.isIdle = true → Quiet h.s

lemma submit_settles {h : Host} (c : Call) (settles : Settles h)
    (idle : h.phase.isIdle = true) :
    Untouched (submit h c).s ∧ ((submit h c).phase.isIdle = true → Quiet (submit h c).s) := by
  obtain ⟨untouched, quiet⟩ := sohciSubmitJob_quiet h.s c
  unfold submit
  split
  · exact ⟨settles.untouched, settles.quiet⟩
  dsimp only
  split
  · exact ⟨untouched settles.untouched, nofun⟩
  · rename_i refused
    refine ⟨untouched settles.untouched, fun _ => quiet ?_ (settles.quiet idle)⟩
    simpa using refused

lemma hcAct_quiet (act : HcAct) (quiet : Quiet s) : hcAct s act = s := by
  cases act with
  | retire e cc bytes =>
    rcases retire_cases s e cc bytes with same | ⟨t, -, -, queued, -⟩
    · exact same
    · exact absurd (quiet.queues e) queued
  | writeDone other =>
    rw [hcAct, writeDone, if_neg (fun h => h.2 quiet.hcDoneHead)]

lemma turn_sameQueues (c : Call) (timeout : Nat) (stat : Int) (s : State) :
    SameQueues s (turn c timeout stat s).s := by
  unfold turn
  split
  · exact urbFreePriv_sameQueues s
  split
  · exact urbFreePriv_sameQueues s
  split
  · have same : SameQueues s { s with urb_finished := true } := ⟨rfl, rfl, rfl⟩
    exact same.trans (urbFreePriv_sameQueues _)
  · exact .refl s

lemma step_settles {h h' : Host} {i : Input} (settles : Settles h) (clean : Clean h i)
    (taken : step h i = some h') : Settles h' := by
  have reach := step_reach settles.reach taken
  rcases h with ⟨s, _ | ⟨c, timeout⟩, result⟩
  · cases i with
    | submit c =>
      cases taken
      obtain ⟨untouched, quiet⟩ := submit_settles c settles rfl
      exact ⟨reach, untouched, quiet⟩
    | hc act =>
      cases taken
      have nothing := hcAct_quiet act (settles.quiet rfl)
      refine ⟨reach, ?_, ?_⟩
      · exact (hcAct_sameUrb s act).untouched settles.untouched
      · intro _
        rw [nothing]
        exact settles.quiet rfl
    | poll intrstatus => cases taken
  · cases i with
    | submit c => cases taken
    | hc act =>
      cases taken
      exact ⟨reach, (hcAct_sameUrb s act).untouched settles.untouched, nofun⟩
    | poll intrstatus =>
      obtain ⟨⟨stat, s'⟩, served, rfl⟩ := Option.map_eq_some_iff.mp taken
      have same := turn_sameQueues c timeout stat s'
      refine ⟨reach, ?_, ?_⟩
      · exact same.untouched ((hcInterrupt_sameUrb served).1.untouched settles.untouched)
      · intro idle
        unfold Clean at clean
        dsimp only at clean served
        rw [served] at clean
        exact same.quiet (clean idle)

lemma step_safe {h : Host} {i : Input} (settles : Settles h) (clean : Clean h i) : Safe h i := by
  cases i with
  | submit c =>
    intro proceeds
    rcases h with ⟨s, _ | ⟨c', timeout⟩, result⟩
    · exact safeSubmit_of_quiet settles.reach (settles.quiet rfl) settles.untouched
        (clean proceeds)
    · cases proceeds.1
  | hc act => trivial
  | poll intrstatus => trivial

/-- In a run of calls, controller steps and interrupts no TD is given out that the controller
can still reach, as long as every call is for one of the first four endpoints and ends with
nothing queued and nothing left to process. -/
theorem unreachable_of_clean {inputs : List Input} (clean : StepsMeet step Clean Host.init inputs) :
    StepsMeet step Safe Host.init inputs := by
  have start : Settles Host.init := ⟨init_owned, fun _ _ => rfl, fun _ => ⟨fun _ => rfl, rfl, rfl⟩⟩
  exact stepsMeet_of_invariant (fun _ _ _ => step_settles) (fun _ _ => step_safe) start clean

def readFrom (endpoint : Fin 16) : Call := ⟨endpoint, false, false, 64, 0x30000000, 512, 0⟩

def servedRun : List Input :=
  [.submit (readFrom 1), .hc (.retire 2 0 512), .hc (.writeDone false), .poll 0,
    .submit (readFrom 1)]

theorem served_run_safe : StepsMeet step Safe Host.init servedRun := by
  apply unreachable_of_clean
  refine ⟨fun _ => by decide, ?_⟩
  rintro _ ⟨⟩
  refine ⟨trivial, ?_⟩
  rintro _ ⟨⟩
  refine ⟨trivial, ?_⟩
  rintro _ ⟨⟩
  refine ⟨fun _ => by decide +kernel, ?_⟩
  rintro _ ⟨⟩
  exact ⟨fun _ => by decide, fun _ _ => trivial⟩

def addressCall : Call := ⟨1, true, false, 64, 0, 0, 0x30000000⟩

def timedOut : List Input := .submit addressCall :: List.replicate 100 (.poll 0)

/-- After a call that timed out the next one takes the TD at the head of the queue; and endpoint
4 has its ED behind `ohci_dev`. -/
theorem queued_td_taken : (∃ h t, runFrom step Host.init timedOut = some h ∧
      Proceeds h addressCall ∧ (h.s.ed 2).hwHeadP = some t ∧
      ∃ p ∈ allocPoints h.s addressCall, tdAlloc p = some t ∧ Reachable p t) ∧
    Proceeds Host.init (readFrom 4) ∧ ¬(readFrom 4).edIndex.val < numEds := by
  refine ⟨⟨_, 0, rfl, by decide +kernel, by decide +kernel, ?_⟩, by decide +kernel,
    by decide +kernel⟩
  refine ⟨_, List.mem_cons_self, by decide +kernel, .inl ⟨2, .inr ?_⟩⟩
  exact .here 0

end Ohci
