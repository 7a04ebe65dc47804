import UBoot.Usb.OhciCount

/-!
# Transfers that end

From a submit to the last of its TDs: as long as nothing of an earlier call is left behind, the
number of TDs, their ranges and the count of the done lists agree.
-/

namespace Ohci

open Runs

variable {s : State} {c : Call}

/-- A submit that gets as far as the TDs finds nothing queued and nothing in a done list, its
control data fits one TD, and its buffer is memory. -/
def Orderly (h : Host) : Input → Prop
  | .submit c => Proceeds h c → c.size < 47 →
      Quiet h.s ∧ c.Short ∧ (0 < c.transfer_len → c.InMemory)
  | .hc _ => True
  | .poll _ => True

/-- A call that is accepted has the TDs it needs, and in every state up to its end, `urb_finished`
says whether one of them is left. -/
def Accounted (h : Host) : Input → Prop
  | .submit c => Proceeds h c → (sohciSubmitJob h.s c).accepted = true →
      Submitted (sohciSubmitJob h.s c).state c
  | .hc act => match h.phase with
    | .waiting c _ => Exact (hcAct h.s act) c
    | .idle => True
  | .poll intrstatus => match h.phase, hcInterrupt h.s intrstatus with
    | .waiting c _, some (_, s) => Exact s c
    | _, _ => True

lemma Chain.progress (chain : Chain s c.size c.fills) (ed : s.urb.ed = c.edIndex)
    (untouched : Untouched s) (short : c.Short) (small : c.size < 47) :
    ∃ u d, Progress s c.edIndex c.size u d 0 0 0 := by
  have owned := chain.ready.owned
  have still := chain.still
  have many := fills_length short
  obtain ⟨d, tail⟩ := owned.tail _ chain.ready.set_up
  have urb_td (i : Nat) (less : i < c.size) : s.urb.td i = some ((s.urb.td i).getD 0) := by
    obtain ⟨t, there⟩ := owned.present i (Nat.zero_le i) less
    rw [there]
    rfl
  have filled (i : Nat) (less : i < c.size) : ∃ fill, FilledTd s i fill
      (if i + 1 < c.size then s.urb.td (i + 1) else some d) ((s.urb.td i).getD 0) := by
    have inside : i < c.fills.length := by omega
    have found := chain.filled i c.fills[i] (List.getElem?_eq_getElem inside) _ (urb_td i less)
    rw [many, tail] at found
    exact ⟨_, found⟩
  have shape : Shape s c.edIndex c.size (fun i => (s.urb.td i).getD 0) d := by
    refine ⟨chain.ready.length, size_pos c, small, urb_td, ?_, ed ▸ tail, ?_, ?_, ?_, ?_⟩
    · intro i i_less j j_less same
      refine owned.distinct i j _ (Nat.zero_le i) i_less (Nat.zero_le j) j_less (urb_td i i_less) ?_
      rw [same]
      exact urb_td j j_less
    · intro i less e there
      by_cases fresh : (s.ed e).state = .new
      · rw [untouched e fresh] at there
        cases there
      · exact owned.inside i _ (Nat.zero_le i) less (urb_td i less) ⟨e, fresh, there⟩
    · intro i less
      obtain ⟨fill, here⟩ := filled i less
      rw [here.index, UInt8.toNat_ofNat']
      omega
    · intro i less
      obtain ⟨fill, here⟩ := filled i less
      rw [here.ed, ed]
    · intro e other
      exact ⟨still.queues e (ed ▸ other), still.halted e⟩
  refine ⟨_, d, shape, Nat.le_refl 0, Nat.le_refl 0, Nat.zero_le _, ?_, ?_, nofun, ?_, ?_, nofun,
    ?_, ?_, .inl (ed ▸ still.oper), ?_⟩
  · intro i _ less
    obtain ⟨fill, here⟩ := filled i less
    rw [here.hwNextTD]
    split
    · next more => exact urb_td (i + 1) more
    · rfl
  · have head := chain.head
    rw [if_neg (fun none => by rw [none] at many; exact ne_of_lt (size_pos c) many), ed] at head
    rw [if_pos (size_pos c), head]
    exact urb_td 0 (size_pos c)
  · exact still.done_head
  · exact still.hcDoneHead
  · rw [still.halted]
    exact iff_of_false Bool.false_ne_true fun h => lt_irrefl 0 h.1
  · rw [still.td_cnt]
    rfl
  · rw [still.unfinished]
    exact iff_of_false Bool.false_ne_true (ne_of_lt (size_pos c))

variable {h : Host}

lemma writeDone_marked (marked : Marked s) (other : Bool) : Marked (writeDone s other) := by
  unfold writeDone
  split
  · next guard =>
    intro e halted
    exact .inl guard.2
  · exact marked

lemma retire_marked (marked : Marked s) (e : Fin 32) (cc : Fin 16) (bytes : Nat) :
    Marked (retire s e cc bytes) := by
  rcases retire_cases s e cc bytes with same | ⟨t, -, -, -, -, popped⟩
  · rw [same]
    exact marked
  · rw [popped]
    intro e' _
    exact .inr nofun

lemma hcAct_marked (marked : Marked s) (act : HcAct) : Marked (hcAct s act) := by
  cases act with
  | retire e cc bytes => exact retire_marked marked e cc bytes
  | writeDone other => exact writeDone_marked marked other

lemma allocAndFill_marked (marked : Marked s) (refused : (allocAndFill s c).accepted = false) :
    Marked (allocAndFill s c).state := by
  have taken := (fillPriv_sameQueues s c).trans (allocTds_sameQueues c.size 0 _)
  unfold allocAndFill at refused ⊢
  dsimp only at refused ⊢
  split
  · exact taken.marked marked
  next enough =>
  rw [if_neg enough] at refused
  split
  · exact (taken.trans (urbFreePriv_sameQueues _)).marked marked
  next present =>
  rw [if_neg present] at refused
  split at refused <;> cases refused

lemma sohciSubmitJob_marked (marked : Marked s) (refused : (sohciSubmitJob s c).accepted = false) :
    Marked (sohciSubmitJob s c).state := by
  have start : SameQueues s { s with urb_finished := false } := ⟨rfl, rfl, rfl⟩
  unfold sohciSubmitJob at refused ⊢
  split
  · exact marked
  next enabled =>
  rw [if_neg enabled] at refused
  split
  · exact marked
  next finished =>
  rw [if_neg finished] at refused
  dsimp only at refused ⊢
  split
  · exact start.marked marked
  next next added =>
  rw [added] at refused
  dsimp only at refused
  have marked' := epAddEd_marked added (start.marked marked)
  split
  · exact marked'
  · next small =>
    rw [if_neg small] at refused
    exact allocAndFill_marked marked' refused

lemma accepted_proceeds (idle : h.phase.isIdle = true) (pipe : c.maxsize ≠ 0)
    (accepted : (sohciSubmitJob h.s c).accepted = true) : Proceeds h c ∧ c.size < 47 := by
  unfold sohciSubmitJob at accepted
  split at accepted
  · cases accepted
  next enabled =>
  split at accepted
  · cases accepted
  next finished =>
  refine ⟨⟨idle, pipe, not_not.mp enabled, by simpa using finished⟩, ?_⟩
  dsimp only at accepted
  split at accepted
  · cases accepted
  · split at accepted
    · cases accepted
    · next small => exact Nat.lt_of_not_le small

structure Served (h : Host) : Prop where
  reach : Reach h
  untouched : Untouched h.s
  marked : Marked h.s
  progress : ∀ c timeout, h.phase = .waiting c timeout →
    ∃ u d j m k, Progress h.s c.edIndex c.size u d j m k

lemma submit_progress (served : Served h) (idle : h.phase.isIdle = true)
    (orderly : Orderly h (.submit c)) (proceeds : Proceeds h c)
    (accepted : (sohciSubmitJob h.s c).accepted = true) :
    Submitted (sohciSubmitJob h.s c).state c ∧
      ∃ u d, Progress (sohciSubmitJob h.s c).state c.edIndex c.size u d 0 0 0 := by
  have small := (accepted_proceeds idle proceeds.2.1 accepted).2
  obtain ⟨quiet, short, memory⟩ := orderly proceeds small
  have owned : Owned h.s 0 0 := by
    have reach := served.reach
    unfold Reach at reach
    split at reach
    · exact reach
    · next waits =>
      rw [waits] at idle
      cases idle
  obtain ⟨-, ed, chain⟩ := sohciSubmitJob_chain owned quiet served.marked short accepted
  obtain ⟨u, d, progress⟩ := chain.progress ed
    ((sohciSubmitJob_quiet h.s c).1 served.untouched) short small
  exact ⟨⟨chain.ready.length.trans (fills_length short).symm, chain.tiles short memory,
    progress.exact⟩, u, d, progress⟩

lemma submit_served (served : Served h) (idle : h.phase.isIdle = true)
    (orderly : Orderly h (.submit c)) (reach : Reach (submit h c)) : Served (submit h c) := by
  unfold submit at reach ⊢
  split at reach
  · next pipe =>
    rw [if_pos pipe]
    exact ⟨reach, served.untouched, served.marked, served.progress⟩
  next pipe =>
  rw [if_neg pipe]
  have untouched := (sohciSubmitJob_quiet h.s c).1 served.untouched
  dsimp only at reach ⊢
  split
  · next accepted =>
    rw [if_pos accepted] at reach
    obtain ⟨-, u, d, progress⟩ := submit_progress served idle orderly
      (accepted_proceeds idle pipe accepted).1 accepted
    refine ⟨reach, untouched, progress.marked, ?_⟩
    rintro _ _ ⟨⟩
    exact ⟨u, d, 0, 0, 0, progress⟩
  · next refused =>
    rw [if_neg refused] at reach
    exact ⟨reach, untouched, sohciSubmitJob_marked served.marked (by simpa using refused), nofun⟩

lemma turn_served {timeout : Nat} {stat : Int} (reach : Reach (turn c timeout stat s))
    (untouched : Untouched s)
    (progress : ∃ u d j m k, Progress s c.edIndex c.size u d j m k) :
    Served (turn c timeout stat s) := by
  have same := turn_sameQueues c timeout stat s
  have marked : Marked s := by
    obtain ⟨u, d, j, m, k, progress⟩ := progress
    exact progress.marked
  refine ⟨reach, same.untouched untouched, same.marked marked, ?_⟩
  unfold turn
  split
  · exact nofun
  split
  · exact nofun
  split
  · exact nofun
  · rintro _ _ ⟨⟩
    exact progress

lemma step_served {h' : Host} {i : Input} (served : Served h) (orderly : Orderly h i)
    (taken : step h i = some h') : Served h' := by
  have reach := step_reach served.reach taken
  rcases h with ⟨s, _ | ⟨c, timeout⟩, result⟩
  · cases i with
    | submit c =>
      cases taken
      exact submit_served served rfl orderly reach
    | hc act =>
      cases taken
      exact ⟨reach, (hcAct_sameUrb s act).untouched served.untouched,
        hcAct_marked served.marked act, nofun⟩
    | poll intrstatus => cases taken
  · obtain ⟨u, d, j, m, k, progress⟩ := served.progress c timeout rfl
    cases i with
    | submit c => cases taken
    | hc act =>
      cases taken
      obtain ⟨m', k', after⟩ := progress.hcAct act
      refine ⟨reach, (hcAct_sameUrb s act).untouched served.untouched, after.marked, ?_⟩
      rintro _ _ ⟨⟩
      exact ⟨u, d, j, m', k', after⟩
    | poll intrstatus =>
      obtain ⟨⟨stat, s'⟩, polled, rfl⟩ := Option.map_eq_some_iff.mp taken
      obtain ⟨j', m', k', after⟩ := hcInterrupt_progress progress polled
      exact turn_served reach ((hcInterrupt_sameUrb polled).1.untouched served.untouched)
        ⟨u, d, j', m', k', after⟩

lemma step_accounted {i : Input} (served : Served h) (orderly : Orderly h i) :
    Accounted h i := by
  rcases h with ⟨s, _ | ⟨c, timeout⟩, result⟩
  · cases i with
    | submit c =>
      intro proceeds accepted
      exact (submit_progress served rfl orderly proceeds accepted).1
    | hc act => trivial
    | poll intrstatus => trivial
  obtain ⟨u, d, j, m, k, progress⟩ := served.progress c timeout rfl
  cases i with
  | submit c' =>
    intro proceeds
    cases proceeds.1
  | hc act =>
    obtain ⟨m', k', after⟩ := progress.hcAct act
    exact after.exact
  | poll intrstatus =>
    unfold Accounted
    dsimp only at progress ⊢
    cases polled : hcInterrupt s intrstatus with
    | none => trivial
    | some reply =>
      obtain ⟨j', m', k', after⟩ := hcInterrupt_progress progress polled
      exact after.exact

/-- Whatever the controller does, a call ends with the last of its TDs, provided that it finds
nothing of an earlier one and that its control data fits one TD. -/
theorem calls_accounted {inputs : List Input} (orderly : StepsMeet step Orderly Host.init inputs) :
    StepsMeet step Accounted Host.init inputs := by
  have start : Served Host.init := ⟨init_owned, fun _ _ => rfl, fun _ => nofun, nofun⟩
  exact stepsMeet_of_invariant (fun _ _ _ => step_served) (fun _ _ => step_accounted) start orderly

def stalledRun : List Input :=
  [.submit ⟨1, false, false, 64, 0x30000000, 10000, 0⟩, .hc (.retire 2 0 4096),
    .hc (.retire 2 4 0), .hc (.writeDone false), .poll 0]

theorem stalled_run_accounted : StepsMeet step Accounted Host.init stalledRun := by
  apply calls_accounted
  refine ⟨fun _ _ => ⟨⟨fun _ => rfl, rfl, rfl⟩, nofun, fun _ => ⟨by decide, by decide⟩⟩, ?_⟩
  rintro _ ⟨⟩
  refine ⟨trivial, ?_⟩
  rintro _ ⟨⟩
  refine ⟨trivial, ?_⟩
  rintro _ ⟨⟩
  refine ⟨trivial, ?_⟩
  rintro _ ⟨⟩
  exact ⟨trivial, fun _ _ => trivial⟩

def longRead : Call := ⟨0, true, false, 64, 0x30000000, 4097, 0x30002000⟩

def longReadServed : List Input :=
  [.submit longRead, .hc (.retire 0 0 8), .hc (.retire 0 0 4097), .hc (.retire 0 0 0),
    .hc (.writeDone false), .poll 0]

/-- It is given four TDs, and the fourth is never filled: it is still waited for when nothing is
left. -/
theorem long_read_never_ends : ¬StepsMeet step Accounted Host.init longReadServed ∧
    ∃ h, runFrom step Host.init longReadServed = some h ∧ Quiet h.s ∧ h.s.urb_finished = false := by
  refine ⟨fun accounted => ?_, _, rfl, by decide +kernel, by decide +kernel⟩
  have count := (accounted.1 (by decide +kernel) (by decide +kernel)).count
  revert count
  decide +kernel

end Ohci
