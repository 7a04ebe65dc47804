import UBoot.Usb.OhciFinished

/-!
# Who owns a TD

`usb_dev` marks the TDs that are in use: the dummy at the end of the queue of each ED, and while
a call waits the TDs of its URB. `td_fill` lets a dummy and a TD of the URB change places.
-/

namespace Ohci

open Runs

variable {s s' : State}

def IsDummy (s : State) (t : Fin 64) : Prop :=
  ∃ e, (s.ed e).state ≠ .new ∧ (s.ed e).hwTailP = some t

/-- The TDs in use are the dummies, one for each ED that is set up, and the TDs of the URB with
an index in `[lo, hi)`. -/
structure Owned (s : State) (lo hi : Nat) : Prop where
  tail : ∀ e, (s.ed e).state ≠ .new → ∃ t, (s.ed e).hwTailP = some t
  apart : ∀ e e' t, (s.ed e).state ≠ .new → (s.ed e').state ≠ .new →
    (s.ed e).hwTailP = some t → (s.ed e').hwTailP = some t → e = e'
  present : ∀ i, lo ≤ i → i < hi → ∃ t, s.urb.td i = some t
  distinct : ∀ i j t, lo ≤ i → i < hi → lo ≤ j → j < hi →
    s.urb.td i = some t → s.urb.td j = some t → i = j
  inside : ∀ i t, lo ≤ i → i < hi → s.urb.td i = some t → ¬IsDummy s t
  owner : ∀ t, (s.td t).usb_dev = true ↔
    IsDummy s t ∨ ∃ i, lo ≤ i ∧ i < hi ∧ s.urb.td i = some t

structure SameOwners (s s' : State) : Prop where
  fresh : ∀ e, (s'.ed e).state = .new ↔ (s.ed e).state = .new
  tail : ∀ e, (s'.ed e).hwTailP = (s.ed e).hwTailP
  urb : s'.urb.td = s.urb.td
  owner : ∀ t, (s'.td t).usb_dev = (s.td t).usb_dev

lemma SameOwners.refl (s : State) : SameOwners s s :=
  ⟨fun _ => Iff.rfl, fun _ => rfl, rfl, fun _ => rfl⟩

lemma SameOwners.trans {s'' : State} (first : SameOwners s s') (second : SameOwners s' s'') :
    SameOwners s s'' :=
  ⟨fun e => (second.fresh e).trans (first.fresh e),
    fun e => (second.tail e).trans (first.tail e), second.urb.trans first.urb,
    fun t => (second.owner t).trans (first.owner t)⟩

lemma SameOwners.isDummy (same : SameOwners s s') (t : Fin 64) :
    IsDummy s' t ↔ IsDummy s t := by
  simp only [IsDummy, ne_eq, same.fresh, same.tail]

lemma SameOwners.owned (same : SameOwners s s') {lo hi : Nat} (owned : Owned s lo hi) :
    Owned s' lo hi where
  tail e set_up := by
    rw [same.tail]
    exact owned.tail e (mt (same.fresh e).mpr set_up)
  apart e e' t set_up set_up' := by
    rw [same.tail, same.tail]
    exact owned.apart e e' t (mt (same.fresh e).mpr set_up) (mt (same.fresh e').mpr set_up')
  present := by
    rw [same.urb]
    exact owned.present
  distinct := by
    rw [same.urb]
    exact owned.distinct
  inside := by
    rw [same.urb]
    intro i t low high at_i
    rw [same.isDummy]
    exact owned.inside i t low high at_i
  owner t := by
    rw [same.owner, same.urb, same.isDummy]
    exact owned.owner t

lemma Owned.empty {s : State} {n : Nat} (owned : Owned s n n) : Owned s 0 0 where
  tail := owned.tail
  apart := owned.apart
  present i _ high := absurd high (Nat.not_lt_zero i)
  distinct i _ _ _ high := absurd high (Nat.not_lt_zero i)
  inside i _ _ high := absurd high (Nat.not_lt_zero i)
  owner t := by
    rw [owned.owner t]
    refine or_congr_right ?_
    constructor
    · rintro ⟨i, low, high, -⟩
      omega
    · rintro ⟨i, -, high, -⟩
      omega

lemma takeTd_owned {n : Nat} (owned : Owned s 0 n) (took : takeTd s n = some s') :
    Owned s' 0 (n + 1) := by
  obtain ⟨t, got, rfl⟩ := Option.map_eq_some_iff.mp took
  have unused := tdAlloc_some got
  have foreign : ¬(IsDummy s t ∨ ∃ i, 0 ≤ i ∧ i < n ∧ s.urb.td i = some t) := by
    rw [← owned.owner t, unused]
    exact Bool.false_ne_true
  obtain ⟨no_dummy, no_td⟩ := not_or.mp foreign
  set next := (s.setOwner t true).setUrbTd n (some t) with next_def
  have at_n : next.urb.td n = some t := setUrbTd_self _ n _
  have before {i : Nat} (low : i < n) : next.urb.td i = s.urb.td i :=
    setUrbTd_ne _ _ (ne_of_lt low)
  have elsewhere {i : Nat} {u : Fin 64} (high : i < n + 1) (at_i : next.urb.td i = some u) :
      (i < n ∧ s.urb.td i = some u) ∨ (i = n ∧ u = t) := by
    rcases Nat.lt_succ_iff_lt_or_eq.mp high with low | rfl
    · exact .inl ⟨low, (before low).symm.trans at_i⟩
    · exact .inr ⟨rfl, (Option.some.inj (at_n.symm.trans at_i)).symm⟩
  refine ⟨owned.tail, owned.apart, ?_, ?_, ?_, ?_⟩
  · intro i _ high
    rcases Nat.lt_succ_iff_lt_or_eq.mp high with low | rfl
    · obtain ⟨u, at_i⟩ := owned.present i (Nat.zero_le i) low
      exact ⟨u, (before low).trans at_i⟩
    · exact ⟨t, at_n⟩
  · intro i j u _ i_high _ j_high at_i at_j
    rcases elsewhere i_high at_i with ⟨i_low, old_i⟩ | ⟨rfl, rfl⟩
    · rcases elsewhere j_high at_j with ⟨j_low, old_j⟩ | ⟨rfl, rfl⟩
      · exact owned.distinct i j u (Nat.zero_le i) i_low (Nat.zero_le j) j_low old_i old_j
      · exact absurd ⟨i, Nat.zero_le i, i_low, old_i⟩ no_td
    · rcases elsewhere j_high at_j with ⟨j_low, old_j⟩ | ⟨rfl, -⟩
      · exact absurd ⟨j, Nat.zero_le j, j_low, old_j⟩ no_td
      · rfl
  · intro i u _ high at_i
    rcases elsewhere high at_i with ⟨low, at_i⟩ | ⟨rfl, rfl⟩
    · exact owned.inside i u (Nat.zero_le i) low at_i
    · exact no_dummy
  · intro u
    have mark : (((s.setOwner t true).td u).usb_dev = true) ↔ u = t ∨ (s.td u).usb_dev = true := by
      rw [owner_setOwner]
      split
      · rename_i here
        exact iff_of_true rfl (.inl here)
      · rename_i other
        exact (or_iff_right other).symm
    refine mark.trans ?_
    rw [owned.owner u]
    constructor
    · rintro (rfl | dummy | ⟨i, _, low, at_i⟩)
      · exact .inr ⟨n, Nat.zero_le n, Nat.lt_succ_self n, at_n⟩
      · exact .inl dummy
      · exact .inr ⟨i, Nat.zero_le i, Nat.lt_succ_of_lt low, (before low).trans at_i⟩
    · rintro (dummy | ⟨i, _, high, at_i⟩)
      · exact .inr (.inl dummy)
      · rcases elsewhere high at_i with ⟨low, at_i⟩ | ⟨-, rfl⟩
        · exact .inr (.inr ⟨i, Nat.zero_le i, low, at_i⟩)
        · exact .inl rfl

lemma freeTd_owned {lo hi : Nat} (owned : Owned s lo hi) (some_left : lo < hi) :
    Owned (freeTd s lo) (lo + 1) hi := by
  obtain ⟨t, at_lo⟩ := owned.present lo (Nat.le_refl lo) some_left
  rw [freeTd, at_lo]
  have later {i : Nat} (low : lo + 1 ≤ i) :
      ((s.setOwner t false).setUrbTd lo none).urb.td i = s.urb.td i :=
    setUrbTd_ne _ _ (Nat.ne_of_gt low)
  refine ⟨owned.tail, owned.apart, ?_, ?_, ?_, ?_⟩
  · intro i low high
    rw [later low]
    exact owned.present i (Nat.le_of_succ_le low) high
  · intro i j u i_low i_high j_low j_high at_i at_j
    rw [later i_low] at at_i
    rw [later j_low] at at_j
    exact owned.distinct i j u (Nat.le_of_succ_le i_low) i_high (Nat.le_of_succ_le j_low) j_high
      at_i at_j
  · intro i u low high at_i
    rw [later low] at at_i
    exact owned.inside i u (Nat.le_of_succ_le low) high at_i
  · intro u
    have mark : ((s.setOwner t false).td u).usb_dev = true ↔ u ≠ t ∧ (s.td u).usb_dev = true := by
      rw [owner_setOwner]
      split
      · rename_i here
        exact iff_of_false Bool.false_ne_true (fun h => h.1 here)
      · rename_i other
        exact (and_iff_right other).symm
    refine mark.trans ?_
    rw [owned.owner u]
    constructor
    · rintro ⟨other, dummy | ⟨i, low, high, at_i⟩⟩
      · exact .inl dummy
      · have behind : lo + 1 ≤ i := by
          rcases eq_or_lt_of_le low with rfl | behind
          · exact absurd (Option.some.inj (at_lo.symm.trans at_i)).symm other
          · exact behind
        exact .inr ⟨i, behind, high, (later behind).trans at_i⟩
    · rintro (dummy | ⟨i, low, high, at_i⟩)
      · refine ⟨?_, .inl dummy⟩
        rintro rfl
        exact owned.inside lo u (Nat.le_refl lo) some_left at_lo dummy
      · rw [later low] at at_i
        refine ⟨?_, .inr ⟨i, Nat.le_of_succ_le low, high, at_i⟩⟩
        rintro rfl
        have := owned.distinct lo i u (Nat.le_refl lo) some_left (Nat.le_of_succ_le low) high
          at_lo at_i
        omega

lemma urbFreePriv_owned (owned : Owned s 0 s.urb.length.toNat) :
    Owned (urbFreePriv s) 0 0 := by
  have loop (n : Nat) (low : n ≤ s.urb.length.toNat) :
      Owned ((List.range n).foldl freeTd s) n s.urb.length.toNat := by
    induction n with
    | zero => exact owned
    | succ n ih =>
      rw [List.range_succ, List.foldl_append]
      exact freeTd_owned (ih (Nat.le_of_succ_le low)) low
  exact (loop _ le_rfl).empty

lemma allocTds_owned {left i : Nat} (owned : Owned s 0 i) (small : left + i < 65536) :
    ((allocTds left i s).accepted = true →
      Owned (allocTds left i s).state 0 (left + i)) ∧
    ((allocTds left i s).accepted = false → Owned (allocTds left i s).state 0 0) := by
  induction left generalizing i s with
  | zero =>
    rw [zero_add]
    refine ⟨fun _ => owned, ?_⟩
    intro refused
    cases refused
  | succ left ih =>
    rw [allocTds]
    rcases took : takeTd s i with _ | next
    · refine ⟨fun h => Bool.noConfusion h, fun _ => urbFreePriv_owned ?_⟩
      have length : (UInt16.ofNat i).toNat = i := by
        rw [UInt16.toNat_ofNat']
        omega
      have same : SameOwners s { s with urb := { s.urb with length := UInt16.ofNat i } } :=
        ⟨fun _ => Iff.rfl, fun _ => rfl, rfl, fun _ => rfl⟩
      rw [length]
      exact same.owned owned
    · have again := ih (takeTd_owned owned took) (by omega)
      rw [show left + (i + 1) = left + 1 + i by omega] at again
      exact again

lemma tdAlloc_idle (owned : Owned s 0 0) : ∃ t, tdAlloc s = some t := by
  apply Option.ne_none_iff_exists'.mp
  intro none_left
  have all_dummies (t : Fin 64) : IsDummy s t := by
    have used : (s.td t).usb_dev = true := by
      have := List.find?_eq_none.mp none_left t (List.mem_finRange t)
      simpa using this
    rcases (owned.owner t).mp used with dummy | ⟨i, -, high, -⟩
    · exact dummy
    · exact absurd high (Nat.not_lt_zero i)
  choose e set_up tail using all_dummies
  have injective : Function.Injective e := by
    intro t u same
    have at_t := tail t
    rw [same, tail u] at at_t
    exact (Option.some.inj at_t).symm
  have := Fintype.card_le_of_injective e injective
  simp at this

lemma epAddEd_owned {c : Call} (owned : Owned s 0 0) (added : epAddEd s c = some s') :
    Owned s' 0 0 ∧ (s'.ed c.edIndex).state ≠ .new := by
  unfold epAddEd at added
  dsimp only at added
  split at added
  · cases added
  by_cases fresh : (s.ed c.edIndex).state = .new
  · rw [if_pos fresh] at added
    obtain ⟨t, got⟩ := tdAlloc_idle owned
    rw [got] at added
    cases added
    have unused := tdAlloc_some got
    have no_dummy : ¬IsDummy s t := by
      intro dummy
      rw [(owned.owner t).mpr (.inl dummy)] at unused
      cases unused
    set next := (s.setOwner t true).setEd c.edIndex ⟨some t, some t, false, .unlink⟩
    have here : next.ed c.edIndex = ⟨some t, some t, false, .unlink⟩ := setEd_self _ _ _
    have others {e : Fin 32} (other : e ≠ c.edIndex) : next.ed e = s.ed e := setEd_ne _ _ other
    have dummies (u : Fin 64) : IsDummy next u ↔ u = t ∨ IsDummy s u := by
      constructor
      · rintro ⟨e, set_up, tail⟩
        by_cases new : e = c.edIndex
        · rw [new, here] at tail
          exact .inl (Option.some.inj tail).symm
        · rw [others new] at set_up tail
          exact .inr ⟨e, set_up, tail⟩
      · rintro (rfl | ⟨e, set_up, tail⟩)
        · refine ⟨c.edIndex, ?_, ?_⟩
          · rw [here]
            exact nofun
          · rw [here]
        · have old : e ≠ c.edIndex := by
            rintro rfl
            exact set_up fresh
          refine ⟨e, ?_, ?_⟩
          · rw [others old]
            exact set_up
          · rw [others old]
            exact tail
    refine ⟨⟨?_, ?_, fun i _ high => absurd high (Nat.not_lt_zero i),
      fun i _ _ _ high => absurd high (Nat.not_lt_zero i),
      fun i _ _ high => absurd high (Nat.not_lt_zero i), ?_⟩, ?_⟩
    · intro e set_up
      by_cases new : e = c.edIndex
      · exact ⟨t, by rw [new, here]⟩
      · rw [others new] at set_up ⊢
        exact owned.tail e set_up
    · intro e e' u set_up set_up' tail tail'
      by_cases new : e = c.edIndex
      · by_cases new' : e' = c.edIndex
        · exact new.trans new'.symm
        · rw [new, here] at tail
          rw [others new'] at set_up' tail'
          exact absurd ⟨e', set_up', tail'.trans tail.symm⟩ no_dummy
      · rw [others new] at set_up tail
        by_cases new' : e' = c.edIndex
        · rw [new', here] at tail'
          exact absurd ⟨e, set_up, tail.trans tail'.symm⟩ no_dummy
        · rw [others new'] at set_up' tail'
          exact owned.apart e e' u set_up set_up' tail tail'
    · intro u
      have mark : (next.td u).usb_dev = if u = t then true else (s.td u).usb_dev :=
        owner_setOwner s t u true
      rw [mark, dummies u]
      have nothing : ¬∃ i, 0 ≤ i ∧ i < 0 ∧ next.urb.td i = some u := by
        rintro ⟨i, -, high, -⟩
        exact absurd high (Nat.not_lt_zero i)
      rw [or_iff_left nothing]
      split
      · rename_i new
        exact iff_of_true rfl (.inl new)
      rename_i old
      rw [or_iff_right old, owned.owner u]
      refine or_iff_left ?_
      rintro ⟨i, -, high, -⟩
      exact absurd high (Nat.not_lt_zero i)
    · rw [here]
      exact nofun
  · rw [if_neg fresh] at added
    cases added
    exact ⟨owned, fresh⟩

/-- What `td_fill` leaves: the dummy is filled and goes to the URB, the TD of the URB is the new
dummy. -/
structure Fills (s s' : State) (data : UInt32) (len index : Nat) (td td_pt : Fin 64) : Prop where
  old_td : s.urb.td index = some td_pt
  old_tail : (s.ed s.urb.ed).hwTailP = some td
  urb_here : s'.urb.td index = some td
  urb_other : ∀ i, i ≠ index → s'.urb.td i = s.urb.td i
  ed_here : s'.ed s.urb.ed = { s.ed s.urb.ed with hwTailP := some td_pt }
  ed_other : ∀ e, e ≠ s.urb.ed → s'.ed e = s.ed e
  other : ∀ u, u ≠ td → (s'.td u) = s.td u ∨ s'.td u = { s.td u with hwNextTD := none }
  owner : (s'.td td).usb_dev = (s.td td).usb_dev
  filled : (s'.td td).cc = 15 ∧ (s'.td td).data = data ∧
    (s'.td td).hwCBP = (if len = 0 then 0 else data) ∧
    (s'.td td).hwBE = if (if len = 0 then 0 else data) = 0 then 0
      else (if len = 0 then 0 else data) + UInt32.ofNat len - 1
  same : s'.urb.length = s.urb.length ∧ s'.urb.ed = s.urb.ed

lemma tdFill_fills {n : Nat} (owned : Owned s 0 n) (length : s.urb.length.toNat = n)
    (set_up : (s.ed s.urb.ed).state ≠ .new) (data : UInt32) (len : Nat) {index : Nat}
    (inside : index < n) :
    ∃ td td_pt, Fills s (tdFill s data len index) data len index td td_pt := by
  obtain ⟨td_pt, at_index⟩ := owned.present index (Nat.zero_le index) inside
  obtain ⟨td, tail⟩ := owned.tail s.urb.ed set_up
  have apart : td_pt ≠ td := by
    rintro rfl
    exact owned.inside index td_pt (Nat.zero_le index) inside at_index ⟨s.urb.ed, set_up, tail⟩
  refine ⟨td, td_pt, ?_⟩
  unfold tdFill
  rw [if_neg (by omega), at_index, tail]
  set s₁ := (s.setTd td_pt { s.td td_pt with hwNextTD := none }).setUrbTd index (some td)
  have old_td (u : Fin 64) (other : u ≠ td_pt) : s₁.td u = s.td u := setTd_ne s _ other
  refine ⟨at_index, tail, setUrbTd_self _ _ _, fun i other => setUrbTd_ne _ _ other,
    setEd_self _ _ _, fun e other => setEd_ne _ _ other, ?_, ?_, ?_, ⟨rfl, rfl⟩⟩
  · intro u other
    have above := setTd_ne s₁ (t := td) (i := u) { s₁.td td with
      ed := s₁.urb.ed, index := UInt8.ofNat index, data := data, cc := 15,
      hwCBP := if len = 0 then 0 else data,
      hwBE := if (if len = 0 then 0 else data) = 0 then 0
        else (if len = 0 then 0 else data) + UInt32.ofNat len - 1,
      hwNextTD := some td_pt } other
    rw [setEd_td, above]
    by_cases here : u = td_pt
    · subst here
      exact .inr (setTd_self s _ _)
    · exact .inl (old_td u here)
  · rw [setEd_td, setTd_self, old_td td apart.symm]
  · rw [setEd_td, setTd_self]
    exact ⟨rfl, rfl, rfl, rfl⟩

variable {s s' : State} {data : UInt32} {len index n : Nat} {td td_pt : Fin 64}

lemma Fills.state (fills : Fills s s' data len index td td_pt) (e : Fin 32) :
    (s'.ed e).state = (s.ed e).state := by
  by_cases here : e = s.urb.ed
  · rw [here, fills.ed_here]
  · rw [fills.ed_other e here]

lemma Fills.usb_dev (fills : Fills s s' data len index td td_pt) (u : Fin 64) :
    (s'.td u).usb_dev = (s.td u).usb_dev := by
  by_cases here : u = td
  · rw [here, fills.owner]
  · rcases fills.other u here with same | same
    · rw [same]
    · rw [same]

lemma Fills.dummies (fills : Fills s s' data len index td td_pt) (owned : Owned s 0 n)
    (set_up : (s.ed s.urb.ed).state ≠ .new) (u : Fin 64) :
    IsDummy s' u ↔ u = td_pt ∨ (IsDummy s u ∧ u ≠ td) := by
  constructor
  · rintro ⟨e, old_set_up, tail⟩
    rw [fills.state e] at old_set_up
    by_cases here : e = s.urb.ed
    · rw [here, fills.ed_here] at tail
      exact .inl (Option.some.inj tail).symm
    rw [fills.ed_other e here] at tail
    refine .inr ⟨⟨e, old_set_up, tail⟩, ?_⟩
    rintro rfl
    exact here (owned.apart e s.urb.ed u old_set_up set_up tail fills.old_tail)
  · rintro (rfl | ⟨⟨e, old_set_up, tail⟩, other⟩)
    · refine ⟨s.urb.ed, ?_, ?_⟩
      · rw [fills.state]
        exact set_up
      · rw [fills.ed_here]
    · have elsewhere : e ≠ s.urb.ed := by
        rintro rfl
        exact other (Option.some.inj (tail.symm.trans fills.old_tail))
      refine ⟨e, ?_, ?_⟩
      · rw [fills.state]
        exact old_set_up
      · rw [fills.ed_other e elsewhere]
        exact tail

lemma Fills.owned (fills : Fills s s' data len index td td_pt) (owned : Owned s 0 n)
    (set_up : (s.ed s.urb.ed).state ≠ .new) (inside : index < n) : Owned s' 0 n := by
  have dummy : IsDummy s td := ⟨s.urb.ed, set_up, fills.old_tail⟩
  have td_ne : td_pt ≠ td := by
    rintro rfl
    exact owned.inside index td_pt (Nat.zero_le index) inside fills.old_td dummy
  have dummies := fills.dummies owned set_up
  refine ⟨?_, ?_, ?_, ?_, ?_, ?_⟩
  · intro e old_set_up
    rw [fills.state e] at old_set_up
    by_cases here : e = s.urb.ed
    · exact ⟨td_pt, by rw [here, fills.ed_here]⟩
    · rw [fills.ed_other e here]
      exact owned.tail e old_set_up
  · intro e e' u first second tail tail'
    rw [fills.state] at first second
    have no_other (e : Fin 32) (there : (s.ed e).state ≠ .new) (elsewhere : e ≠ s.urb.ed)
        (tail : (s'.ed e).hwTailP = some td_pt) : False := by
      rw [fills.ed_other e elsewhere] at tail
      exact owned.inside index td_pt (Nat.zero_le index) inside fills.old_td ⟨e, there, tail⟩
    by_cases here : e = s.urb.ed
    · by_cases here' : e' = s.urb.ed
      · exact here.trans here'.symm
      · rw [here, fills.ed_here] at tail
        rw [← tail] at tail'
        exact (no_other e' second here' tail').elim
    · by_cases here' : e' = s.urb.ed
      · rw [here', fills.ed_here] at tail'
        rw [← tail'] at tail
        exact (no_other e first here tail).elim
      · rw [fills.ed_other e here] at tail
        rw [fills.ed_other e' here'] at tail'
        exact owned.apart e e' u first second tail tail'
  · intro i low high
    by_cases here : i = index
    · exact ⟨td, by rw [here, fills.urb_here]⟩
    · rw [fills.urb_other i here]
      exact owned.present i low high
  · intro i j u i_low i_high j_low j_high at_i at_j
    have new_td (i : Nat) (low : 0 ≤ i) (high : i < n) (other : i ≠ index)
        (at_i : s'.urb.td i = some td) : False := by
      rw [fills.urb_other i other] at at_i
      exact owned.inside i td low high at_i dummy
    by_cases here : i = index
    · by_cases here' : j = index
      · exact here.trans here'.symm
      · rw [here, fills.urb_here] at at_i
        rw [← at_i] at at_j
        exact (new_td j j_low j_high here' at_j).elim
    · by_cases here' : j = index
      · rw [here', fills.urb_here] at at_j
        rw [← at_j] at at_i
        exact (new_td i i_low i_high here at_i).elim
      · rw [fills.urb_other i here] at at_i
        rw [fills.urb_other j here'] at at_j
        exact owned.distinct i j u i_low i_high j_low j_high at_i at_j
  · intro i u low high at_i
    rw [dummies u]
    by_cases here : i = index
    · rw [here, fills.urb_here] at at_i
      cases at_i
      rintro (same | ⟨-, other⟩)
      · exact td_ne same.symm
      · exact other rfl
    · rw [fills.urb_other i here] at at_i
      rintro (rfl | ⟨old, -⟩)
      · exact here (owned.distinct i index u low high (Nat.zero_le index) inside at_i fills.old_td)
      · exact owned.inside i u low high at_i old
  · intro u
    rw [fills.usb_dev u, owned.owner u, dummies u]
    constructor
    · rintro (old | ⟨i, low, high, at_i⟩)
      · by_cases here : u = td
        · exact .inr ⟨index, Nat.zero_le index, inside, by rw [here, fills.urb_here]⟩
        · exact .inl (.inr ⟨old, here⟩)
      · by_cases here : i = index
        · rw [here, fills.old_td] at at_i
          exact .inl (.inl (Option.some.inj at_i).symm)
        · exact .inr ⟨i, low, high, (fills.urb_other i here).trans at_i⟩
    · rintro ((rfl | ⟨old, -⟩) | ⟨i, low, high, at_i⟩)
      · exact .inr ⟨index, Nat.zero_le index, inside, fills.old_td⟩
      · exact .inl old
      · by_cases here : i = index
        · rw [here, fills.urb_here] at at_i
          cases at_i
          exact .inl dummy
        · rw [fills.urb_other i here] at at_i
          exact .inr ⟨i, low, high, at_i⟩

/-- Owners, and which URB there is, are the same. -/
structure SameUrb (s s' : State) : Prop extends SameOwners s s' where
  length : s'.urb.length = s.urb.length
  urb_ed : s'.urb.ed = s.urb.ed

lemma SameUrb.refl (s : State) : SameUrb s s := ⟨.refl s, rfl, rfl⟩

lemma SameUrb.trans {s s' s'' : State} (first : SameUrb s s') (second : SameUrb s' s'') :
    SameUrb s s'' :=
  ⟨first.toSameOwners.trans second.toSameOwners, second.length.trans first.length,
    second.urb_ed.trans first.urb_ed⟩

lemma SameUrb.foldl {α : Type} {f : State → α → State} (one : ∀ s a, SameUrb s (f s a))
    (s : State) (as : List α) : SameUrb s (as.foldl f s) := by
  induction as generalizing s with
  | nil => exact .refl s
  | cons a as ih => exact (one s a).trans (ih (f s a))

lemma setEd_sameUrb (s : State) {e : Fin 32} {d : Ed} (tail : d.hwTailP = (s.ed e).hwTailP)
    (fresh : d.state = .new ↔ (s.ed e).state = .new) : SameUrb s (s.setEd e d) := by
  refine ⟨⟨?_, ?_, rfl, fun _ => rfl⟩, rfl, rfl⟩
  · intro i
    by_cases here : i = e
    · rw [here, setEd_self, fresh]
    · rw [setEd_ne _ _ here]
  · intro i
    by_cases here : i = e
    · rw [here, setEd_self, tail]
    · rw [setEd_ne _ _ here]

lemma reverseTd_sameUrb (s : State) (t : Fin 64) : SameUrb s (reverseTd s t) := by
  unfold reverseTd
  dsimp only
  split
  · split
    · have same (head : TdPtr) : SameUrb s (s.setEd (s.td t).ed
          { s.ed (s.td t).ed with hwHeadP := head, halted := false }) :=
        setEd_sameUrb s rfl Iff.rfl
      exact ⟨⟨(same _).fresh, (same _).tail, rfl, fun _ => rfl⟩, rfl, rfl⟩
    · exact setEd_sameUrb s rfl Iff.rfl
  · exact .refl s

lemma doneTd_sameUrb (s : State) (t : Fin 64) : SameUrb s (doneTd s t) := by
  obtain ⟨n, moved⟩ := dlTransferLength_only s (s.td t)
  obtain ⟨b, counted, -⟩ := countTd_only (dlTransferLength s (s.td t)) (s.td t).ed
  rw [moved] at counted
  rw [doneTd, moved, counted]
  set more : State := { s with
    urb := { s.urb with actual_length := n, td_cnt := s.urb.td_cnt + 1 }, urb_finished := b }
  have start : SameUrb s more := ⟨⟨fun _ => Iff.rfl, fun _ => rfl, rfl, fun _ => rfl⟩, rfl, rfl⟩
  rcases unlinkIdle_only more (s.td t).ed with same | ⟨oper, unlinked⟩
  · rw [same]
    exact start
  rw [unlinked]
  refine start.trans (setEd_sameUrb more rfl ?_)
  constructor
  · intro fresh
    cases fresh
  · intro fresh
    rw [oper] at fresh
    cases fresh

lemma retire_sameUrb (s : State) (e : Fin 32) (cc : Fin 16) (bytes : Nat) :
    SameUrb s (retire s e cc bytes) := by
  rcases retire_cases s e cc bytes with same | ⟨t, -, -, -, -, popped⟩
  · rw [same]
    exact .refl s
  rw [popped]
  have same := setEd_sameUrb s (e := e) (d := { s.ed e with
    hwHeadP := (s.td t).hwNextTD, halted := cc ≠ 0 }) rfl Iff.rfl
  refine ⟨⟨same.fresh, same.tail, rfl, ?_⟩, rfl, rfl⟩
  intro u
  rw [popHead_td]
  split
  · rename_i here
    rw [here]
  · rfl

lemma writeDone_sameUrb (s : State) (other : Bool) : SameUrb s (writeDone s other) := by
  rcases writeDone_cases s other with same | ⟨-, written⟩
  · rw [same]
    exact .refl s
  · rw [written]
    exact ⟨⟨fun _ => Iff.rfl, fun _ => rfl, rfl, fun _ => rfl⟩, rfl, rfl⟩

lemma hcAct_sameUrb (s : State) (act : HcAct) : SameUrb s (hcAct s act) := by
  cases act with
  | retire e cc bytes => exact retire_sameUrb s e cc bytes
  | writeDone other => exact writeDone_sameUrb s other

lemma done_td (tds : List (Fin 64)) (s : State) : (tds.foldl doneTd s).td = s.td := by
  induction tds generalizing s with
  | nil => rfl
  | cons t tds ih => exact (ih (doneTd s t)).trans (doneTd_spec s t).1

lemma hcInterrupt_sameUrb {s s' : State} {intrstatus : UInt32} {stat : Int}
    (served : hcInterrupt s intrstatus = some (stat, s')) : SameUrb s s' ∧ s'.td = s.td := by
  have failed : SameUrb s { s with disabled := s.disabled + 1 } :=
    ⟨⟨fun _ => Iff.rfl, fun _ => rfl, rfl, fun _ => rfl⟩, rfl, rfl⟩
  unfold hcInterrupt at served
  split at served
  · cases served
    exact ⟨failed, rfl⟩
  split at served
  · cases served
    exact ⟨.refl s, rfl⟩
  unfold serve at served
  split at served
  · cases served
    exact ⟨failed, rfl⟩
  obtain ⟨⟨stat', s''⟩, list_served, same⟩ := Option.map_eq_some_iff.mp served
  obtain ⟨-, rfl⟩ := Prod.mk.inj same
  split at list_served
  · obtain ⟨⟨tds, s₁⟩, reversed, done⟩ := Option.map_eq_some_iff.mp list_served
    obtain ⟨chain, -, both⟩ := Option.map_eq_some_iff.mp reversed
    cases both
    cases done
    have start : SameUrb s s.taken :=
      ⟨⟨fun _ => Iff.rfl, fun _ => rfl, rfl, fun _ => rfl⟩, rfl, rfl⟩
    refine ⟨(start.trans (.foldl reverseTd_sameUrb _ chain)).trans
      (.foldl doneTd_sameUrb _ chain.reverse), ?_⟩
    exact (done_td chain.reverse _).trans (reverse_spec chain s.taken).2.1
  · cases list_served
    exact ⟨.refl s, rfl⟩

end Ohci
