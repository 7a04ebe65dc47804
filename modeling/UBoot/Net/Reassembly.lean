import UBoot.Net.HoleList
import UBoot.Lib.Intervals

/-!
# One datagram through `__NetDefragment`

The fragments of a datagram in any order and any number. The holes are the
maximal runs of fragments still missing.
-/

namespace Reassembly

open ByteMemory Defrag HoleList Intervals Runs

/-- A payload and how it is cut: the lengths of all fragments but the last, in units of eight
bytes; the last fragment has what is left. -/
structure Datagram where
  ident : Nat
  body : List UInt8
  blocks : List Nat
  positive : ∀ b ∈ blocks, 0 < b
  covers : 8 * blocks.sum ≤ body.length
  bounded : body.length ≤ ipMaxUdp

variable {d : Datagram}

abbrev Datagram.final (d : Datagram) : Nat := d.blocks.length

/-- Where fragment `j` begins, in units of eight bytes. -/
def Datagram.offset (d : Datagram) (j : Nat) : Nat := (d.blocks.take j).sum

def Datagram.stop (d : Datagram) (j : Nat) : Nat :=
  if j < d.final then 8 * d.offset (j + 1) else d.body.length

/-- A packet that carries fragment `j`; the header is free but for what reassembly reads. -/
structure Carries (d : Datagram) (j : Nat) (f : Fragment) : Prop where
  ident : f.header.ipId = d.ident
  offset : offset8 f = d.offset j
  more : moreFragments f = decide (j < d.final)
  len : f.header.ipLen + 8 * d.offset j = 20 + d.stop j
  data : ∀ k, 8 * d.offset j + k < d.stop j → d.body[8 * d.offset j + k]? = some (f.data k)

structure Part (d : Datagram) where
  index : Nat
  inside : index ≤ d.final
  packet : Fragment
  carries : Carries d index packet

structure Session where
  net : State
  seen : List Nat

def deliver (t : Session) (p : Part d) : Option Session :=
  (netDefragment t.net p.packet).map (fun r => ⟨r.1, p.index :: t.seen⟩)

def Complete (d : Datagram) (seen : List Nat) : Prop := ∀ j, j ≤ d.final → j ∈ seen

instance (seen : List Nat) : Decidable (Complete d seen) :=
  inferInstanceAs (Decidable (∀ j, j ≤ d.final → j ∈ seen))

/-- A last fragment of fewer than eight bytes at the very beginning of its hole: `len / 8` is 0,
and the code takes it for a duplicate. -/
def Short (d : Datagram) (seen : List Nat) (j : Nat) : Prop :=
  j = d.final ∧ d.body.length < 8 * d.offset j + 8 ∧ (j = 0 ∨ j - 1 ∈ seen)

/-- The hole in front of the fragment's own one is the hole at index 0, which the fragment's
`prev_hole` does not tell from none. -/
def Behind (seen : List Nat) (j : Nat) : Prop :=
  ∃ i, 0 < i ∧ i < j ∧ ∀ k, k < j → (k ∈ seen ↔ i ≤ k)

def Full (d : Datagram) (seen : List Nat) (j : Nat) : Prop :=
  j < d.final ∧ d.stop j = ipMaxUdp ∧ d.final ∉ seen

def Quiet (s : State) (f : Fragment) : Prop :=
  search s.payload (8 * offset8 f) (holeCount + 1) s.firstHole = some none ∨
    ∃ h, search s.payload (8 * offset8 f) (holeCount + 1) s.firstHole = some (some h) ∧
      offset8 f + (fragLen f).tdiv 8 ≤ h

structure Handled (t : Session) (p : Part d) : Prop where
  after : Complete d t.seen → Quiet t.net p.packet
  before : ¬ Complete d t.seen → p.index ∉ t.seen →
    ¬ (Short d t.seen p.index ∨ Behind t.seen p.index ∨ Full d t.seen p.index)

/-! ## The cuts -/

variable {j : Nat}

lemma offset_succ (h : j < d.final) :
    d.offset (j + 1) = d.offset j + d.blocks[j] := by
  rw [Datagram.offset, Datagram.offset, List.take_succ_eq_append_getElem h,
    List.sum_append, List.sum_singleton]

lemma offset_lt {i : Nat} (lt : i < j) (le : j ≤ d.final) : d.offset i < d.offset j := by
  induction j with
  | zero => omega
  | succ j ih =>
    have hj : j < d.final := le
    have hpos := d.positive d.blocks[j] (List.getElem_mem hj)
    rw [offset_succ hj]
    rcases Nat.lt_succ_iff_lt_or_eq.mp lt with h | rfl
    · have := ih h (by omega)
      omega
    · omega

lemma offset_le {i : Nat} (le : i ≤ j) (inside : j ≤ d.final) : d.offset i ≤ d.offset j := by
  rcases Nat.lt_or_eq_of_le le with h | rfl
  · exact Nat.le_of_lt (offset_lt h inside)
  · exact Nat.le_refl _

lemma offset_zero : d.offset 0 = 0 := rfl

lemma offset_final : 8 * d.offset d.final ≤ d.body.length := by
  rw [Datagram.offset, List.take_length]
  exact d.covers

lemma stop_before (h : j < d.final) : d.stop j = 8 * d.offset (j + 1) := if_pos h

lemma stop_final : d.stop d.final = d.body.length := if_neg (Nat.lt_irrefl _)

lemma stop_le (h : j ≤ d.final) : d.stop j ≤ d.body.length := by
  rcases Nat.lt_or_eq_of_le h with hlt | rfl
  · rw [stop_before hlt]
    have hle := offset_le (i := j + 1) hlt (Nat.le_refl d.final)
    have hfinal := offset_final (d := d)
    omega
  · exact Nat.le_of_eq stop_final

lemma part_of_byte {x : Nat} (h : x < d.body.length) :
    ∃ i, i ≤ d.final ∧ 8 * d.offset i ≤ x ∧ x < d.stop i := by
  have hcut : ∀ j, j ≤ d.final → 8 * d.offset j ≤ x ∨
      ∃ i, i ≤ d.final ∧ 8 * d.offset i ≤ x ∧ x < d.stop i := by
    intro j hj
    induction j with
    | zero =>
      left
      rw [offset_zero]
      exact Nat.zero_le _
    | succ j ih =>
      rcases ih (by omega) with hlow | hfound
      · by_cases hhigh : 8 * d.offset (j + 1) ≤ x
        · exact .inl hhigh
        · refine .inr ⟨j, by omega, hlow, ?_⟩
          rw [stop_before hj]
          exact Nat.not_le.mp hhigh
      · exact .inr hfound
  rcases hcut d.final (Nat.le_refl _) with hlow | hfound
  · exact ⟨d.final, Nat.le_refl _, hlow, by rw [stop_final]; exact h⟩
  · exact hfound

lemma slice_eq_body {m : Mem} (h : ∀ i, i ≤ d.final → ∀ x, 8 * d.offset i ≤ x → x < d.stop i →
    d.body[x]? = some (m x)) : slice m 0 d.body.length = d.body := by
  refine List.ext_getElem (slice_length _ _ _) (fun x hx hx' => ?_)
  obtain ⟨i, hi, hlow, hhigh⟩ := part_of_byte hx'
  have hbyte := h i hi x hlow hhigh
  rw [List.getElem?_eq_getElem hx'] at hbyte
  rw [slice_get, zero_add]
  exact (Option.some.inj hbyte).symm

/-! ## Missing fragments and holes -/

variable {ps : List Interval}

def gap (d : Datagram) (p : Interval) : Gap :=
  ⟨d.offset p.1, if p.2 ≤ d.final then 8 * d.offset p.2 else 0xffff⟩

lemma gap_last {p : Interval} (h : p.2 ≤ d.final) : (gap d p).last = 8 * d.offset p.2 :=
  if_pos h

lemma gap_open {p : Interval} (h : d.final < p.2) : (gap d p).last = 0xffff :=
  if_neg (Nat.not_le.mpr h)

structure Live (d : Datagram) (seen : List Nat) (s : State) (ps : List Interval) : Prop where
  ident : s.localip.ipId = d.ident
  started : s.totalLen ≠ 0
  total : d.final ∈ seen → s.totalLen = d.body.length
  separated : Separated 0 ps
  missing : ∀ j, Covers ps j ↔ j ≤ d.final ∧ j ∉ seen
  inside : ∀ j ∈ seen, j ≤ d.final
  listed : Listed s (ps.map (gap d))
  stored : ∀ j ∈ seen, ∀ x, 8 * d.offset j ≤ x → x < d.stop j → d.body[x]? = some (s.payload x)

lemma interval_inside {seen : List Nat} (missing : ∀ j, Covers ps j ↔ j ≤ d.final ∧ j ∉ seen)
    (separated : Separated 0 ps) {p : Interval} (hp : p ∈ ps) : p.1 < p.2 ∧ p.2 ≤ d.final + 1 := by
  have hne := (separated_low separated hp).2
  have hlast := ((missing (p.2 - 1)).mp ⟨p, hp, by omega, by omega⟩).1
  omega

lemma outside_of_seen {seen : List Nat} (missing : ∀ j, Covers ps j ↔ j ≤ d.final ∧ j ∉ seen)
    (separated : Separated 0 ps) {x : Nat} (hj : j ∈ seen) (inside : j ≤ d.final)
    (low : 8 * d.offset j ≤ x) (high : x < d.stop j) : Outside (ps.map (gap d)) x := by
  intro k hk
  obtain ⟨p, hp, rfl⟩ := List.mem_map.mp hk
  obtain ⟨hne, hend⟩ := interval_inside missing separated hp
  have hout : j < p.1 ∨ p.2 ≤ j := by
    by_contra hin
    exact ((missing j).mp ⟨p, hp, by omega, by omega⟩).2 hj
  rcases hout with hbefore | hafter
  · left
    rw [stop_before (show j < d.final by omega)] at high
    have hle := offset_le (d := d) (show j + 1 ≤ p.1 by omega) (by omega)
    exact Nat.lt_of_lt_of_le high (Nat.mul_le_mul_left 8 hle)
  · right
    rw [gap_last (by omega)]
    exact Nat.le_trans (Nat.mul_le_mul_left 8 (offset_le hafter inside)) low

lemma offset_stop (inside : j ≤ d.final) : 8 * d.offset j ≤ d.stop j := by
  rcases Nat.lt_or_eq_of_le inside with hlt | rfl
  · rw [stop_before hlt]
    exact Nat.mul_le_mul_left 8 (offset_le (Nat.le_succ j) hlt)
  · rw [stop_final]
    exact offset_final

lemma not_far {f : Fragment} (h : Carries d j f) (inside : j ≤ d.final) :
    ¬ TooFar f ∧ fragLen f = ((d.stop j - 8 * d.offset j : Nat) : Int) ∧
      8 * d.offset j ≤ d.stop j ∧ HoleList.stop f = d.stop j := by
  have hle := stop_le inside
  have hbound := d.bounded
  have hlow := offset_stop inside
  have hlen := h.len
  have hfrag : fragLen f = ((d.stop j - 8 * d.offset j : Nat) : Int) := by
    rw [fragLen]
    omega
  refine ⟨?_, hfrag, hlow, ?_⟩
  · rw [TooFar, hfrag, h.offset]
    omega
  · rw [HoleList.stop, hfrag, Int.toNat_natCast, h.offset]
    omega

section Fit

variable {seen : List Nat} {s : State} {pre post : List Interval} {p : Interval} {j : Nat}
  {f : Fragment}

lemma toNat_fragLen (h : Carries d j f) (inside : j ≤ d.final) :
    8 * d.offset j + (fragLen f).toNat = d.stop j := by
  obtain ⟨-, hlen, hlow, -⟩ := not_far h inside
  rw [hlen, Int.toNat_natCast]
  omega

lemma part_fits (live : Live d seen s (pre ++ p :: post)) (h : Carries d j f)
    (inside : j ≤ d.final) (low : p.1 ≤ j) (high : j ≤ p.2)
    (long : p.1 = j → 8 * d.offset j + 8 ≤ d.stop j)
    (room : j + 1 < p.2 → d.stop j + 8 ≤ 8 * holeCount) :
    Fits (pre.map (gap d)) (gap d p) (post.map (gap d)) (offset8 f) (fragLen f).toNat
      (moreFragments f) := by
  have hordered := live.listed.ordered
  rw [List.map_append, List.map_cons] at hordered
  obtain ⟨-, hbefore, -, hne, hpost⟩ := separated_middle.mp live.separated
  have hlen := toNat_fragLen h inside
  have hbody := stop_le inside
  have hbounded := d.bounded
  rw [h.offset, h.more]
  refine ⟨around_of_ordered hordered, fun k hk => ?_, ?_, ?_, by omega, fun hmore hleft => ?_,
    fun k hk => ?_⟩
  · obtain ⟨q, hq, rfl⟩ := List.mem_map.mp hk
    have hqp := hbefore q hq
    rw [gap_last (by omega)]
    have hlt := offset_lt (d := d) (show q.2 < j by omega) inside
    omega
  · by_cases hopen : p.2 ≤ d.final
    · rw [gap_last hopen]
      exact Nat.mul_le_mul_left 8 (offset_le high hopen)
    · rw [gap_open (Nat.not_le.mp hopen)]
      have hmax : ipMaxUdp = 16464 := rfl
      omega
  · show d.offset p.1 < _
    rcases Nat.lt_or_eq_of_le low with hlt | heq
    · have hoff := offset_lt (d := d) hlt inside
      omega
    · have hlong := long heq
      rw [heq]
      omega
  · have hj : j < d.final := of_decide_eq_true hmore
    rw [hlen] at hleft ⊢
    have hstop := stop_before hj
    have hnext : j + 1 < p.2 := by
      by_contra hle
      have hp2 : p.2 ≤ d.final := by omega
      have hoff := offset_le (d := d) (show p.2 ≤ j + 1 by omega) (by omega)
      rw [gap_last hp2, hstop] at hleft
      omega
    exact ⟨by omega, room hnext⟩
  · obtain ⟨q, hq, rfl⟩ := List.mem_map.mp hk
    have hqp := (separated_low hpost hq).1
    have hq' := interval_inside live.missing live.separated (show q ∈ pre ++ p :: post by simp [hq])
    rw [hlen, stop_before (show j < d.final by omega)]
    exact Nat.mul_le_mul_left 8 (offset_le (by omega) (by omega))

lemma remaining_missing (live : Live d seen s (pre ++ p :: post)) (h : Carries d j f)
    (inside : j ≤ d.final) (low : p.1 ≤ j) (high : j < p.2)
    (front : p.1 = j → kept (pre.map (gap d)) = pre.map (gap d)) :
    remaining (pre.map (gap d)) (gap d p) (post.map (gap d)) (offset8 f) (fragLen f).toNat
      (moreFragments f) = (without pre p post j).map (gap d) := by
  have hend := (interval_inside live.missing live.separated (show p ∈ pre ++ p :: post by simp)).2
  have hlen := toNat_fragLen h inside
  have hlast : (moreFragments f = false ∨ (gap d p).last ≤ 8 * offset8 f + (fragLen f).toNat) ↔
      j + 1 = p.2 := by
    rw [h.more, h.offset, hlen, decide_eq_false_iff_not]
    by_cases hj : j < d.final
    · rw [stop_before hj]
      constructor
      · rintro (hlt | hle)
        · exact absurd hj hlt
        · by_contra hne
          by_cases hopen : p.2 ≤ d.final
          · rw [gap_last hopen] at hle
            have hoff := offset_lt (d := d) (show j + 1 < p.2 by omega) hopen
            omega
          · rw [gap_open (Nat.not_le.mp hopen), ← stop_before hj] at hle
            have hbody := stop_le inside
            have hbounded := d.bounded
            have hmax : ipMaxUdp = 16464 := rfl
            omega
      · intro heq
        rw [gap_last (show p.2 ≤ d.final by omega), heq]
        exact .inr (Nat.le_refl _)
    · exact ⟨fun _ => by omega, fun _ => .inl hj⟩
  have hfirst : offset8 f ≤ (gap d p).index ↔ j = p.1 := by
    rw [h.offset]
    constructor
    · intro hle
      by_contra hne
      have hoff := offset_lt (d := d) (show p.1 < j by omega) inside
      exact absurd hle (Nat.not_le.mpr hoff)
    · rintro rfl
      exact Nat.le_refl _
  have hleft : gap d (p.1, j) = ⟨(gap d p).index, 8 * offset8 f⟩ := by
    rw [h.offset, gap, gap]
    simp only [if_pos inside]
  have hright : j + 1 ≠ p.2 →
      gap d (j + 1, p.2) = ⟨offset8 f + (fragLen f).toNat / 8, (gap d p).last⟩ := by
    intro hne
    rw [stop_before (show j < d.final by omega)] at hlen
    have hoff : d.offset (j + 1) = offset8 f + (fragLen f).toNat / 8 := by
      rw [h.offset]
      omega
    rw [← hoff]
    rfl
  unfold remaining without
  simp only [hlast, hfirst]
  split_ifs with hall hstart hstart
  · rw [front hstart.symm, List.map_append]
  · rw [List.map_append, List.map_cons, hleft]
  · rw [front hstart.symm, List.map_append, List.map_cons, hright hall]
  · rw [List.map_append, List.map_cons, List.map_cons, hleft, hright hall]

lemma remaining_seen (live : Live d seen s (pre ++ p :: post)) (h : Carries d p.2 f)
    (inside : p.2 ≤ d.final) :
    remaining (pre.map (gap d)) (gap d p) (post.map (gap d)) (offset8 f) (fragLen f).toNat
      (moreFragments f) = (pre ++ p :: post).map (gap d) := by
  have hne := (interval_inside live.missing live.separated (show p ∈ pre ++ p :: post by simp)).1
  have hoff := offset_lt hne inside
  have hgap : gap d p = ⟨d.offset p.1, 8 * d.offset p.2⟩ := by rw [gap, if_pos inside]
  have hlast : (gap d p).last ≤ 8 * offset8 f + (fragLen f).toNat := by
    rw [hgap, h.offset]
    exact Nat.le_add_right _ _
  have hfirst : ¬ offset8 f ≤ (gap d p).index := by
    rw [hgap, h.offset]
    exact Nat.not_le.mpr hoff
  rw [remaining, if_pos (.inr hlast), if_neg hfirst, h.offset, List.map_append, List.map_cons,
    hgap]

/-! ## What a fragment must not run into -/

lemma long_enough (live : Live d seen s (pre ++ p :: post)) (inside : j ≤ d.final)
    (first : p.1 = j) (long : ¬ Short d seen j) : 8 * d.offset j + 8 ≤ d.stop j := by
  rcases Nat.lt_or_eq_of_le inside with hlt | rfl
  · have hoff := offset_lt (d := d) (show j < j + 1 by omega) hlt
    rw [stop_before hlt]
    omega
  rw [stop_final]
  by_contra hless
  refine long ⟨rfl, by omega, ?_⟩
  by_cases hzero : d.final = 0
  · exact .inl hzero
  right
  by_contra hunseen
  have before : d.final - 1 + 1 = p.1 := by omega
  refine not_covers_edge live.separated (.inl before) ?_
  exact (live.missing _).mpr ⟨Nat.sub_le _ _, hunseen⟩

lemma room_enough (live : Live d seen s (pre ++ p :: post)) (low : p.1 ≤ j)
    (next : j + 1 < p.2) (room : ¬ Full d seen j) : d.stop j + 8 ≤ 8 * holeCount := by
  have hmem : p ∈ pre ++ p :: post := by simp
  have hend := (interval_inside live.missing live.separated hmem).2
  have hj : j < d.final := by omega
  have hbody := stop_le (d := d) (Nat.le_of_lt hj)
  have hbounded := d.bounded
  have hmax : ipMaxUdp = 16464 := rfl
  have hcount : holeCount = 2058 := rfl
  have hstop := stop_before hj
  by_contra hless
  have heq : d.stop j = ipMaxUdp := by omega
  refine room ⟨hj, heq, ?_⟩
  have hfinal : d.final = j + 1 := by
    by_contra hne
    have hoff := offset_lt (d := d) (show j + 1 < d.final by omega) (Nat.le_refl _)
    have hcut := offset_final (d := d)
    omega
  have hmissing := (live.missing (j + 1)).mp ⟨p, hmem, by omega, next⟩
  rw [hfinal]
  exact hmissing.2

lemma front_kept (live : Live d seen s (pre ++ p :: post)) (first : p.1 = j)
    (inside : j ≤ d.final) (front : ¬ Behind seen j) :
    kept (pre.map (gap d)) = pre.map (gap d) := by
  by_contra hne
  have hordered := live.listed.ordered
  rw [List.map_append, List.map_cons] at hordered
  obtain ⟨last, hpre⟩ := kept_eq (ordered_append.mp hordered).1 hne
  obtain ⟨q, rfl, hq⟩ := List.map_eq_singleton_iff.mp hpre
  have hmem : q ∈ [q] ++ p :: post := by simp
  obtain ⟨hqne, hqend⟩ := interval_inside live.missing live.separated hmem
  obtain ⟨-, hbefore, -, hpne, hpost⟩ := separated_middle.mp live.separated
  have hqp := hbefore q (List.mem_singleton_self q)
  have hzero : q.1 = 0 := by
    by_contra hpos
    have hoff := offset_lt (d := d) (show 0 < q.1 by omega) (by omega)
    have hindex : d.offset q.1 = 0 := congrArg Gap.index hq
    omega
  refine front ⟨q.2, by omega, by omega, fun k hk => ?_⟩
  constructor
  · intro hseen
    by_contra hlt
    exact ((live.missing k).mp ⟨q, hmem, by omega, by omega⟩).2 hseen
  · intro hle
    by_contra hunseen
    obtain ⟨r, hr, hlow, hhigh⟩ := (live.missing k).mpr ⟨by omega, hunseen⟩
    rcases List.mem_append.mp hr with hr | hr
    · rw [List.mem_singleton.mp hr] at hhigh
      omega
    rcases List.mem_cons.mp hr with rfl | hr
    · omega
    · have := (separated_low hpost hr).1
      omega

lemma stored_after {m : Mem} (live : Live d seen s ps) (h : Carries d j f) (inside : j ≤ d.final)
    (copied : ∀ k, k < (fragLen f).toNat → m (8 * offset8 f + k) = f.data k)
    (same : ∀ x, Outside (ps.map (gap d)) x → (x < 8 * offset8 f ∨ HoleList.stop f ≤ x) →
      m x = s.payload x) {i x : Nat} (hi : i ∈ j :: seen) (low : 8 * d.offset i ≤ x)
    (high : x < d.stop i) : d.body[x]? = some (m x) := by
  have hlen := toNat_fragLen h inside
  rw [h.offset, (not_far h inside).2.2.2] at same
  rw [h.offset] at copied
  by_cases hnew : 8 * d.offset j ≤ x ∧ x < d.stop j
  · obtain ⟨k, rfl⟩ := Nat.exists_eq_add_of_le hnew.1
    rw [copied k (by omega)]
    exact h.data k hnew.2
  · rcases List.mem_cons.mp hi with rfl | hseen
    · exact absurd ⟨low, high⟩ hnew
    · have hout := outside_of_seen live.missing live.separated hseen (live.inside i hseen) low high
      rw [same x hout (by omega)]
      exact live.stored i hseen x low high

lemma complete_iff (separated : Separated 0 ps)
    (missing : ∀ j, Covers ps j ↔ j ≤ d.final ∧ j ∉ seen) : ps = [] ↔ Complete d seen := by
  constructor
  · rintro rfl i hi
    by_contra hunseen
    obtain ⟨q, hq, -⟩ := (missing i).mpr ⟨hi, hunseen⟩
    cases hq
  · intro hall
    exact eq_nil_of_covers_none separated
      (fun x hx => ((missing x).mp hx).2 (hall x ((missing x).mp hx).1))

/-! ## One delivery -/

/-- The packet in `pkt_buff`, behind the one call that completes it. -/
structure Finished (d : Datagram) (s : State) : Prop where
  ident : s.localip.ipId = d.ident
  started : s.totalLen ≠ 0

lemma deliver_missing (live : Live d seen s (pre ++ p :: post)) (h : Carries d j f)
    (inside : j ≤ d.final) (low : p.1 ≤ j) (high : j < p.2) (long : ¬ Short d seen j)
    (front : ¬ Behind seen j) (room : ¬ Full d seen j) :
    ∃ u r, reassemble s f = some (u, r) ∧
      if Complete d (j :: seen) then r = some (d.body.length + 20) ∧
        slice u.payload 0 d.body.length = d.body ∧ Finished d u
      else r = none ∧ Live d (j :: seen) u (without pre p post j) := by
  have hfits := part_fits live h inside low (Nat.le_of_lt high)
    (fun first => long_enough live inside first long)
    (fun next => room_enough live low next room)
  have hrem := remaining_missing live h inside low high
    (fun first => front_kept live first inside front)
  have hlisted := live.listed
  rw [List.map_append, List.map_cons] at hlisted
  obtain ⟨-, hfrag, -, hstop⟩ := not_far h inside
  have hwhole : 0 ≤ fragLen f := by
    rw [hfrag]
    exact Int.natCast_nonneg _
  obtain ⟨m, first, hinsert, hfirst, hlinked, hcopied, hsame⟩ :=
    insert_linked hlisted hwhole hfits
  rw [fits_reassemble hlisted hwhole hfits]
  rw [hrem] at hinsert hfirst hlinked
  have hmapped : gap d p :: post.map (gap d) = (p :: post).map (gap d) := rfl
  rw [hmapped, ← List.map_append] at hsame
  have hstored := fun i hi x => stored_after (i := i) (x := x) live h inside hcopied hsame hi
  have hseparated := separated_without live.separated low high
  have hmissing : ∀ i, Covers (without pre p post j) i ↔ i ≤ d.final ∧ i ∉ j :: seen := by
    intro i
    rw [covers_without live.separated low high, live.missing, List.mem_cons, not_or]
    exact ⟨fun ⟨⟨hi, hs⟩, hne⟩ => ⟨hi, hne, hs⟩, fun ⟨hi, hne, hs⟩ => ⟨⟨hi, hs⟩, hne⟩⟩
  have htotal : d.final ∈ j :: seen →
      (if moreFragments f then s.totalLen else HoleList.stop f) = d.body.length := by
    intro hmem
    rw [h.more, hstop]
    by_cases hj : j < d.final
    · rw [if_pos (decide_eq_true hj)]
      rcases List.mem_cons.mp hmem with heq | hseen
      · omega
      · exact live.total hseen
    · obtain rfl : j = d.final := by omega
      rw [if_neg (by simp), stop_final]
  have hstarted : (if moreFragments f then s.totalLen else HoleList.stop f) ≠ 0 := by
    by_cases hj : j < d.final
    · rw [h.more, if_pos (decide_eq_true hj)]
      exact live.started
    obtain rfl : j = d.final := by omega
    rw [htotal List.mem_cons_self]
    intro hempty
    have hcut := offset_final (d := d)
    by_cases hzero : d.final = 0
    · exact long ⟨rfl, by omega, .inl hzero⟩
    · have hoff := offset_lt (d := d) (show 0 < d.final by omega) (Nat.le_refl _)
      omega
  by_cases hall : Complete d (j :: seen)
  · rw [(complete_iff hseparated hmissing).mpr hall, List.map_nil] at hinsert
    simp only [if_true, htotal (hall d.final (Nat.le_refl _))] at hinsert
    rw [htotal (hall d.final (Nat.le_refl _))] at hstarted
    refine ⟨_, _, hinsert, ?_⟩
    rw [if_pos hall]
    exact ⟨rfl, slice_eq_body (fun i hi => hstored i (hall i hi)), live.ident, hstarted⟩
  · have hleft : (without pre p post j).map (gap d) ≠ [] := fun hnil =>
      hall ((complete_iff hseparated hmissing).mp (List.map_eq_nil_iff.mp hnil))
    rw [if_neg hleft] at hinsert
    refine ⟨_, _, hinsert, ?_⟩
    rw [if_neg hall]
    refine ⟨rfl, live.ident, hstarted, htotal, hseparated, hmissing, ?_,
      ⟨hfirst hleft, hlinked, hrem ▸ hfits.ordered_remaining⟩, hstored⟩
    intro i hi
    rcases List.mem_cons.mp hi with rfl | hseen
    · exact inside
    · exact live.inside i hseen

lemma deliver_seen (live : Live d seen s ps) (h : Carries d j f) (hj : j ∈ seen) (some_ : ps ≠ [])
    :
    ∃ u, reassemble s f = some (u, none) ∧ Live d (j :: seen) u ps := by
  have inside := live.inside j hj
  have hagain : ∀ i, i ∈ j :: seen ↔ i ∈ seen := fun i => by
    rw [List.mem_cons]
    exact ⟨fun hi => hi.elim (fun heq => heq ▸ hj) id, Or.inr⟩
  have hsame : Live d (j :: seen) s ps := by
    refine ⟨live.ident, live.started, ?_, live.separated, ?_, ?_, live.listed, ?_⟩
    · rw [hagain]
      exact live.total
    · intro i
      rw [hagain]
      exact live.missing i
    · intro i hi
      exact live.inside i ((hagain i).mp hi)
    · intro i hi
      exact live.stored i ((hagain i).mp hi)
  have hmapped : ps.map (gap d) ≠ [] := fun hnil => some_ (List.map_eq_nil_iff.mp hnil)
  rcases first_reaching (ps.map (gap d)) (8 * offset8 f) with
    hall | ⟨pre', g, post', hps, hpass, hreach⟩
  · rw [reassemble_passes live.listed hmapped hall]
    exact ⟨s, rfl, hsame⟩
  obtain ⟨pre, rest, rfl, rfl, hrest⟩ := List.map_eq_append_iff.mp hps
  obtain ⟨p, post, rfl, rfl, rfl⟩ := List.map_eq_cons_iff.mp hrest
  have hlisted := live.listed
  rw [hps] at hlisted
  rw [reassemble_finds hlisted hpass hreach]
  by_cases hover : (offset8 f : Int) + (fragLen f).tdiv 8 ≤ (gap d p).index
  · rw [if_pos hover]
    exact ⟨s, rfl, hsame⟩
  rw [if_neg hover]
  have hmem : p ∈ pre ++ p :: post := by simp
  obtain ⟨hne, hend⟩ := interval_inside live.missing live.separated hmem
  obtain ⟨-, hfrag, hlow, -⟩ := not_far h inside
  have hwhole : 0 ≤ fragLen f := by
    rw [hfrag]
    exact Int.natCast_nonneg _
  -- the hole found ends where the fragment begins
  obtain rfl : p.2 = j := by
    rcases Nat.lt_or_ge j p.1 with hbefore | hafter
    · have hoff := offset_le (d := d) (show j + 1 ≤ p.1 by omega) (by omega)
      have hdiv : (fragLen f).tdiv 8 = (((d.stop j - 8 * d.offset j) / 8 : Nat) : Int) := by
        rw [hfrag]
        rfl
      rw [stop_before (show j < d.final by omega)] at hdiv hlow
      have hindex : (gap d p).index = d.offset p.1 := rfl
      rw [hdiv, h.offset, hindex] at hover
      omega
    · have hp2 : p.2 ≤ j := by
        by_contra hlt
        exact ((live.missing j).mp ⟨p, hmem, hafter, by omega⟩).2 hj
      rw [gap_last (by omega), h.offset] at hreach
      by_contra hlt
      have hoff := offset_lt (d := d) (show p.2 < j by omega) inside
      omega
  have hfits := part_fits live h inside (Nat.le_of_lt hne) (Nat.le_refl _)
    (fun heq => absurd heq (Nat.ne_of_lt hne)) (fun hlt => by omega)
  have hrem := remaining_seen live h inside
  obtain ⟨m, first, hinsert, hfirst, hlinked, hcopied, hkept⟩ :=
    insert_linked hlisted hwhole hfits
  rw [hrem] at hinsert hfirst hlinked
  rw [← hps] at hkept
  rw [if_neg hmapped] at hinsert
  refine ⟨_, hinsert, live.ident, ?_, ?_, hsame.separated, hsame.missing, hsame.inside,
    ⟨hfirst hmapped, hlinked, live.listed.ordered⟩,
    fun i hi x => stored_after (i := i) (x := x) live h inside hcopied hkept hi⟩
  · cases hmore : moreFragments f with
    | true => exact live.started
    | false =>
      simp only [Bool.false_eq_true, if_false]
      have hpos := offset_lt hne inside
      rw [(not_far h inside).2.2.2]
      omega
  · intro hfinal
    cases hmore : moreFragments f with
    | true => exact live.total ((hagain _).mp hfinal)
    | false =>
      have hlast := h.more
      rw [hmore] at hlast
      have hp2 : p.2 = d.final := by
        have := of_decide_eq_false hlast.symm
        omega
      simp only [Bool.false_eq_true, if_false]
      rw [(not_far h inside).2.2.2, hp2, stop_final]

end Fit

structure Ready (d : Datagram) (t : Session) : Prop where
  waiting : ¬ Complete d t.seen → ∀ f, f.header.ipId = d.ident →
    ∃ ps, Live d t.seen (reset t.net f) ps
  finished : Complete d t.seen → Finished d t.net

/-- What a call returns: the packet when it gets the last missing fragment, NULL otherwise. -/
def Answers (d : Datagram) (before after : List Nat) (u : State) (r : Option Nat) : Prop :=
  if Complete d after ∧ ¬ Complete d before then
    r = some (d.body.length + 20) ∧ slice u.payload 0 d.body.length = d.body
  else r = none

lemma reset_started {s : State} {f : Fragment} (started : s.totalLen ≠ 0)
    (ident : s.localip.ipId = f.header.ipId) : reset s f = s :=
  if_neg (fun hnew => hnew.elim started (fun hne => hne ident))

lemma reset_fresh {s : State} {f : Fragment} (fresh : s.totalLen = 0 ∨ s.localip.ipId ≠ d.ident)
    (ident : f.header.ipId = d.ident) : Live d [] (reset s f) [(0, d.final + 1)] := by
  have hnew : s.totalLen = 0 ∨ s.localip.ipId ≠ f.header.ipId := by
    rw [ident]
    exact fresh
  obtain ⟨hheader, htotal, hlisted⟩ := reset_new hnew
  have hgap : [(0, d.final + 1)].map (gap d) = [⟨0, 0xffff⟩] := by
    rw [List.map_singleton, gap, if_neg (Nat.not_succ_le_self _), offset_zero]
  refine ⟨by rw [hheader, ident], by rw [htotal]; decide, fun h => (by cases h),
    ⟨Nat.le_refl _, Nat.succ_pos _, trivial⟩, fun j => ?_, fun j h => (by cases h), hgap ▸ hlisted,
    fun j h => (by cases h)⟩
  constructor
  · rintro ⟨p, hp, -, hhigh⟩
    rw [List.mem_singleton.mp hp] at hhigh
    exact ⟨Nat.le_of_lt_succ hhigh, List.not_mem_nil⟩
  · rintro ⟨hle, -⟩
    exact ⟨_, List.mem_cons_self, Nat.zero_le _, Nat.lt_succ_of_le hle⟩

lemma deliver_ready {t : Session} {p : Part d} (ready : Ready d t) (handled : Handled t p) :
    ∃ u r, netDefragment t.net p.packet = some (u, r) ∧ Ready d ⟨u, p.index :: t.seen⟩ ∧
      Answers d t.seen (p.index :: t.seen) u r := by
  obtain ⟨j, inside, f, h⟩ := p
  have hgrow : Complete d t.seen → Complete d (j :: t.seen) := fun hall i hi =>
    List.mem_cons_of_mem _ (hall i hi)
  rw [netDefragment, if_neg (not_far h inside).1]
  by_cases hall : Complete d t.seen
  · obtain ⟨hident, hstarted⟩ := ready.finished hall
    rw [reset_started hstarted (hident.trans h.ident.symm)]
    refine ⟨t.net, none, ?_, ⟨fun hnot => absurd (hgrow hall) hnot, fun _ => ⟨hident, hstarted⟩⟩, ?_⟩
    · rcases handled.after hall with hfar | ⟨i, hfound, hover⟩
      · rw [reassemble, hfar]
      · rw [reassemble, hfound]
        exact if_pos hover
    · exact (if_neg (fun hboth => hboth.2 hall)).mpr rfl
  obtain ⟨ps, live⟩ := ready.waiting hall f h.ident
  have hready : ∀ u qs, Live d (j :: t.seen) u qs → ¬ Complete d (j :: t.seen) →
      Ready d ⟨u, j :: t.seen⟩ := by
    intro u qs hlive hleft
    refine ⟨fun _ g hg => ⟨qs, ?_⟩, fun hall' => absurd hall' hleft⟩
    rw [reset_started hlive.started (hlive.ident.trans hg.symm)]
    exact hlive
  by_cases hj : j ∈ t.seen
  · have hsome : ps ≠ [] := fun hnil => hall ((complete_iff live.separated live.missing).mp hnil)
    obtain ⟨u, hu, hlive⟩ := deliver_seen live h hj hsome
    have hleft : ¬ Complete d (j :: t.seen) := fun hall' =>
      hsome ((complete_iff hlive.separated hlive.missing).mpr hall')
    exact ⟨u, none, hu, hready u ps hlive hleft, (if_neg (fun hboth => hleft hboth.1)).mpr rfl⟩
  obtain ⟨pre, p, post, rfl, hlow, hhigh⟩ := covers_split ((live.missing j).mpr ⟨inside, hj⟩)
  have hfree := handled.before hall hj
  rw [not_or, not_or] at hfree
  obtain ⟨hlong, hfront, hroom⟩ := hfree
  obtain ⟨u, r, hu, hafter⟩ := deliver_missing live h inside hlow hhigh hlong hfront hroom
  by_cases hdone : Complete d (j :: t.seen)
  · rw [if_pos hdone] at hafter
    obtain ⟨hr, hbody, hfinished⟩ := hafter
    refine ⟨u, r, hu, ⟨fun hnot => absurd hdone hnot, fun _ => hfinished⟩, ?_⟩
    exact (if_pos ⟨hdone, hall⟩).mpr ⟨hr, hbody⟩
  · rw [if_neg hdone] at hafter
    obtain ⟨hr, hlive⟩ := hafter
    exact ⟨u, r, hu, hready u _ hlive hdone, (if_neg (fun hboth => hdone hboth.1)).mpr hr⟩

/-! ## The whole datagram -/

lemma deliver_seen_eq {t u : Session} {p : Part d} (h : deliver t p = some u) :
    u.seen = p.index :: t.seen := by
  rw [deliver, Option.map_eq_some_iff] at h
  obtain ⟨r, -, rfl⟩ := h
  rfl

lemma run_seen {t u : Session} {parts : List (Part d)} (h : runFrom deliver t parts = some u)
    (i : Nat) : i ∈ u.seen ↔ i ∈ parts.map Part.index ∨ i ∈ t.seen := by
  induction parts generalizing t with
  | nil =>
    obtain rfl : t = u := Option.some.inj h
    simp
  | cons p parts ih =>
    cases hstep : deliver t p with
    | none => simp [runFrom, hstep] at h
    | some v =>
      rw [runFrom_cons hstep] at h
      rw [ih h, deliver_seen_eq hstep, List.map_cons, List.mem_cons, List.mem_cons]
      exact ⟨fun hi => by tauto, fun hi => by tauto⟩

lemma complete_congr {a b : List Nat} (h : ∀ i, i ∈ a ↔ i ∈ b) :
    Complete d a ↔ Complete d b :=
  forall_congr' fun i => imp_congr_right fun _ => h i

lemma run_ready {s : State} (fresh : s.totalLen = 0 ∨ s.localip.ipId ≠ d.ident)
    {parts : List (Part d)} (meet : StepsMeet deliver Handled ⟨s, []⟩ parts) :
    ∃ t, runFrom deliver ⟨s, []⟩ parts = some t ∧ Ready d t := by
  refine invariant_of_run (fun t p hready hok => ?_) ⟨fun _ f hf => ?_, fun hall => ?_⟩ meet
  · obtain ⟨u, r, hcall, hnext, -⟩ := deliver_ready hready hok
    exact ⟨_, by rw [deliver, hcall]; rfl, hnext⟩
  · exact ⟨_, reset_fresh fresh hf⟩
  · exact absurd (hall 0 (Nat.zero_le _)) List.not_mem_nil

/-- In any order and with any repetitions, the call with the last missing fragment returns the
datagram and every other call returns NULL. -/
theorem datagram_reassembled {s : State} (fresh : s.totalLen = 0 ∨ s.localip.ipId ≠ d.ident)
    {parts : List (Part d)} (meet : StepsMeet deliver Handled ⟨s, []⟩ parts)
    (done todo : List (Part d)) (p : Part d) (split : parts = done ++ p :: todo) :
    ∃ t u r, runFrom deliver ⟨s, []⟩ done = some t ∧
      netDefragment t.net p.packet = some (u, r) ∧
      Answers d (done.map Part.index) ((done ++ [p]).map Part.index) u r := by
  subst split
  obtain ⟨hdone, hrest⟩ := stepsMeet_append.mp meet
  obtain ⟨t, hrun, hready⟩ := run_ready fresh hdone
  obtain ⟨u, r, hcall, -, hanswer⟩ := deliver_ready hready (hrest t hrun).1
  refine ⟨t, u, r, hrun, hcall, ?_⟩
  have hbefore : Complete d (done.map Part.index) ↔ Complete d t.seen :=
    complete_congr (fun i => by rw [run_seen hrun]; simp)
  have hafter : Complete d ((done ++ [p]).map Part.index) ↔ Complete d (p.index :: t.seen) :=
    complete_congr (fun i => by rw [List.mem_cons, run_seen hrun]; simp [or_comm])
  simp only [Answers, hbefore, hafter]
  exact hanswer

/-- Fragment `j` as a sender with these addresses cuts it. -/
def cut (d : Datagram) (j : Nat) : Fragment :=
  ⟨⟨0x45, 0, 20 + (d.stop j - 8 * d.offset j), d.ident,
      d.offset j + (if j < d.final then 0x2000 else 0), 64, 17, 0, 0x0a000001, 0x0a00010a⟩,
    fun k => d.body.getD (8 * d.offset j + k) 0⟩

lemma cut_carries (inside : j ≤ d.final) : Carries d j (cut d j) := by
  have hcut := offset_final (d := d)
  have hbounded := d.bounded
  have hmax : ipMaxUdp = 16464 := rfl
  have hbody := stop_le inside
  have hlow := offset_stop inside
  refine ⟨rfl, ?_, ?_, ?_, fun k hk => ?_⟩
  · simp only [offset8, cut]
    split_ifs with hj
    · omega
    · omega
  · rw [moreFragments, decide_eq_decide]
    simp only [cut]
    split_ifs with hj
    · exact ⟨fun _ => hj, fun _ => by omega⟩
    · exact ⟨fun _ => by omega, fun hlt => absurd hlt hj⟩
  · simp only [cut]
    omega
  · have hin : 8 * d.offset j + k < d.body.length := by omega
    simp [cut, hin]

def part (d : Datagram) (j : Nat) (inside : j ≤ d.final) : Part d :=
  ⟨j, inside, cut d j, cut_carries inside⟩

def halves : Datagram :=
  ⟨1, [1, 2, 3, 4, 5, 6, 7, 8, 9, 10, 11, 12, 13, 14, 15, 16], [1], by decide, by decide, by decide⟩

theorem datagram_reassembled_reversed : ∃ t u r,
    runFrom deliver ⟨powerOn, []⟩ [part halves 1 (by decide)] = some t ∧
      netDefragment t.net (cut halves 0) = some (u, r) ∧ Answers halves [1] [1, 0] u r := by
  have hmeet : StepsMeet deliver Handled ⟨powerOn, []⟩
      [part halves 1 (by decide), part halves 0 (by decide)] := by
    refine ⟨⟨fun hall => ?_, fun _ _ => ?_⟩, fun t ht => ⟨⟨fun hall => ?_, fun _ _ => ?_⟩,
      fun _ _ => trivial⟩⟩
    · exact absurd hall (by decide)
    · rintro (⟨-, hlong, -⟩ | ⟨i, hpos, hlt, -⟩ | ⟨hlt, -⟩)
      · exact absurd hlong (by decide)
      · have : i < 1 := hlt
        omega
      · exact absurd hlt (by decide)
    · rw [deliver_seen_eq ht] at hall
      exact absurd hall (by decide)
    · rintro (⟨hlast, -⟩ | ⟨i, hpos, hlt, -⟩ | ⟨-, hfull, -⟩)
      · exact absurd hlast (by decide)
      · have : i < 0 := hlt
        omega
      · exact absurd hfull (by decide)
  exact datagram_reassembled (Or.inl rfl) hmeet [part halves 1 (by decide)] []
    (part halves 0 (by decide)) rfl

def tail : Datagram :=
  ⟨1, [1, 2, 3, 4, 5, 6, 7, 8, 9], [1], by decide, by decide, by decide⟩

theorem one_byte_tail_never_completes :
    Complete tail [0, 1] ∧ ¬ ∃ t u r,
      runFrom deliver ⟨powerOn, []⟩ [part tail 0 (by decide)] = some t ∧
        netDefragment t.net (cut tail 1) = some (u, r) ∧ Answers tail [0] [0, 1] u r := by
  refine ⟨by decide, ?_⟩
  rintro ⟨t, u, r, hrun, hcall, hanswer⟩
  have hnull : (runFrom deliver ⟨powerOn, []⟩ [part tail 0 (by decide)]).bind
      (fun t => (netDefragment t.net (cut tail 1)).map Prod.snd) = some none := by decide
  rw [hrun, Option.bind_some, hcall] at hnull
  rw [Answers, if_pos (by decide)] at hanswer
  rw [hanswer.1] at hnull
  cases hnull

end Reassembly
