import UBoot.Fs.FatSlots

/-!
# Searches that find what is there (fs/fat/fat.c)

In a directory without the slots that are taken for others, and with links that are read as they are
meant, a search ends with the entry that has the name, or with none if no entry has it.
-/

namespace FatLookup

open ByteMemory Fat FatTable FatNames FatContents FatRead FatAlike FatSearch FatDirectory FatSlots

variable {x : Entry}

/-- A search for a component comes to slot `k`. -/
def Reached (d : Directory) (component : List UInt8) (k : Nat) : Prop :=
  k < d.last ∧ ∀ x ∈ d.entries, x.Named component → k ≤ x.place

def Unnamed (d : Directory) (component : List UInt8) : Prop :=
  ∀ x ∈ d.entries, ¬ x.Named component

/-- A slot that is no part of an entry is passed. It has not the bit that marks the first slot of a
long name, or the numbers do not go on behind it in the block, so that it is compared by its own
name, which is another. A block has `window` slots, and is filled anew every `stride` slots. -/
def SlotPassed (D : Mem) (stride window k : Nat) (component : List UInt8) : Prop :=
  isLast D k = false ∨
    k % stride + 1 < window ∧ 1 < (number D k).toNat ∧
      (number D (k + 1)).toNat + 1 ≠ (number D k).toNat ∧
        getName D (direntSize * k) ≠ downcase component

/-- What a search for a component comes to is seen as it is: labels and, in a root directory,
deleted slots of labels and of long names are passed, names are those that they are, the slots of a
long name lie in a block with their entry, and the free slot is none of a label. -/
structure PlainSlots (d : Directory) (root : Bool) (stride window : Nat) (component : List UInt8) :
    Prop where
  labels : ∀ k, Reached d component k → IsLabel d.slots k →
    SlotPassed d.slots stride window k component
  deleted : ∀ k, Reached d component k → slotId d.slots k = deletedFlag → root = true →
    attrOf d.slots k &&& attrVolume ≠ 0 → SlotPassed d.slots stride window k component
  names : ∀ x ∈ d.entries, Reached d component x.place →
    (SeenNamed d.slots x component ↔ x.Named component)
  groups : ∀ x ∈ d.entries, Reached d component x.place → x.long ≠ [] →
    x.place % stride + slotCount x.long < window
  free : Unnamed d component → d.last < d.total → attrOf d.slots d.last &&& attrVolume = 0

/-- The slot at which a search ends, that up to which it looks, and what it ends with. -/
inductive EndsAt (d : Directory) (component : List UInt8) : Nat → Nat → Option DirEntry → Prop
  | found {x : Entry} (entry : x ∈ d.entries) (named : x.Named component) :
      EndsAt d component x.place (x.place + slotCount x.long) (some x.dent)
  | free (unnamed : Unnamed d component) (more : d.last < d.total) :
      EndsAt d component d.last d.last none

section
variable {d : Directory} {component : List UInt8} {e top : Nat} {result : Option DirEntry}

lemma reached_named (entry : x ∈ d.entries) (named : x.Named component) {k : Nat}
    (before : k ≤ x.place) : Reached d component k := by
  refine ⟨?_, fun y entry' named' => ?_⟩
  · have lies := (d.laid.lies x entry).2
    omega
  · rw [d.distinct y entry' x entry component named' named]
    exact before

/-- No entry in front of slot `e` has the name, and none of them goes on behind that. -/
structure Clear (d : Directory) (component : List UInt8) (e : Nat) : Prop where
  inside : e ≤ d.last
  unnamed : ∀ x ∈ d.entries, x.place < e → ¬ x.Named component
  room : ∀ x ∈ d.entries, x.place < e → x.place + slotCount x.long < e

lemma Clear.reached (clear : Clear d component e) {k : Nat} (before : k < e) :
    Reached d component k := by
  refine ⟨lt_of_lt_of_le before clear.inside, fun x entry named => ?_⟩
  refine Nat.le_of_not_lt fun earlier => ?_
  exact clear.unnamed x entry (lt_trans earlier before) named

lemma Unnamed.clear (unnamed : Unnamed d component) : Clear d component d.last :=
  ⟨le_rfl, fun x entry _ => unnamed x entry, fun x entry _ => (d.laid.lies x entry).2⟩

lemma EndsAt.clear (ends : EndsAt d component e top result) : Clear d component e := by
  cases ends with
  | found entry named =>
    refine ⟨le_of_lt (reached_named entry named le_rfl).1,
      fun y entry' before named' => ?_, fun y entry' => d.laid.apart y entry' _ entry⟩
    rw [d.distinct y entry' _ entry component named' named] at before
    exact absurd before (lt_irrefl _)
  | free unnamed _ => exact unnamed.clear

lemma EndsAt.upto (ends : EndsAt d component e top result) : e ≤ top := by
  cases ends with
  | found _ _ => exact Nat.le_add_right _ _
  | free _ _ => exact le_rfl

end

structure Looks (v : Volume) (name : List UInt8) (root : Bool) (c : UInt32)
    (entry : Walk → Nat → Seen) : Prop where
  deleted : ∀ w i, slotId w.block i = deletedFlag →
    root = false ∨ attrOf w.block i &&& attrVolume = 0 → entry w i = .passed w
  skipped : ∀ w i, attrOf w.block i &&& attrVolume ≠ 0 → isLast w.block i = false →
    entry w i = .passed w
  long : ∀ w i lName w', root = true ∨ slotId w.block i ≠ deletedFlag →
    attrOf w.block i &&& attrVolume ≠ 0 → isLast w.block i = true →
      longName v.disk c w i = some (lName, w') → slotId w'.block i ≠ 0 →
        entry w i = compareEntry name lName w' i
  ordinary : ∀ w i, Ordinary w.block i → entry w i = compareEntry name [] w i
  free : ∀ w i, slotId w.block i = 0 → attrOf w.block i &&& attrVolume = 0 → entry w i = .ended w

lemma not_startsName {block : Mem} {i : Nat} (other : isLast block i = false) :
    ¬ startsName block i := by
  rintro ⟨-, last⟩
  rw [other] at last
  cases last

lemma startsName_of_last {block : Mem} {i : Nat} (volume : attrOf block i &&& attrVolume ≠ 0)
    (last : isLast block i = true) : startsName block i := by
  refine ⟨fun none => volume ?_, last⟩
  have part : attrVolume = attrVfat &&& attrVolume := by decide
  rw [part, ← UInt8.and_assoc, none]
  exact UInt8.zero_and

lemma looks_dir (v : Volume) (name : List UInt8) (c : UInt32) :
    Looks v name false c (dirEntry v.disk false name c) where
  deleted w i flag _ := if_pos flag
  skipped w i volume other := by
    rw [dirEntry, if_pos volume, if_neg (not_startsName other)]
    exact ite_self _
  long w i lName w' kept volume last named used := by
    rw [dirEntry, if_neg (kept.resolve_left Bool.false_ne_true), if_pos volume,
      if_pos (startsName_of_last volume last), named]
    exact if_neg used
  ordinary w i is := by
    rw [dirEntry, if_neg is.kept, if_neg (not_not.mpr is.attr), ordinaryEntry, if_neg is.used]
    rfl
  free w i zero attr := by
    have kept : slotId w.block i ≠ deletedFlag := by
      rw [zero]
      decide
    rw [dirEntry, if_neg kept, if_neg (not_not.mpr attr), ordinaryEntry, if_pos zero]

lemma looks_root (v : Volume) {name : List UInt8} (some : name ≠ []) :
    Looks v name true 0 (rootEntry v.disk false name) where
  deleted w i flag attr := by
    have used : slotId w.block i ≠ 0 := by
      rw [flag]
      decide
    have other := attr.resolve_left Bool.true_eq_false.mp
    rw [rootEntry, if_neg (not_not.mpr other), if_neg used, if_neg Bool.false_ne_true,
      compareEntry, getName_deleted (show w.block (direntSize * i) = deletedFlag from flag)]
    exact if_pos ⟨some, some⟩
  skipped w i volume other := by
    rw [rootEntry, if_pos volume, if_neg (not_startsName other)]
  long w i lName w' _ volume last named _ := by
    rw [rootEntry, if_pos volume, if_pos (startsName_of_last volume last), named]
    rfl
  ordinary w i is := by
    rw [rootEntry, if_neg (not_not.mpr is.attr), if_neg is.used]
    rfl
  free w i zero attr := by
    rw [rootEntry, if_neg (not_not.mpr attr), if_pos zero]

/-- The volume is as it was mounted, and from place `i` of the block on are the slots of a directory
from slot `base + i` on, up to slot `top`. -/
structure Over (v : Volume) (d : Directory) (top base i : Nat) (w : Walk) : Prop where
  mounted : w.mydata = v.start
  same : ∀ j, i ≤ j → j < v.slots → base + j ≤ top → SameSlot w.block j d.slots (base + j)

section
variable {v : Volume} {d : Directory} {component : List UInt8} {root : Bool} {stride : Nat}
  {c : UInt32} {entry : Walk → Nat → Seen} {base i e top : Nat} {result : Option DirEntry}
  {w : Walk}

lemma Reached.mono {k n : Nat} (reached : Reached d component n) (before : k ≤ n) :
    Reached d component k :=
  ⟨lt_of_le_of_lt before reached.1,
    fun x entry named => le_trans before (reached.2 x entry named)⟩

lemma Over.next (covers : Over v d top base i w) : Over v d top base (i + 1) w :=
  ⟨covers.mounted, fun j above => covers.same j (Nat.le_of_succ_le above)⟩

lemma Over.group (covers : Over v d top base i w) (place : x.place = base + i)
    (fits : i + slotCount x.long < v.slots) (room : x.place + slotCount x.long ≤ top) :
    Group w.block i d.slots x.place x.long := by
  intro j low
  have same := covers.same (i + j) (Nat.le_add_right i j) (by omega) (by omega)
  rwa [← add_assoc, ← place] at same

lemma Over.slot (covers : Over v d top base i w) (inside : i < v.slots) (before : base + i ≤ top) :
    SameSlot w.block i d.slots (base + i) := covers.same i (Nat.le_refl i) inside before

lemma ordinary_of_same {k : Nat} (same : SameSlot w.block i d.slots k) (is : Ordinary d.slots k) :
    Ordinary w.block i :=
  ⟨same.id ▸ is.used, same.id ▸ is.kept, same.attr ▸ is.attr⟩

lemma compare_real (lies : x.Lies d.slots)
    (same : SameSlot w.block i d.slots (x.place + slotCount x.long)) (lName : List UInt8) :
    compareEntry (downcase component) lName w i =
      if downcase component ≠ getName d.slots (direntSize * (x.place + slotCount x.long)) ∧
          downcase component ≠ lName then .passed w
      else .matched x.dent w := by
  rw [compareEntry, same.name, same.dirent, ← lies.dent]

lemma compare_first (looks : Looks v (downcase component) root c entry)
    (covers : Over v d top base i w) (member : x ∈ d.entries) (long : x.long ≠ [])
    (place : x.place = base + i) (fits : i + slotCount x.long < v.slots)
    (room : x.place + slotCount x.long ≤ top) :
    ∃ w', Over v d top base (i + 1) w' ∧ entry w i =
      if downcase component ≠ getName d.slots (direntSize * (x.place + slotCount x.long)) ∧
          downcase component ≠ seenLong d.slots x then .passed w'
      else .matched x.dent w' := by
  obtain ⟨lies, -⟩ := d.laid.lies x member
  have name := lies.name long
  have some := slotCount_pos name
  have group := covers.group place fits room
  have first := group 0 (Nat.zero_le _)
  have named := longName_group name c covers.mounted group fits
  have real := withEntry_first w.block i (slotCount x.long)
  have real' : SameSlot (withEntry w.block i (slotCount x.long)) i d.slots
      (x.place + slotCount x.long) := fun j low =>
    (real j low).trans (group _ le_rfl j low)
  have attr : attrOf w.block i = attrVfat := first.attr.trans (name.attr 0 some)
  have last : isLast w.block i = true := first.isLast.trans ((id_of_name name some).2.mpr rfl)
  have kept : slotId w.block i ≠ deletedFlag := fun flag =>
    id_ne_deleted name (first.id.symm.trans flag)
  have used : slotId (withEntry w.block i (slotCount x.long)) i ≠ 0 := fun zero =>
    lies.is.used (real'.id.symm.trans zero)
  have volume : attrOf w.block i &&& attrVolume ≠ 0 := by
    rw [attr]
    decide
  refine ⟨{ w with block := withEntry w.block i (slotCount x.long) },
    ⟨covers.mounted, fun j above inside before => ?_⟩,
    (looks.long w i _ _ (.inr kept) volume last named used).trans (compare_real lies real' _)⟩
  have same := covers.same j (Nat.le_of_succ_le above) inside before
  exact fun t low => (withEntry_later w.block above _ t low).trans (same t low)

lemma downcase_ne_nil (some : component ≠ []) : downcase component ≠ [] :=
  fun none => some (List.map_eq_nil_iff.mp none)

lemma longName_none (c : UInt32) (mounted : w.mydata = v.start) (inside : i + 1 < v.slots)
    (many : 1 < (number w.block i).toNat)
    (stop : (number w.block (i + 1)).toNat + 1 ≠ (number w.block i).toNat) :
    longName v.disk c w i = some ([], w) := by
  obtain ⟨n, count⟩ := Nat.exists_eq_add_of_le' many
  have other : (number w.block (i + 1)).toNat ≠ n + 1 := by omega
  have follows : followSlots w.block v.slots (n + 2) i = none := by
    rw [followSlots, if_pos (Nat.lt_of_succ_lt inside), if_neg (not_not.mpr count), followSlots,
      if_pos inside, if_pos other]
  rw [longName_eq, getVfatname_eq, mounted, ← Volume.slots, count, follows]
  dsimp only [Option.elim, Option.map_some]
  rw [handOn, ← mounted]

lemma slot_passed (looks : Looks v (downcase component) root c entry) (some : component ≠ [])
    (covers : Over v d top base i w) (inside : i < v.slots) (upto : base + i + 1 ≤ top)
    (step : (base + i) % stride = i) (kept : root = true ∨ slotId w.block i ≠ deletedFlag)
    (used : slotId w.block i ≠ 0) (volume : attrOf w.block i &&& attrVolume ≠ 0)
    (passed : SlotPassed d.slots stride v.slots (base + i) component) :
    entry w i = .passed w := by
  have same := covers.slot inside (Nat.le_of_succ_le upto)
  rcases passed with other | ⟨more, many, stop, name⟩
  · exact looks.skipped w i volume (same.isLast.trans other)
  rw [step] at more
  have next := covers.same (i + 1) (Nat.le_succ i) more upto
  rw [← same.number] at many stop
  rw [add_assoc, ← next.number] at stop
  have named := longName_none c covers.mounted more many stop
  by_cases last : isLast w.block i = true
  · rw [looks.long w i [] w kept volume last named used, compareEntry, same.name]
    exact if_pos ⟨name.symm, downcase_ne_nil some⟩
  · exact looks.skipped w i volume (Bool.eq_false_iff.mpr last)

lemma deleted_passes (looks : Looks v (downcase component) root c entry) (some : component ≠ [])
    (plain : PlainSlots d root stride v.slots component) (reached : Reached d component (base + i))
    (covers : Over v d top base i w) (inside : i < v.slots) (upto : base + i + 1 ≤ top)
    (step : (base + i) % stride = i) (flag : slotId d.slots (base + i) = deletedFlag) :
    entry w i = .passed w := by
  have same := covers.slot inside (Nat.le_of_succ_le upto)
  have flag' : slotId w.block i = deletedFlag := same.id.trans flag
  by_cases harmless : root = false ∨ attrOf w.block i &&& attrVolume = 0
  · exact looks.deleted w i flag' harmless
  obtain ⟨other, volume⟩ := not_or.mp harmless
  have isRoot : root = true := Bool.not_eq_false _ ▸ other
  have used : slotId w.block i ≠ 0 := by
    rw [flag']
    decide
  exact slot_passed looks some covers inside upto step (.inl isRoot) used volume
    (plain.deleted _ reached flag isRoot (same.attr ▸ volume))

lemma label_passes (looks : Looks v (downcase component) root c entry) (some : component ≠ [])
    (plain : PlainSlots d root stride v.slots component) (reached : Reached d component (base + i))
    (covers : Over v d top base i w) (inside : i < v.slots) (upto : base + i + 1 ≤ top)
    (step : (base + i) % stride = i) (is : IsLabel d.slots (base + i)) :
    entry w i = .passed w := by
  have same := covers.slot inside (Nat.le_of_succ_le upto)
  have kept : slotId w.block i ≠ deletedFlag := same.id ▸ is.kept
  have used : slotId w.block i ≠ 0 := same.id ▸ is.used
  have volume : attrOf w.block i &&& attrVolume ≠ 0 := same.attr ▸ is.volume
  exact slot_passed looks some covers inside upto step (.inr kept) used volume
    (plain.labels _ reached is)

lemma first_passes (looks : Looks v (downcase component) root c entry)
    (plain : PlainSlots d root stride v.slots component) (covers : Over v d top base i w)
    (step : (base + i) % stride = i) (member : x ∈ d.entries) (long : x.long ≠ [])
    (place : x.place = base + i) (reached : Reached d component (base + i))
    (room : x.place + slotCount x.long ≤ top) (other : ¬ x.Named component) :
    ∃ w', entry w i = .passed w' ∧ Over v d top base (i + 1) w' := by
  have names := plain.names x member (place ▸ reached)
  have fits := plain.groups x member (place ▸ reached) long
  rw [place, step] at fits
  obtain ⟨w', covers', seen⟩ := compare_first looks covers member long place fits room
  have unseen := mt names.mp other
  refine ⟨w', seen.trans (if_pos ⟨?_, ?_⟩), covers'⟩
  · exact fun short => unseen (.inl short)
  · exact fun same => unseen (.inr ⟨long, same⟩)

lemma later_passes (looks : Looks v (downcase component) root c entry)
    (same : SameSlot w.block i d.slots (base + i)) (member : x ∈ d.entries) (long : x.long ≠ [])
    (above : x.place < base + i) (below : base + i < x.place + slotCount x.long) :
    entry w i = .passed w := by
  have name := (d.laid.lies x member).1.name long
  obtain ⟨j, later⟩ := Nat.exists_eq_add_of_le (le_of_lt above)
  have low : j < slotCount x.long := by omega
  apply looks.skipped w i
  · rw [same.attr, later, name.attr j low]
    decide
  · rw [same.isLast, later, ← Bool.not_eq_true, (id_of_name name low).2]
    omega

lemma real_passes (looks : Looks v (downcase component) root c entry)
    (plain : PlainSlots d root stride v.slots component) (some : component ≠ [])
    (same : SameSlot w.block i d.slots (base + i)) (member : x ∈ d.entries)
    (place : x.place + slotCount x.long = base + i) (reached : Reached d component x.place)
    (other : ¬ x.Named component) : entry w i = .passed w := by
  have lies := (d.laid.lies x member).1
  have unseen := mt (plain.names x member reached).mp other
  rw [← place] at same
  rw [looks.ordinary w i (ordinary_of_same same lies.is), compare_real lies same []]
  exact if_pos ⟨fun short => unseen (.inl short), downcase_ne_nil some⟩

lemma passes (looks : Looks v (downcase component) root c entry)
    (plain : PlainSlots d root stride v.slots component) (some : component ≠ [])
    (clear : Clear d component e) (upto : e ≤ top) (before : base + i < e)
    (covers : Over v d top base i w) (inside : i < v.slots) (step : (base + i) % stride = i) :
    ∃ w', entry w i = .passed w' ∧ Over v d top base (i + 1) w' := by
  have reached := clear.reached before
  have same := covers.slot inside (by omega)
  have next : base + i + 1 ≤ top := le_trans before upto
  cases d.laid.slotIs (Nat.zero_le _) reached.1 with
  | deleted flag =>
    exact ⟨w, deleted_passes looks some plain reached covers inside next step flag, covers.next⟩
  | label is =>
    exact ⟨w, label_passes looks some plain reached covers inside next step is, covers.next⟩
  | @first x member long place =>
    have room := clear.room x member (place ▸ before)
    have other := clear.unnamed x member (place ▸ before)
    exact first_passes looks plain covers step member long place reached (by omega) other
  | later member long above below =>
    exact ⟨w, later_passes looks same member long above below, covers.next⟩
  | @real x member place =>
    have first : x.place ≤ base + i := by omega
    have other := clear.unnamed x member (lt_of_le_of_lt first before)
    exact ⟨w, real_passes looks plain some same member place (reached.mono first) other,
      covers.next⟩

lemma stops (looks : Looks v (downcase component) root c entry)
    (plain : PlainSlots d root stride v.slots component)
    (ends : EndsAt d component e top result) (here : base + i = e) (covers : Over v d top base i w)
    (inside : i < v.slots) (step : (base + i) % stride = i) : found (entry w i) = some result := by
  cases ends with
  | @found x member named =>
    obtain ⟨lies, last⟩ := d.laid.lies x member
    have reached := reached_named member named le_rfl
    have names := plain.names x member reached
    have which := names.mpr named
    by_cases long : x.long = []
    · have count : slotCount x.long = 0 := by rw [long, slotCount_nil]
      have same := covers.slot inside (here ▸ Nat.le_add_right _ _)
      have short := which.resolve_right fun both => both.1 long
      rw [here, ← add_zero x.place, ← count] at same
      rw [looks.ordinary w i (ordinary_of_same same lies.is), compare_real lies same [],
        if_neg fun both => both.1 short]
      rfl
    · have fits := plain.groups x member reached long
      rw [← here, step] at fits
      obtain ⟨w', -, seen⟩ := compare_first looks covers member long here.symm fits
        le_rfl
      rw [seen, if_neg]
      · rfl
      · rintro ⟨short, other⟩
        exact which.elim short fun both => other both.2
  | free unnamed more =>
    have same := covers.slot inside (le_of_eq here)
    have zero : slotId w.block i = 0 := by
      rw [same.id, here]
      exact d.ended.resolve_left (ne_of_lt more)
    have attr := plain.free unnamed more
    rw [← here, ← same.attr] at attr
    rw [looks.free w i zero attr]
    rfl

lemma scan_passes (looks : Looks v (downcase component) root c entry)
    (plain : PlainSlots d root stride v.slots component) (some : component ≠ [])
    (clear : Clear d component e) (upto : e ≤ top) {left : Nat} (before : base + i + left ≤ e)
    (covers : Over v d top base i w) (inside : i + left ≤ v.slots)
    (step : ∀ j < i + left, (base + j) % stride = j) :
    ∃ w', scan entry left i w = .passed w' := by
  induction left generalizing i w with
  | zero => exact ⟨w, rfl⟩
  | succ left ih =>
    obtain ⟨w', seen, covers'⟩ :=
      passes looks plain some clear upto (by omega) covers (by omega) (step i (by omega))
    rw [scan, seen]
    exact ih (by omega) covers' (by omega) fun j low => step j (by omega)

lemma scan_stops (looks : Looks v (downcase component) root c entry)
    (plain : PlainSlots d root stride v.slots component) (some : component ≠ [])
    (ends : EndsAt d component e top result) {left : Nat} (from_ : base + i ≤ e)
    (last : e < base + i + left) (covers : Over v d top base i w) (inside : i + left ≤ v.slots)
    (step : ∀ j < i + left, (base + j) % stride = j) :
    found (scan entry left i w) = .some result := by
  induction left generalizing i w with
  | zero => omega
  | succ left ih =>
    rw [scan]
    rcases eq_or_lt_of_le from_ with here | later
    · have stop := stops looks plain ends here covers (by omega) (step i (by omega))
      generalize entry w i = seen at stop ⊢
      cases seen with
      | passed w' => cases stop
      | matched dent w' => exact stop
      | ended w' => exact stop
      | unread w' => exact stop
      | outside => exact stop
    · obtain ⟨w', seen, covers'⟩ :=
        passes looks plain some ends.clear ends.upto later covers (by omega) (step i (by omega))
      rw [seen]
      exact ih (by omega) (by omega) covers' (by omega) fun j low => step j (by omega)

end

structure Spans (v : Volume) (d : Directory) (chain : List UInt32) : Prop where
  some : 0 < v.slots
  total : d.total = chain.length * v.slots
  same : ∀ t < chain.length, ∀ k < v.slots,
    SameSlot (clusterView v.medium v.partOffset v.start.toGeometry (chain.getD t 0)) k d.slots
      (v.slots * t + k)

structure LinkSeen (v : Volume) (chain : List UInt32) (t : Nat) : Prop where
  leads : link v (chain.getD t 0) = chain.getD (t + 1) 0
  on : checkClust (chain.getD (t + 1) 0) v.start.fatsize = false

section
variable {v : Volume} {d : Directory} {component : List UInt8} {chain : List UInt32}
  {e top : Nat} {result : Option DirEntry} {t : Nat}

lemma EndsAt.lt_total (ends : EndsAt d component e top result) : e < d.total := by
  cases ends with
  | found entry named =>
    exact lt_of_lt_of_le (reached_named entry named le_rfl).1 d.inside
  | free _ more => exact more

lemma Spans.covers (spans : Spans v d chain) (inside : t < chain.length) (top : Nat) :
    Over v d top (v.slots * t) 0
      (opened v (clusterView v.medium v.partOffset v.start.toGeometry (chain.getD t 0))) :=
  ⟨rfl, fun j _ low _ => spans.same t inside j low⟩

lemma place_mod {stride : Nat} (t : Nat) {j : Nat} (low : j < 0 + stride) :
    (stride * t + j) % stride = j := by
  rw [Nat.mul_add_mod, Nat.mod_eq_of_lt (by omega)]

lemma Spans.goes_on (spans : Spans v d chain)
    (plain : PlainSlots d false v.slots v.slots component) (some : component ≠ [])
    (clear : Clear d component e) (inside : t < chain.length) (before : v.slots * (t + 1) ≤ e) :
    goesOn (clusterSeen v false (downcase component) (chain.getD t 0)) = true := by
  rw [Nat.mul_succ] at before
  obtain ⟨w', seen⟩ := scan_passes (looks_dir v (downcase component) (chain.getD t 0)) plain some
    clear (Nat.le_refl e) before (spans.covers inside e) (le_of_eq (zero_add _))
    fun j low => place_mod t low
  rw [clusterSeen, seen]
  rfl

lemma Spans.ends_here (spans : Spans v d chain)
    (plain : PlainSlots d false v.slots v.slots component) (some : component ≠ [])
    (ends : EndsAt d component e top result) (before : v.slots * t ≤ e)
    (here : e < v.slots * (t + 1)) :
    DirFinds v false (downcase component) (chain.getD t 0) result := by
  have inside : t < chain.length := by
    have total := ends.lt_total
    refine Nat.lt_of_mul_lt_mul_left (a := v.slots) ?_
    rw [spans.total, mul_comm] at total
    omega
  rw [Nat.mul_succ] at here
  exact .here (scan_stops (looks_dir v (downcase component) (chain.getD t 0)) plain some ends
    before here (spans.covers inside top) (le_of_eq (zero_add _)) fun j low =>
      place_mod t low)

lemma Spans.finds (spans : Spans v d chain)
    (plain : PlainSlots d false v.slots v.slots component) (some : component ≠ [])
    (ends : EndsAt d component e top result)
    (links : ∀ t, v.slots * (t + 1) ≤ e → LinkSeen v chain t) (before : v.slots * t ≤ e) :
    DirFinds v false (downcase component) (chain.getD t 0) result := by
  have positive := spans.some
  obtain ⟨n, far⟩ : ∃ n, e < v.slots * (t + n + 1) :=
    ⟨e, lt_of_lt_of_le (by omega) (Nat.le_mul_of_pos_left _ positive)⟩
  induction n generalizing t with
  | zero => exact spans.ends_here plain some ends before far
  | succ n ih =>
    by_cases here : e < v.slots * (t + 1)
    · exact spans.ends_here plain some ends before here
    have later := not_lt.mp here
    have seen := links t later
    have inside : t < chain.length := by
      have total := ends.lt_total
      refine Nat.lt_of_mul_lt_mul_left (a := v.slots) ?_
      rw [spans.total, mul_comm] at total
      omega
    refine .next (spans.goes_on plain some ends.clear inside later) ?_ ?_
    · rw [seen.leads]
      exact seen.on
    · rw [seen.leads]
      refine ih later ?_
      rwa [Nat.add_right_comm t 1 n]

lemma Spans.finds_none (spans : Spans v d chain)
    (plain : PlainSlots d false v.slots v.slots component) (some : component ≠ [])
    (unnamed : Unnamed d component) (full : d.last = d.total)
    (links : ∀ t, t + 1 < chain.length → LinkSeen v chain t)
    (stop : checkClust (link v (chain.getD (chain.length - 1) 0)) v.start.fatsize = true)
    (inside : t < chain.length) : DirFinds v false (downcase component) (chain.getD t 0) none := by
  have on {t : Nat} (inside : t < chain.length) :
      goesOn (clusterSeen v false (downcase component) (chain.getD t 0)) = true := by
    refine spans.goes_on plain some unnamed.clear inside ?_
    rw [full, spans.total, mul_comm chain.length]
    exact Nat.mul_le_mul_left _ inside
  obtain ⟨n, length⟩ := Nat.exists_eq_add_of_lt inside
  induction n generalizing t with
  | zero =>
    have last : chain.length - 1 = t := by omega
    rw [last] at stop
    exact .last (on inside) stop
  | succ n ih =>
    have seen := links t (by omega)
    refine .next (on inside) ?_ ?_
    · rw [seen.leads]
      exact seen.on
    · rw [seen.leads]
      exact ih (by omega) (by omega)

lemma root_over {s : UInt32}
    (same : ∀ k ≤ top, SameSlot (view v.medium (s + v.partOffset)) k d.slots k) (t : Nat) :
    Over v d top (direntsPerBlock * t) 0
      (opened v (view v.medium (s + UInt32.ofNat t + v.partOffset))) := by
  refine ⟨rfl, fun j _ _ before b low => ?_⟩
  have sector : s + UInt32.ofNat t + v.partOffset = s + v.partOffset + UInt32.ofNat t := by
    rw [UInt32.add_assoc, UInt32.add_comm (UInt32.ofNat t), ← UInt32.add_assoc]
  have byte : 512 * t + (direntSize * j + b) = direntSize * (direntsPerBlock * t + j) + b := by
    change 512 * t + (32 * j + b) = 32 * (16 * t + j) + b
    omega
  change view v.medium (s + UInt32.ofNat t + v.partOffset) (direntSize * j + b) = _
  rw [sector, view_add, byte]
  exact same _ before b low

lemma root_ends_here {s : UInt32}
    (same : ∀ k ≤ top, SameSlot (view v.medium (s + v.partOffset)) k d.slots k)
    (block : direntsPerBlock ≤ v.slots)
    (plain : PlainSlots d true direntsPerBlock v.slots component) (some : component ≠ [])
    (ends : EndsAt d component e top result) (before : direntsPerBlock * t ≤ e)
    (here : e < direntsPerBlock * (t + 1)) :
    RootFinds v false (downcase component) (s + UInt32.ofNat t) result := by
  rw [Nat.mul_succ] at here
  exact .here (scan_stops (looks_root v (downcase_ne_nil some)) plain some ends before here
    (root_over same t) (by omega) fun j low =>
      place_mod t low)

lemma root_finds {s : UInt32}
    (same : ∀ k ≤ top, SameSlot (view v.medium (s + v.partOffset)) k d.slots k)
    (block : direntsPerBlock ≤ v.slots)
    (plain : PlainSlots d true direntsPerBlock v.slots component) (some : component ≠ [])
    (ends : EndsAt d component e top result) (before : direntsPerBlock * t ≤ e) :
    RootFinds v false (downcase component) (s + UInt32.ofNat t) result := by
  have positive : 0 < direntsPerBlock := by decide
  obtain ⟨n, far⟩ : ∃ n, e < direntsPerBlock * (t + n + 1) :=
    ⟨e, lt_of_lt_of_le (by omega) (Nat.le_mul_of_pos_left _ positive)⟩
  induction n generalizing t with
  | zero => exact root_ends_here same block plain some ends before far
  | succ n ih =>
    by_cases here : e < direntsPerBlock * (t + 1)
    · exact root_ends_here same block plain some ends before here
    have later := not_lt.mp here
    have whole := later
    rw [Nat.mul_succ] at whole
    obtain ⟨w', seen⟩ := scan_passes (looks_root v (downcase_ne_nil some)) plain some ends.clear
      ends.upto whole (root_over same t) (by omega) fun j low =>
        place_mod t low
    refine .next ?_ ?_
    · rw [rootSeen, seen]
      rfl
    · rw [UInt32.add_assoc, ← UInt32.ofNat_one, ← UInt32.ofNat_add]
      refine ih later ?_
      rwa [Nat.add_right_comm t 1 n]

end

end FatLookup
