import Mathlib.Data.List.TakeWhile
import UBoot.Fs.Fat

/-!
# The bounds of a long name (fs/fat/fat.c)

`get_vfatname` goes back from where the numbers of the slots end to a slot that ends the name, and
stores all characters on the way. Neither that there is such a slot nor that the characters have
room is checked.
-/

namespace FatLongName

open ByteMemory Fat FatNames

variable {m : Mem} {slot : Nat}

def text (m : Mem) (slot : Nat) : List UInt8 := (slotChars m slot).takeWhile (· ≠ 0)

def Ends (m : Mem) (slot : Nat) : Prop := 0 ∈ slotChars m slot ∨ isLast m slot = true

def textLength (m : Mem) : Nat → Nat
  | 0 => 0
  | n + 1 => textLength m n + (text m n).length

/-- Back from `top`, behind `taken` characters: a slot ends the name, and there is room for the
characters up to it and for a terminator. -/
def NameEnds (m : Mem) (top taken : Nat) : Prop :=
  ∃ s < top, Ends m s ∧ (∀ k, s < k → k < top → ¬ Ends m k) ∧
    taken + 13 * (top - 1 - s) + (text m s).length < lNameSize

lemma slotChars_length (m : Mem) (slot : Nat) : (slotChars m slot).length = 13 := rfl

lemma text_le (m : Mem) (slot : Nat) : (text m slot).length ≤ 13 :=
  (List.takeWhile_prefix _).length_le

lemma text_of_whole (whole : 0 ∉ slotChars m slot) :
    text m slot = slotChars m slot := by
  refine List.takeWhile_eq_self_iff.mpr fun c member => decide_eq_true ?_
  rintro rfl
  exact whole member

variable {lName : List UInt8}

lemma putChars_terminated {chars : List UInt8} (terminated : 0 ∈ chars) :
    putChars chars lName =
      if lName.length + (chars.takeWhile (· ≠ 0)).length < lNameSize then
        some (true, lName ++ chars.takeWhile (· ≠ 0))
      else none := by
  induction chars generalizing lName with
  | nil => cases terminated
  | cons c rest ih =>
    rw [putChars]
    by_cases zero : c = 0
    · have none : (c :: rest).takeWhile (· ≠ 0) = [] :=
        List.takeWhile_cons_of_neg fun nonzero => of_decide_eq_true nonzero zero
      rw [if_pos zero, none, List.length_nil, add_zero, List.append_nil]
    have later : 0 ∈ rest := (List.mem_cons.mp terminated).resolve_left (Ne.symm zero)
    have first : (c :: rest).takeWhile (· ≠ 0) = c :: rest.takeWhile (· ≠ 0) :=
      List.takeWhile_cons_of_pos (decide_eq_true zero)
    have one : (lName ++ [c]).length = lName.length + 1 := List.length_append
    rw [if_neg zero, ih later, first, one, List.length_cons, List.append_assoc, add_assoc,
      add_comm 1]
    by_cases room : lName.length < lNameSize
    · rw [if_pos room]
      rfl
    · rw [if_neg room, if_neg (by omega)]

lemma putChars_whole {chars : List UInt8} (whole : 0 ∉ chars) (room : lName.length ≤ lNameSize) :
    putChars chars lName =
      if lName.length + chars.length ≤ lNameSize then some (false, lName ++ chars) else none := by
  induction chars generalizing lName with
  | nil => rw [putChars, List.length_nil, add_zero, if_pos room, List.append_nil]
  | cons c rest ih =>
    have zero : c ≠ 0 := fun zero => whole (zero ▸ List.mem_cons_self)
    have later : 0 ∉ rest := fun member => whole (List.mem_cons_of_mem c member)
    have one : (lName ++ [c]).length = lName.length + 1 := List.length_append
    rw [putChars, if_neg zero]
    by_cases more : lName.length < lNameSize
    · rw [if_pos more, ih later (one ▸ more), one, List.length_cons, List.append_assoc,
        add_assoc, add_comm 1]
      rfl
    · rw [if_neg more, if_neg]
      rw [List.length_cons]
      omega

lemma slot2str_ends (terminated : 0 ∈ slotChars m slot) :
    slot2str m slot lName =
      if lName.length + (text m slot).length < lNameSize then some (true, lName ++ text m slot)
      else none :=
  putChars_terminated terminated

lemma slot2str_whole (whole : 0 ∉ slotChars m slot) (room : lName.length ≤ lNameSize) :
    slot2str m slot lName =
      if lName.length + 13 ≤ lNameSize then some (false, lName ++ text m slot) else none := by
  rw [slot2str, putChars_whole whole room, text_of_whole whole]
  rfl

variable {top : Nat}

lemma nameEnds_here (ends : Ends m top) (taken : Nat) :
    NameEnds m (top + 1) taken ↔ taken + (text m top).length < lNameSize := by
  constructor
  · rintro ⟨s, below, -, passed, room⟩
    rcases Nat.lt_succ_iff_lt_or_eq.mp below with lower | rfl
    · exact absurd ends (passed top lower (Nat.lt_succ_self top))
    · rwa [Nat.add_sub_cancel, Nat.sub_self, mul_zero, add_zero] at room
  · intro room
    refine ⟨top, Nat.lt_succ_self top, ends, fun k above below => by omega, ?_⟩
    rwa [Nat.add_sub_cancel, Nat.sub_self, mul_zero, add_zero]

lemma nameEnds_below (passed : ¬ Ends m top) (taken : Nat) :
    NameEnds m (top + 1) taken ↔ NameEnds m top (taken + 13) := by
  constructor
  · rintro ⟨s, below, ends, others, room⟩
    have lower : s < top := by
      refine Nat.lt_of_le_of_ne (Nat.le_of_lt_succ below) ?_
      rintro rfl
      exact passed ends
    refine ⟨s, lower, ends, fun k above inside => others k above (Nat.lt_succ_of_lt inside), ?_⟩
    omega
  · rintro ⟨s, below, ends, others, room⟩
    refine ⟨s, Nat.lt_succ_of_lt below, ends, fun k above inside => ?_, by omega⟩
    rcases Nat.lt_succ_iff_lt_or_eq.mp inside with lower | rfl
    · exact others k above lower
    · exact passed

lemma takeSlots_terminated (terminated : 0 ∈ slotChars m top) :
    takeSlots m (top + 1) lName =
      if lName.length + (text m top).length < lNameSize then some (lName ++ text m top)
      else none := by
  rw [takeSlots, slot2str_ends terminated]
  split_ifs
  · exact if_pos (.inl rfl)
  · rfl

lemma takeSlots_whole (whole : 0 ∉ slotChars m top) (room : lName.length ≤ lNameSize) :
    takeSlots m (top + 1) lName =
      if lName.length + 13 ≤ lNameSize then
        if isLast m top = true then some (lName ++ text m top)
        else takeSlots m top (lName ++ text m top)
      else none := by
  rw [takeSlots, slot2str_whole whole room]
  by_cases more : lName.length + 13 ≤ lNameSize
  · rw [if_pos more, if_pos more]
    dsimp only
    by_cases last : isLast m top = true
    · rw [if_pos (.inr last), if_pos last]
    rw [if_neg last, if_neg]
    rintro (none | last')
    · cases none
    · exact last last'
  · rw [if_neg more, if_neg more]

lemma takeSlots_iff (m : Mem) (top : Nat) (room : lName.length ≤ lNameSize) :
    (∃ name, takeSlots m top lName = some name ∧ name.length < lNameSize) ↔
      NameEnds m top lName.length := by
  induction top generalizing lName with
  | zero =>
    constructor
    · rintro ⟨name, taken, -⟩
      cases taken
    · rintro ⟨s, below, -⟩
      exact absurd below (Nat.not_lt_zero s)
  | succ top ih =>
    have joined : (lName ++ text m top).length = lName.length + (text m top).length :=
      List.length_append
    by_cases terminated : 0 ∈ slotChars m top
    · rw [nameEnds_here (.inl terminated), takeSlots_terminated terminated]
      constructor
      · rintro ⟨name, taken, fits⟩
        split_ifs at taken with more
        exact more
      · intro more
        exact ⟨_, if_pos more, joined ▸ more⟩
    have length : (text m top).length = 13 := by rw [text_of_whole terminated, slotChars_length]
    rw [takeSlots_whole terminated room]
    by_cases last : isLast m top = true
    · rw [nameEnds_here (.inr last), if_pos last, length]
      constructor
      · rintro ⟨name, taken, fits⟩
        split_ifs at taken
        cases taken
        rwa [joined, length] at fits
      · intro more
        exact ⟨_, if_pos (le_of_lt more), by rwa [joined, length]⟩
    · have passed : ¬ Ends m top := fun ends => ends.elim terminated last
      rw [nameEnds_below passed, if_neg last]
      by_cases more : lName.length + 13 ≤ lNameSize
      · rw [if_pos more, ih (by rwa [joined, length]), joined, length]
      rw [if_neg more]
      constructor
      · rintro ⟨name, taken, -⟩
        cases taken
      · rintro ⟨s, -, -, -, fits⟩
        omega

lemma slot2str_some (room : lName.length ≤ lNameSize) {terminated : Bool} {name : List UInt8}
    (stored : slot2str m slot lName = some (terminated, name)) :
    name = lName ++ text m slot ∧ name.length ≤ lNameSize := by
  by_cases zero : 0 ∈ slotChars m slot
  · rw [slot2str_ends zero] at stored
    split_ifs at stored with more
    cases stored
    exact ⟨rfl, List.length_append ▸ le_of_lt more⟩
  · rw [slot2str_whole zero room] at stored
    split_ifs at stored with more
    cases stored
    refine ⟨rfl, ?_⟩
    rwa [List.length_append, text_of_whole zero, slotChars_length]

lemma slot2str_fits (fits : lName.length + (text m slot).length < lNameSize) :
    ∃ terminated, slot2str m slot lName = some (terminated, lName ++ text m slot) := by
  by_cases zero : 0 ∈ slotChars m slot
  · exact ⟨true, by rw [slot2str_ends zero, if_pos fits]⟩
  · have whole : (text m slot).length = 13 := by rw [text_of_whole zero, slotChars_length]
    exact ⟨false, by rw [slot2str_whole zero (by omega), if_pos (by omega)]⟩

lemma takeBlock_length {n : Nat} {name : List UInt8} (room : lName.length ≤ lNameSize)
    (taken : takeBlock m n lName = some name) :
    name.length = lName.length + textLength m n ∧ name.length ≤ lNameSize := by
  induction n generalizing lName with
  | zero =>
    cases taken
    exact ⟨rfl, room⟩
  | succ n ih =>
    rw [takeBlock] at taken
    cases stored : slot2str m n lName with
    | none =>
      rw [stored] at taken
      cases taken
    | some pair =>
      rw [stored] at taken
      obtain ⟨joined, fits⟩ := slot2str_some room stored
      obtain ⟨sum, most⟩ := ih fits taken
      refine ⟨?_, most⟩
      rw [sum, joined, List.length_append, textLength]
      omega

lemma takeBlock_fits {n : Nat} (fits : lName.length + textLength m n < lNameSize) :
    ∃ name, takeBlock m n lName = some name := by
  induction n generalizing lName with
  | zero => exact ⟨lName, rfl⟩
  | succ n ih =>
    rw [textLength] at fits
    obtain ⟨terminated, stored⟩ := slot2str_fits (show
      lName.length + (text m n).length < lNameSize by omega)
    rw [takeBlock, stored]
    refine ih ?_
    rw [List.length_append]
    omega

def First (block : Mem) (slot : Nat) : Prop :=
  slotId block slot ≤ 1 ∧ ∀ k < slot, slotId block k > 1

lemma findFirst_iff (block : Mem) (left : Nat) {found : Nat} :
    findFirst block left slot = some found ↔
      slot ≤ found ∧ found < slot + left ∧ slotId block found ≤ 1 ∧
        ∀ k, slot ≤ k → k < found → slotId block k > 1 := by
  induction left generalizing slot with
  | zero =>
    constructor
    · intro impossible
      cases impossible
    · rintro ⟨above, below, -⟩
      omega
  | succ left ih =>
    rw [findFirst]
    by_cases more : slotId block slot > 1
    · rw [if_pos more, ih]
      constructor
      · rintro ⟨above, below, low, before⟩
        refine ⟨Nat.le_of_succ_le above, by omega, low, fun k least most => ?_⟩
        rcases eq_or_lt_of_le least with rfl | later
        · exact more
        · exact before k later most
      · rintro ⟨above, below, low, before⟩
        have apart : slot ≠ found := by
          rintro rfl
          exact absurd more (UInt8.not_lt.mpr low)
        exact ⟨Nat.lt_of_le_of_ne above apart, by omega, low,
          fun k least most => before k (Nat.le_of_succ_le least) most⟩
    · rw [if_neg more, Option.some_inj]
      constructor
      · rintro rfl
        exact ⟨le_rfl, by omega, UInt8.not_lt.mp more, fun k least most => by omega⟩
      · rintro ⟨above, below, low, before⟩
        rcases eq_or_lt_of_le above with same | later
        · exact same
        · exact absurd (before slot le_rfl later) more

def CountsDown (m : Mem) (slots counter slot : Nat) : Prop :=
  ∀ k < counter, slot + k < slots → (number m (slot + k)).toNat = counter - k

lemma countsDown_succ {slots counter : Nat} (inside : slot < slots) :
    CountsDown m slots (counter + 1) slot ↔
      (number m slot).toNat = counter + 1 ∧ CountsDown m slots counter (slot + 1) := by
  constructor
  · intro down
    refine ⟨down 0 (Nat.succ_pos counter) inside, fun k low reach => ?_⟩
    have next := down (k + 1) (Nat.succ_lt_succ low) (by omega)
    rw [add_assoc, add_comm 1, next]
    omega
  · rintro ⟨here, down⟩ k low reach
    cases k with
    | zero => exact here
    | succ k =>
      have next := down k (Nat.lt_of_succ_lt_succ low) (by omega)
      rw [add_comm k, ← add_assoc, next]
      omega

lemma followSlots_iff {slots counter : Nat} (inside : slot ≤ slots) {slotptr : Nat} :
    followSlots m slots counter slot = some slotptr ↔
      CountsDown m slots counter slot ∧ slotptr = min (slot + counter) slots := by
  induction counter generalizing slot with
  | zero =>
    rw [followSlots, Option.some_inj, add_zero, min_eq_left inside]
    constructor
    · rintro rfl
      exact ⟨fun k low => absurd low (Nat.not_lt_zero k), rfl⟩
    · rintro ⟨-, rfl⟩
      rfl
  | succ counter ih =>
    rw [followSlots]
    by_cases more : slot < slots
    · rw [if_pos more, countsDown_succ more]
      by_cases same : (number m slot).toNat = counter + 1
      · have index : slot + 1 + counter = slot + (counter + 1) := by omega
        rw [if_neg (not_not.mpr same), ih more, Nat.succ_eq_add_one, index]
        constructor
        · rintro ⟨down, ended⟩
          exact ⟨⟨same, down⟩, ended⟩
        · rintro ⟨⟨-, down⟩, ended⟩
          exact ⟨down, ended⟩
      · rw [if_pos same]
        constructor
        · intro impossible
          cases impossible
        · rintro ⟨⟨same', -⟩, -⟩
          exact absurd same' same
    · rw [if_neg more, Option.some_inj]
      have whole : slot = slots := le_antisymm inside (not_lt.mp more)
      rw [min_eq_right (by omega), whole]
      constructor
      · rintro rfl
        exact ⟨fun k low reach => by omega, rfl⟩
      · rintro ⟨-, rfl⟩
        rfl

lemma getFatent_geometry (disk : Disk) (mydata : Fsdata) (entry : UInt32) :
    (getFatent disk mydata entry).1.toGeometry = mydata.toGeometry := by
  rw [getFatent, cacheBlock]
  by_cases there : bufnumOf mydata.fatsize entry = mydata.fatbufnum
  · rw [if_pos there]
  rw [if_neg there]
  dsimp only
  split_ifs
  · rfl
  · rfl

/-- The numbers of the slots in front of an entry, up to that of the slot that is looked at. -/
def counterOf (cluster : Mem) (retdent : Nat) : Nat := (number cluster retdent).toNat

/-- The next cluster of the directory, and what `get_cluster` makes of it. -/
def nextClust (disk : Disk) (mydata : Fsdata) (curclust : UInt32) : UInt32 :=
  (getFatent disk mydata curclust).2

def nextBlock (disk : Disk) (mydata : Fsdata) (curclust : UInt32) (block : Mem) : Bool × Mem :=
  getCluster disk mydata.toGeometry (nextClust disk mydata curclust) block 0
    (bytesperclust mydata.toGeometry)

/-- The next cluster fits in its buffer and has a slot with an id of 0 or 1 and an entry behind it,
and the name ends below the last slot of the cluster, behind all characters of the next one. -/
def EndsAcross (mydata : Fsdata) (cluster block : Mem) : Prop :=
  ∃ slot, slot + 1 < maxSlots ∧ First block slot ∧
    NameEnds cluster (direntsPerClust mydata.toGeometry - 1) (textLength block (slot + 1))

/-- What keeps a name in its buffers where the numbers go down: they end in the cluster and the name
does in front of that, or the next cluster is not read, or the name ends across the two. -/
structure Contained (disk : Disk) (mydata : Fsdata) (curclust : UInt32) (cluster : Mem)
    (retdent : Nat) (block : Mem) : Prop where
  within : retdent + counterOf cluster retdent < direntsPerClust mydata.toGeometry →
    NameEnds cluster (retdent + counterOf cluster retdent) 0
  fits : direntsPerClust mydata.toGeometry ≤ retdent + counterOf cluster retdent →
    checkClust (nextClust disk mydata curclust) mydata.fatsize = false →
      mydata.clustSize.toNat * sectorSize ≤ maxClustsize
  across : direntsPerClust mydata.toGeometry ≤ retdent + counterOf cluster retdent →
    checkClust (nextClust disk mydata curclust) mydata.fatsize = false →
      (nextBlock disk mydata curclust block).1 = true →
        EndsAcross mydata cluster (nextBlock disk mydata curclust block).2

/-- `get_vfatname` reads slots in the two buffers, stores no more than `l_name` has room for, and
ends. -/
def Safe (disk : Disk) (mydata : Fsdata) (curclust : UInt32) (cluster : Mem) (retdent : Nat)
    (block : Mem) : Prop :=
  ∃ result, getVfatname disk mydata curclust cluster retdent block = some result

lemma finishName_iff (room : lName.length ≤ lNameSize) (cluster : Mem) (retdent slotptr : Nat)
    (realdent : List UInt8) (block : Mem) (mydata : Fsdata) :
    (∃ result, finishName lName cluster retdent slotptr realdent block mydata = some result) ↔
      NameEnds cluster slotptr lName.length := by
  rw [← takeSlots_iff cluster slotptr room, finishName]
  constructor
  · rintro ⟨result, finished⟩
    cases taken : takeSlots cluster slotptr lName with
    | none =>
      rw [taken] at finished
      cases finished
    | some name =>
      rw [taken] at finished
      dsimp only at finished
      split_ifs at finished with fits
      exact ⟨name, rfl, fits⟩
  · rintro ⟨name, taken, fits⟩
    rw [taken]
    exact ⟨_, if_pos fits⟩

lemma nameEnds_room {taken : Nat} (ends : NameEnds m top taken) :
    taken < lNameSize := by
  obtain ⟨s, -, -, -, room⟩ := ends
  omega

lemma nameAcross_iff (mydata : Fsdata) (cluster : Mem) (retdent slotptr : Nat) (block : Mem) :
    (∃ result, nameAcross mydata cluster retdent slotptr block = some result) ↔
      ∃ slot, slot + 1 < maxSlots ∧ First block slot ∧
        NameEnds cluster slotptr (textLength block (slot + 1)) := by
  have none : ([] : List UInt8).length = 0 := List.length_nil
  constructor
  · rintro ⟨result, found⟩
    rw [nameAcross] at found
    cases first : findFirst block maxSlots 0 with
    | none =>
      rw [first] at found
      cases found
    | some slot =>
      obtain ⟨-, -, low, before⟩ := (findFirst_iff block maxSlots).mp first
      rw [first] at found
      dsimp only at found
      split_ifs at found with inside
      cases taken : takeBlock block (slot + 1) [] with
      | none =>
        rw [taken] at found
        cases found
      | some lName =>
        rw [taken] at found
        obtain ⟨length, room⟩ := takeBlock_length (Nat.zero_le _) taken
        have ends := (finishName_iff room cluster retdent slotptr _ block mydata).mp ⟨result, found⟩
        rw [length, none, zero_add] at ends
        exact ⟨slot, inside, ⟨low, fun k below => before k (Nat.zero_le k) below⟩, ends⟩
  · rintro ⟨slot, inside, ⟨low, before⟩, ends⟩
    have first : findFirst block maxSlots 0 = some slot :=
      (findFirst_iff block maxSlots).mpr
        ⟨Nat.zero_le slot, by omega, low, fun k _ below => before k below⟩
    obtain ⟨lName, taken⟩ : ∃ name, takeBlock block (slot + 1) [] = some name := by
      refine takeBlock_fits ?_
      rw [none, zero_add]
      exact nameEnds_room ends
    obtain ⟨length, room⟩ := takeBlock_length (Nat.zero_le _) taken
    rw [none, zero_add] at length
    rw [nameAcross, first]
    dsimp only
    rw [if_pos inside, taken]
    exact (finishName_iff room cluster retdent slotptr _ block mydata).mpr (length ▸ ends)

lemma safe_within {disk : Disk} {mydata : Fsdata} {curclust : UInt32} {cluster : Mem}
    {retdent : Nat} {block : Mem} {slotptr : Nat}
    (followed : followSlots cluster (direntsPerClust mydata.toGeometry)
      (counterOf cluster retdent) retdent = some slotptr)
    (inside : slotptr < direntsPerClust mydata.toGeometry) :
    Safe disk mydata curclust cluster retdent block ↔ NameEnds cluster slotptr 0 := by
  rw [counterOf] at followed
  rw [Safe, getVfatname, followed]
  dsimp only
  rw [if_neg (not_le.mpr inside)]
  exact finishName_iff (Nat.zero_le _) cluster retdent slotptr _ block mydata

lemma safe_across {disk : Disk} {mydata : Fsdata} {curclust : UInt32} {cluster : Mem}
    {retdent : Nat} {block : Mem}
    (followed : followSlots cluster (direntsPerClust mydata.toGeometry)
      (counterOf cluster retdent) retdent = some (direntsPerClust mydata.toGeometry)) :
    Safe disk mydata curclust cluster retdent block ↔
      (checkClust (nextClust disk mydata curclust) mydata.fatsize = false →
        mydata.clustSize.toNat * sectorSize ≤ maxClustsize ∧
          ((nextBlock disk mydata curclust block).1 = true →
            EndsAcross mydata cluster (nextBlock disk mydata curclust block).2)) := by
  have geometry := getFatent_geometry disk mydata curclust
  have width : (getFatent disk mydata curclust).1.fatsize = mydata.fatsize :=
    congrArg Geometry.fatsize geometry
  have size : (getFatent disk mydata curclust).1.clustSize = mydata.clustSize :=
    congrArg Geometry.clustSize geometry
  rw [counterOf] at followed
  rw [Safe, getVfatname, followed]
  dsimp only
  rw [if_pos le_rfl, width, size, geometry, ← nextClust, ← nextBlock]
  by_cases stop : checkClust (nextClust disk mydata curclust) mydata.fatsize = true
  · rw [if_pos stop, stop]
    constructor
    · intro _ going
      cases going
    · intro _
      exact ⟨_, rfl⟩
  rw [if_neg stop, Bool.eq_false_iff.mpr stop]
  by_cases fits : mydata.clustSize.toNat * sectorSize ≤ maxClustsize
  · rw [if_pos fits]
    cases read : nextBlock disk mydata curclust block with
    | mk ok next =>
      cases ok with
      | false =>
        constructor
        · intro _ _
          refine ⟨fits, fun impossible => ?_⟩
          cases impossible
        · intro _
          exact ⟨_, rfl⟩
      | true =>
        rw [nameAcross_iff]
        constructor
        · intro ends _
          exact ⟨fits, fun _ => ends⟩
        · intro both
          exact (both rfl).2 rfl
  · rw [if_neg fits]
    constructor
    · rintro ⟨result, impossible⟩
      cases impossible
    · intro both
      exact absurd (both rfl).1 fits

/-- A long name is taken in its buffers if and only if its slots are contained where their numbers
go down. -/
theorem safe_iff {disk : Disk} {mydata : Fsdata} {curclust : UInt32} {cluster : Mem}
    {retdent : Nat} {block : Mem} (inside : retdent < direntsPerClust mydata.toGeometry) :
    Safe disk mydata curclust cluster retdent block ↔
      (CountsDown cluster (direntsPerClust mydata.toGeometry) (counterOf cluster retdent) retdent →
        Contained disk mydata curclust cluster retdent block) := by
  by_cases down : CountsDown cluster (direntsPerClust mydata.toGeometry)
    (counterOf cluster retdent) retdent
  · have followed := (followSlots_iff (Nat.le_of_lt inside)).mpr ⟨down, rfl⟩
    by_cases short : retdent + counterOf cluster retdent < direntsPerClust mydata.toGeometry
    · rw [Nat.min_eq_left (Nat.le_of_lt short)] at followed
      rw [safe_within followed short]
      constructor
      · intro ends _
        exact ⟨fun _ => ends, fun long => by omega, fun long => by omega⟩
      · intro contained
        exact (contained down).within short
    · have long := Nat.not_lt.mp short
      rw [Nat.min_eq_right long] at followed
      rw [safe_across followed]
      constructor
      · intro both _
        exact ⟨fun less => absurd less short, fun _ going => (both going).1,
          fun _ going => (both going).2⟩
      · intro contained going
        exact ⟨(contained down).fits long going, (contained down).across long going⟩
  · constructor
    · intro _ down'
      exact absurd down' down
    · intro _
      cases followed : followSlots cluster (direntsPerClust mydata.toGeometry)
        (counterOf cluster retdent) retdent with
      | some slotptr => exact absurd ((followSlots_iff (Nat.le_of_lt inside)).mp followed).1 down
      | none =>
        rw [counterOf] at followed
        rw [Safe, getVfatname, followed]
        exact ⟨_, rfl⟩

def noDevice : Disk := ⟨none, 0, fun _ => 0⟩

def small : Fsdata where
  fatsize := .fat16
  fatlength := 9
  fatSect := 1
  rootdirSect := 19
  clustSize := 1
  dataBegin := 31
  fatbuf := fun _ => 0
  fatbufnum := 0xFFFFFFFF

def slotFirst (id : UInt8) : Mem := fun k =>
  if k = 0 then id else if k = 1 then 97 else if k = 11 then 0x0f else 0

theorem single_slot_safe : Safe noDevice small 2 (slotFirst 0x41) 0 fun _ => 0 := by
  refine (safe_iff (by decide)).mpr fun _ => ⟨fun _ => ?_, fun long => ?_, fun long => ?_⟩
  · have room := text_le (slotFirst 0x41) 0
    refine ⟨0, by decide, Or.inr (by decide), fun k above below => ?_, ?_⟩
    · have one : k < 1 := below
      omega
    · change 0 + 13 * 0 + (text (slotFirst 0x41) 0).length < 256
      omega
  · exact absurd long (by decide)
  · exact absurd long (by decide)

/-- A slot that says that it is the last and has number 0 has the walk back start in front of the
cluster. -/
theorem number_zero_unsafe : isLast (slotFirst 0x40) 0 = true ∧
    ¬ Safe noDevice small 2 (slotFirst 0x40) 0 fun _ => 0 := by
  refine ⟨by decide, fun safe => ?_⟩
  have contained := (safe_iff (by decide)).mp safe fun k low _ => absurd low (Nat.not_lt_zero k)
  obtain ⟨s, below, -⟩ := contained.within (by decide)
  exact Nat.not_lt_zero s below

end FatLongName
