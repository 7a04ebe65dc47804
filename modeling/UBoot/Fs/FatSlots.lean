import UBoot.Fs.FatDirectory
import UBoot.Fs.FatLongName
import UBoot.Fs.FatSearch

/-!
# Entries that are seen as they are (fs/fat/fat.c)

What the two searches make of the slots of a directory, where names are not cut and the slots of a
long name lie in the buffer together with their entry.
-/

namespace FatSlots

open ByteMemory Fat FatTable FatNames FatLongName FatRead FatAlike FatSearch FatDirectory

def lowBytes (long : List UInt16) : List UInt8 := long.map UInt16.toUInt8

lemma low_of_word {D : Mem} {a : Nat} {u : UInt16} (word : fat2cpu16 D a = u.toNat) :
    D a = u.toUInt8 := by
  have byte := (D a).toNat_lt
  apply UInt8.toNat_inj.mp
  rw [UInt16.toNat_toUInt8, ← word, fat2cpu16]
  omega

section
variable {D : Mem} {k : Nat} {long : List UInt16} {j : Nat}

lemma slotCount_le (name : LongAt D k long) : slotCount long ≤ 20 := by
  have short := name.short
  rw [slotCount]
  omega

lemma slotCount_pos (name : LongAt D k long) : 0 < slotCount long := by
  have some := List.length_pos_iff.mpr name.some
  rw [slotCount]
  omega

lemma id_of_name (name : LongAt D k long) (inside : j < slotCount long) :
    (number D (k + j)).toNat = slotCount long - j ∧ (isLast D (k + j) = true ↔ j = 0) := by
  have all : ∀ n < 21, (((UInt8.ofNat n ||| 0x40) &&& 0xbf).toNat = n ∧
      (UInt8.ofNat n ||| 0x40) &&& 0x40 ≠ 0) ∧ ((UInt8.ofNat n ||| 0) &&& 0xbf).toNat = n ∧
        (UInt8.ofNat n ||| 0) &&& 0x40 = 0 := by decide
  have most := slotCount_le name
  obtain ⟨first, later⟩ := all (slotCount long - j) (by omega)
  rw [number, isLast, name.id j inside]
  by_cases zero : j = 0
  · rw [if_pos zero]
    exact ⟨first.1, fun _ => zero, fun _ => decide_eq_true first.2⟩
  · rw [if_neg zero]
    exact ⟨later.1, fun last => absurd later.2 (of_decide_eq_true last), fun z => absurd z zero⟩

lemma id_ne_deleted (name : LongAt D k long) : slotId D k ≠ deletedFlag := by
  have all : ∀ n < 21, UInt8.ofNat n ||| 0x40 ≠ deletedFlag := by decide
  have most := slotCount_le name
  have id := name.id 0 (slotCount_pos name)
  rw [add_zero, Nat.sub_zero, if_pos rfl] at id
  rw [id]
  exact all _ (by omega)

lemma chars_of_name (name : LongAt D k long) (inside : j < slotCount long) :
    slotChars D (k + j) = (List.range 13).map fun t =>
      (paddedUnit long (13 * (slotCount long - j - 1) + t)).toUInt8 := by
  have places : slotChars D (k + j) =
      (List.range 13).map fun t => D (direntSize * (k + j) + unitPlaces.getD t 0) := rfl
  rw [places]
  exact List.map_congr_left fun t member =>
    low_of_word (name.units j inside t (List.mem_range.mp member))

lemma lowBytes_length (long : List UInt16) : (lowBytes long).length = long.length :=
  List.length_map _

lemma padded_inside {t : Nat} (inside : t < (lowBytes long).length) :
    (paddedUnit long t).toUInt8 = (lowBytes long)[t] := by
  have inside' : t < long.length := lowBytes_length long ▸ inside
  rw [paddedUnit, if_pos inside', List.getD_eq_getElem?_getD, List.getElem?_eq_getElem inside']
  exact (List.getElem_map _).symm

lemma chars_ended (name : LongAt D k long) (inside : j < slotCount long)
    (some : 13 * (slotCount long - j - 1) ≤ long.length)
    (ended : long.length < 13 * (slotCount long - j - 1) + 13) :
    ∃ padding, slotChars D (k + j) =
      (lowBytes long).drop (13 * (slotCount long - j - 1)) ++ 0 :: padding := by
  have length := lowBytes_length long
  generalize first : 13 * (slotCount long - j - 1) = q at some ended
  refine ⟨List.replicate (12 - (long.length - q)) 0xff, ?_⟩
  rw [chars_of_name name inside, first]
  apply List.ext_getElem
  · rw [List.length_map, List.length_range, List.length_append, List.length_drop, List.length_cons,
      List.length_replicate]
    omega
  · intro t low _
    rw [List.length_map, List.length_range] at low
    rw [List.getElem_map, List.getElem_range]
    by_cases there : q + t < long.length
    · rw [List.getElem_append_left (by rw [List.length_drop]; omega), List.getElem_drop,
        padded_inside (by omega)]
    rw [List.getElem_append_right (by rw [List.length_drop]; omega), paddedUnit, if_neg there]
    by_cases last : q + t = long.length
    · have zero : t - ((lowBytes long).drop q).length = 0 := by
        rw [List.length_drop]
        omega
      rw [if_pos last]
      simp only [zero, List.getElem_cons_zero]
      rfl
    · obtain ⟨p, later⟩ : ∃ p, t - ((lowBytes long).drop q).length = p + 1 :=
        ⟨t - ((lowBytes long).drop q).length - 1, by rw [List.length_drop]; omega⟩
      rw [if_neg last]
      simp only [later, List.getElem_cons_succ, List.getElem_replicate]
      rfl

end

section
variable {D : Mem} {k : Nat} {long : List UInt16} {block : Mem} {i top : Nat}

def Group (block : Mem) (i : Nat) (D : Mem) (k : Nat) (long : List UInt16) : Prop :=
  ∀ j ≤ slotCount long, SameSlot block (i + j) D (k + j)

def withEntry (block : Mem) (i count : Nat) : Mem :=
  blit block (direntSize * i) (slice block (direntSize * (i + count)) direntSize)

variable {v : Volume}

lemma takeSlots_same {n : Nat} (same : ∀ j ≤ n, SameSlot block (i + j) D (k + j))
    (ends : isLast D k = true) (lName : List UInt8) :
    takeSlots block (i + n + 1) lName = takeSlots D (k + n + 1) lName := by
  induction n generalizing lName with
  | zero =>
    have here : SameSlot block i D k := same 0 (Nat.le_refl 0)
    rw [takeSlots, takeSlots, slot2str, slot2str, here.chars, here.isLast, ends]
    cases putChars (slotChars D k) lName with
    | none => rfl
    | some pair =>
      dsimp only
      rw [if_pos (.inr rfl), if_pos (.inr rfl)]
  | succ n ih =>
    have here := same (n + 1) le_rfl
    rw [takeSlots, takeSlots, slot2str, slot2str, here.chars, here.isLast]
    cases putChars (slotChars D (k + (n + 1))) lName with
    | none => rfl
    | some pair =>
      dsimp only
      rw [← add_assoc, ← add_assoc, ih fun j low => same j (Nat.le_succ_of_le low)]

lemma exists_end {n : Nat} (ends : Ends D k) :
    ∃ s, k ≤ s ∧ s < k + n + 1 ∧ Ends D s ∧ ∀ t, s < t → t < k + n + 1 → ¬ Ends D t := by
  induction n with
  | zero => exact ⟨k, Nat.le_refl k, Nat.lt_succ_self _, ends, fun t above below => by omega⟩
  | succ n ih =>
    by_cases here : Ends D (k + (n + 1))
    · exact ⟨k + (n + 1), Nat.le_add_right _ _, Nat.lt_succ_self _, here,
        fun t above below => by omega⟩
    obtain ⟨s, above, below, end_, others⟩ := ih
    refine ⟨s, above, by omega, end_, fun t more less => ?_⟩
    rcases Nat.lt_succ_iff_lt_or_eq.mp less with lower | rfl
    · exact others t more (by omega)
    · exact here

lemma takeSlots_some (name : LongAt D k long) :
    ∃ lName, takeSlots D (k + slotCount long) [] = some lName ∧ lName.length < lNameSize := by
  have size : lNameSize = 256 := rfl
  have some := slotCount_pos name
  have short := name.short
  have count : slotCount long = (long.length + 12) / 13 := rfl
  have room : ([] : List UInt8).length ≤ lNameSize := Nat.zero_le _
  refine (takeSlots_iff D (k + slotCount long) room).mpr ?_
  obtain ⟨s, above, below, ends, others⟩ := exists_end (n := slotCount long - 1)
    (show Ends D k from .inr ((id_of_name name some).2.mpr rfl))
  have index : k + (slotCount long - 1) + 1 = k + slotCount long := by omega
  rw [index] at below others
  refine ⟨s, below, ends, others, ?_⟩
  have whole := text_le D s
  rw [List.length_nil]
  rcases eq_or_lt_of_le above with rfl | later
  · by_cases full : long.length ≤ 247
    · omega
    obtain ⟨padding, rest⟩ := chars_ended name some (by omega) (by omega)
    have tail : (text D k).length ≤ long.length - 247 := by
      have first : 13 * (slotCount long - 0 - 1) = 247 := by omega
      rw [add_zero, first] at rest
      rw [text, rest, List.takeWhile_append]
      have none : (0 :: padding).takeWhile (· ≠ 0) = [] :=
        List.takeWhile_cons_of_neg fun other => of_decide_eq_true other rfl
      split_ifs with all
      · rw [none, List.append_nil, List.length_drop, lowBytes_length]
      · refine le_trans (List.takeWhile_prefix _).length_le ?_
        rw [List.length_drop, lowBytes_length]
    omega
  · omega

def seenLong (D : Mem) (x : Entry) : List UInt8 :=
  downcase (unmark ((takeSlots D (x.place + slotCount x.long) []).getD []))

lemma longName_group {x : Entry} (name : LongAt D x.place x.long) (c : UInt32) {w : Walk}
    (mounted : w.mydata = v.start) (same : Group w.block i D x.place x.long)
    (inside : i + slotCount x.long < v.slots) :
    longName v.disk c w i = some (seenLong D x,
      { w with block := withEntry w.block i (slotCount x.long) }) := by
  have some := slotCount_pos name
  have number : (number w.block i).toNat = slotCount x.long :=
    (congrArg UInt8.toNat (same 0 (Nat.zero_le _)).number).trans (id_of_name name some).1
  have down : CountsDown w.block v.slots (slotCount x.long) i := by
    intro j low _
    rw [(same j (le_of_lt low)).number]
    exact (id_of_name name low).1
  have followed : followSlots w.block v.slots (slotCount x.long) i =
      .some (i + slotCount x.long) :=
    (followSlots_iff (by omega)).mpr ⟨down, (min_eq_left (le_of_lt inside)).symm⟩
  obtain ⟨lName, taken, room⟩ := takeSlots_some name
  have read := takeSlots_same (n := slotCount x.long - 1) (fun j low => same j (by omega))
    ((id_of_name name some).2.mpr rfl) []
  have index (n : Nat) : n + (slotCount x.long - 1) + 1 = n + slotCount x.long := by omega
  rw [index, index, taken] at read
  rw [longName_eq, getVfatname_eq, mounted, ← Volume.slots, number, followed]
  dsimp only [Option.elim]
  rw [if_neg (not_le.mpr inside), finishName, read]
  dsimp only
  rw [if_pos room, seenLong, taken]
  rfl

lemma withEntry_first (block : Mem) (i count : Nat) :
    SameSlot (withEntry block i count) i block (i + count) := by
  intro j low
  rw [withEntry, blit_slice _ _ (Nat.le_add_right _ _) (Nat.add_lt_add_left low _)]
  congr 1
  omega

lemma withEntry_later (block : Mem) {i i' : Nat} (later : i < i') (count : Nat) :
    SameSlot (withEntry block i count) i' block i' := by
  intro j low
  have whole : direntSize * (i + 1) ≤ direntSize * i' := Nat.mul_le_mul_left _ later
  rw [Nat.mul_succ] at whole
  exact blit_after _ _ (by rw [slice_length]; omega)

def SeenNamed (D : Mem) (x : Entry) (component : List UInt8) : Prop :=
  downcase component = getName D (direntSize * (x.place + slotCount x.long)) ∨
    x.long ≠ [] ∧ downcase component = seenLong D x

end

end FatSlots
