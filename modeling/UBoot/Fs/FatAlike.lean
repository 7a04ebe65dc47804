import UBoot.Fs.FatContents
import UBoot.Fs.FatRead

/-!
# Searches that go on alike (fs/fat/fat.c)

On a disk whose sectors can all be read, what comes of a cluster of a directory depends on its bytes
alone: not on what was searched before, and not on what the buffers held.
-/

namespace FatAlike

open ByteMemory Fat FatTable FatNames FatContents FatRead

structure Volume where
  medium : Medium
  partOffset : UInt32
  stack : Mem
  start : Fsdata
  nameBlock : Mem

variable {v : Volume}

def Volume.disk (v : Volume) : Disk := delivering v.medium v.partOffset v.stack

def Volume.size (v : Volume) : Nat := clusterSize v.start.toGeometry
def Volume.slots (v : Volume) : Nat := direntsPerClust v.start.toGeometry

lemma size_eq (v : Volume) : v.size = direntSize * v.slots := by
  have even : direntSize * direntsPerClust v.start.toGeometry = clusterSize v.start.toGeometry := by
    rw [direntsPerClust, clusterSize, direntSize, sectorSize]
    omega
  exact even.symm

/-- The entry of a cluster. Where the table has no length nothing is read of it, and what the buffer
holds is taken. -/
def link (v : Volume) (n : UInt32) : UInt32 :=
  if v.start.fatlength = 0 then
    UInt32.ofNat (bufferedEntry v.start.fatbuf v.start.fatsize
      (n.toNat % (bufEntries v.start.fatsize).toNat))
  else
    UInt32.ofNat
      (rawEntry (tableOf v.medium v.partOffset v.start.toGeometry) v.start.fatsize n.toNat)

structure Steady (v : Volume) (mydata : Fsdata) : Prop where
  geometry : mydata.toGeometry = v.start.toGeometry
  untouched : v.start.fatlength = 0 → mydata.fatbuf = v.start.fatbuf
  sound : v.start.fatlength ≠ 0 → Sound v.medium v.partOffset mydata

lemma getFatent_unfilled {mydata : Fsdata} (steady : Steady v mydata)
    (length : v.start.fatlength = 0) (n : UInt32) :
    ∃ mydata', getFatent v.disk mydata n = (mydata', link v n) ∧ Steady v mydata' := by
  have geometry := steady.geometry
  have none : min fatbufblocks (mydata.fatlength.toUInt32 * 512) = 0 := by
    rw [geometry, length]
    decide
  have kept : ∃ mydata', cacheBlock v.disk mydata (bufnumOf mydata.fatsize n) = (true, mydata') ∧
      mydata'.toGeometry = mydata.toGeometry ∧ mydata'.fatbuf = mydata.fatbuf := by
    by_cases there : bufnumOf mydata.fatsize n = mydata.fatbufnum
    · exact ⟨mydata, by rw [cacheBlock, if_pos there], rfl, rfl⟩
    refine ⟨{ mydata with fatbuf := blit mydata.fatbuf 0 [],
                          fatbufnum := bufnumOf mydata.fatsize n }, ?_, rfl, blit_nil _ 0⟩
    rw [cacheBlock, if_neg there, none]
    rfl
  obtain ⟨mydata', cached, same, buffer⟩ := kept
  refine ⟨mydata', ?_, same.trans geometry, fun _ => buffer.trans (steady.untouched length),
    fun some => absurd length some⟩
  rw [getFatent, cached]
  dsimp only
  rw [(bufnum_split mydata.fatsize n).2, same, geometry, buffer, steady.untouched length, link,
    if_pos length]

lemma getFatent_link {mydata : Fsdata} (steady : Steady v mydata) (n : UInt32) :
    ∃ mydata', getFatent v.disk mydata n = (mydata', link v n) ∧ Steady v mydata' := by
  by_cases length : v.start.fatlength = 0
  · exact getFatent_unfilled steady length n
  have geometry := steady.geometry
  obtain ⟨mydata', found, same, sound⟩ := getFatent_delivering v.stack (steady.sound length)
    (show mydata.fatlength ≠ 0 from by rwa [geometry]) n
  refine ⟨mydata', ?_, same.trans geometry, fun zero => absurd zero length, fun _ => sound⟩
  rw [Volume.disk, found, geometry, link, if_neg length]

def Agree (v : Volume) (block block' : Mem) : Prop := ∀ k < v.size, block k = block' k

/-- The buffers as a search leaves them: that of the table agrees with the volume, and behind a
cluster `get_vfatname_block` holds what it held at the start. -/
structure Settled (v : Volume) (w : Walk) : Prop where
  steady : Steady v w.mydata
  names : ∀ k, v.size ≤ k → w.nameBlock k = v.nameBlock k

structure Alike (v : Volume) (w w' : Walk) : Prop where
  first : Settled v w
  second : Settled v w'
  block : Agree v w.block w'.block

def SameSlot (block : Mem) (i : Nat) (block' : Mem) (i' : Nat) : Prop :=
  ∀ j < direntSize, block (direntSize * i + j) = block' (direntSize * i' + j)

section
variable {block block' : Mem} {i i' : Nat} (same : SameSlot block i block' i')
include same

lemma SameSlot.id : slotId block i = slotId block' i' := same 0 (Nat.succ_pos 31)

lemma SameSlot.number : number block i = number block' i' := by
  rw [FatNames.number, FatNames.number, same.id]

lemma SameSlot.isLast : isLast block i = isLast block' i' := by
  rw [FatNames.isLast, FatNames.isLast, same.id]

lemma SameSlot.chars : slotChars block i = slotChars block' i' := by
  refine List.map_congr_left fun j member => same j ?_
  have low : ∀ j ∈ [1, 3, 5, 7, 9, 14, 16, 18, 20, 22, 24, 28, 30], j < direntSize := by decide
  exact low j member

lemma SameSlot.slice {j n : Nat} (low : j + n ≤ direntSize) :
    slice block (direntSize * i + j) n = slice block' (direntSize * i' + j) n := by
  apply List.ext_getElem
  · rw [slice_length, slice_length]
  · intro k inside inside'
    rw [slice_length] at inside
    rw [slice_get, slice_get, add_assoc, add_assoc]
    exact same (j + k) (by omega)

lemma SameSlot.attr : attrOf block i = attrOf block' i' := same 11 (by decide)

lemma SameSlot.name : getName block (direntSize * i) = getName block' (direntSize * i') := by
  have name := same.slice (j := 0) (n := 8) (by decide)
  have ext := same.slice (j := 8) (n := 3) (by decide)
  rw [add_zero, add_zero] at name
  rw [getName, getName, name, ext, same 8 (by decide)]

lemma SameSlot.dirent : direntOf block i = direntOf block' i' := by
  have name := same.slice (j := 0) (n := 11) (by decide)
  have word {j : Nat} (low : j + 1 < direntSize) :
      fat2cpu16 block (direntSize * i + j) = fat2cpu16 block' (direntSize * i' + j) :=
    fat2cpu16_congr (same j (Nat.lt_of_succ_lt low)) (same (j + 1) low)
  have high := word (j := 30) (by decide)
  rw [add_zero, add_zero] at name
  rw [direntOf, direntOf, name, same.attr, word (j := 20) (by decide), word (j := 26) (by decide),
    fat2cpu32, fat2cpu32, word (j := 28) (by decide), add_assoc, add_assoc, high]

end

variable {block block' : Mem} {i : Nat}

lemma agree_slot (agree : Agree v block block') (inside : i < v.slots) :
    SameSlot block i block' i := by
  intro j low
  refine agree _ ?_
  have whole : direntSize * (i + 1) ≤ v.size := by
    rw [size_eq]
    exact Nat.mul_le_mul_left direntSize inside
  rw [Nat.mul_succ] at whole
  omega

lemma blit_agree (agree : Agree v block block') (a : Nat) (bs : List UInt8) :
    Agree v (blit block a bs) (blit block' a bs) := by
  intro k low
  have same := agree k low
  rw [blit, blit, same]

variable {top : Nat} {w w' : Walk}

lemma followSlots_agree (agree : Agree v block block') (counter i : Nat) :
    followSlots block v.slots counter i = followSlots block' v.slots counter i := by
  induction counter generalizing i with
  | zero => rfl
  | succ counter ih =>
    rw [followSlots, followSlots]
    by_cases inside : i < v.slots
    · rw [if_pos inside, if_pos inside, (agree_slot agree inside).number, ih]
    · rw [if_neg inside, if_neg inside]

lemma followSlots_le {counter found : Nat} (inside : i ≤ v.slots)
    (followed : followSlots block v.slots counter i = some found) : found ≤ v.slots := by
  induction counter generalizing i with
  | zero =>
    cases followed
    exact inside
  | succ counter ih =>
    rw [followSlots] at followed
    split_ifs at followed with more
    · exact ih more followed
    · cases followed
      exact inside

lemma takeSlots_agree (agree : Agree v block block') (inside : top ≤ v.slots) (lName : List UInt8) :
    takeSlots block top lName = takeSlots block' top lName := by
  induction top generalizing lName with
  | zero => rfl
  | succ top ih =>
    rw [takeSlots, takeSlots, slot2str, slot2str, (agree_slot agree inside).chars,
      (agree_slot agree inside).isLast]
    cases putChars (slotChars block' top) lName with
    | none => rfl
    | some pair =>
      dsimp only
      rw [ih (Nat.le_of_succ_le inside)]

inductive NameAlike (v : Volume) : Option (List UInt8 × Walk) → Option (List UInt8 × Walk) → Prop
  | outside : NameAlike v none none
  | taken {w w' : Walk} (lName : List UInt8) (alike : Alike v w w') :
      NameAlike v (some (lName, w)) (some (lName, w'))

/-- What `getVfatname` gives, as `longName` hands it on. -/
def handOn (name : LongName) : List UInt8 × Walk :=
  (name.lName, ⟨name.mydata, name.cluster, name.block⟩)

lemma longName_eq (disk : Disk) (curclust : UInt32) (w : Walk) (i : Nat) :
    longName disk curclust w i =
      (getVfatname disk w.mydata curclust w.block i w.nameBlock).map handOn := by
  rw [longName]
  cases getVfatname disk w.mydata curclust w.block i w.nameBlock <;> rfl

lemma finishName_alike (alike : Alike v w w') (lName : List UInt8) (inside : top ≤ v.slots)
    (realdent : List UInt8) :
    NameAlike v ((finishName lName w.block i top realdent w.nameBlock w.mydata).map handOn)
      ((finishName lName w'.block i top realdent w'.nameBlock w'.mydata).map handOn) := by
  rw [finishName, finishName, takeSlots_agree alike.block inside]
  cases takeSlots w'.block top lName with
  | none => exact .outside
  | some name =>
    dsimp only
    split_ifs
    · exact .taken _ ⟨⟨alike.first.steady, alike.first.names⟩,
        ⟨alike.second.steady, alike.second.names⟩, blit_agree alike.block _ _⟩
    · exact .outside

lemma nameAcross_alike (alike : Alike v w w') (same : w.nameBlock = w'.nameBlock)
    (inside : top ≤ v.slots) :
    NameAlike v ((nameAcross w.mydata w.block i top w.nameBlock).map handOn)
      ((nameAcross w'.mydata w'.block i top w'.nameBlock).map handOn) := by
  rw [nameAcross, nameAcross, same]
  cases findFirst w'.nameBlock maxSlots 0 with
  | none => exact .outside
  | some slot =>
    dsimp only
    split_ifs
    · cases takeBlock w'.nameBlock (slot + 1) [] with
      | none => exact .outside
      | some lName =>
        have finished := finishName_alike alike lName inside (i := i)
          (slice w'.nameBlock (direntSize * (slot + 1)) direntSize)
        rwa [same] at finished
    · exact .outside

lemma blit_covered {m m' : Mem} {bs : List UInt8} (behind : ∀ k, bs.length ≤ k → m k = m' k) :
    blit m 0 bs = blit m' 0 bs := by
  funext k
  by_cases inside : k < bs.length
  · have first := blit_inside m (a := 0) bs inside
    have second := blit_inside m' (a := 0) bs inside
    rw [zero_add] at first second
    rw [first, second]
  · rw [blit_after _ _ (by omega), blit_after _ _ (by omega)]
    exact behind k (Nat.not_lt.mp inside)

lemma names_read {bs : List UInt8} (length : bs.length = v.size) (settled : Settled v w) (k : Nat)
    (behind : v.size ≤ k) :
    blit w.nameBlock 0 bs k = v.nameBlock k := by
  rw [blit_after _ _ (by omega)]
  exact settled.names k behind

/-- The part of `get_vfatname` that reads the next cluster. -/
def acrossName (disk : Disk) (mydata : Fsdata) (curclust : UInt32) (cluster : Mem)
    (retdent slotptr : Nat) (block : Mem) : Option LongName :=
  let (mydata, curclust) := getFatent disk mydata curclust
  if checkClust curclust mydata.fatsize then some ⟨false, [], cluster, block, mydata⟩
  else if mydata.clustSize.toNat * sectorSize ≤ maxClustsize then
    match getCluster disk mydata.toGeometry curclust block 0
      (bytesperclust mydata.toGeometry) with
    | (false, block) => some ⟨false, [], cluster, block, mydata⟩
    | (true, block) => nameAcross mydata cluster retdent (slotptr - 1) block
  else none

lemma getVfatname_eq (disk : Disk) (mydata : Fsdata) (curclust : UInt32) (cluster : Mem)
    (retdent : Nat) (block : Mem) :
    getVfatname disk mydata curclust cluster retdent block =
      (followSlots cluster (direntsPerClust mydata.toGeometry) (number cluster retdent).toNat
        retdent).elim (some ⟨false, [], cluster, block, mydata⟩) fun slotptr =>
          if direntsPerClust mydata.toGeometry ≤ slotptr then
            acrossName disk mydata curclust cluster retdent slotptr block
          else
            finishName [] cluster retdent slotptr
              (slice cluster (direntSize * slotptr) direntSize) block mydata := by
  rw [getVfatname]
  cases followSlots cluster (direntsPerClust mydata.toGeometry) (number cluster retdent).toNat
    retdent <;> rfl

lemma acrossName_alike (alike : Alike v w w') (c : UInt32) (inside : top ≤ v.slots) :
    NameAlike v ((acrossName v.disk w.mydata c w.block i top w.nameBlock).map handOn)
      ((acrossName v.disk w'.mydata c w'.block i top w'.nameBlock).map handOn) := by
  obtain ⟨mydata, found, steady⟩ := getFatent_link alike.first.steady c
  obtain ⟨mydata', found', steady'⟩ := getFatent_link alike.second.steady c
  have geometry := steady.geometry
  have geometry' := steady'.geometry
  have width : mydata.fatsize = v.start.fatsize := congrArg Geometry.fatsize geometry
  have width' : mydata'.fatsize = v.start.fatsize := congrArg Geometry.fatsize geometry'
  rw [acrossName, acrossName, found, found']
  dsimp only
  rw [width, width', geometry, geometry']
  by_cases stop : checkClust (link v c) v.start.fatsize = true
  · rw [if_pos stop, if_pos stop]
    exact .taken [] ⟨⟨steady, alike.first.names⟩, ⟨steady', alike.second.names⟩, alike.block⟩
  rw [if_neg stop, if_neg stop]
  by_cases fits : v.start.clustSize.toNat * sectorSize ≤ maxClustsize
  · rw [if_pos fits, if_pos fits, Volume.disk, getCluster_delivering, getCluster_delivering]
    have length : (slice (clusterView v.medium v.partOffset v.start.toGeometry (link v c)) 0
        (bytesperclust v.start.toGeometry).toNat).length = v.size := by
      rw [slice_length, bytesperclust_toNat]
      rfl
    have same := blit_covered fun k behind =>
      (alike.first.names k (length ▸ behind)).trans (alike.second.names k (length ▸ behind)).symm
    have read : Alike v ⟨mydata, w.block, blit w.nameBlock 0 _⟩
        ⟨mydata', w'.block, blit w'.nameBlock 0 _⟩ :=
      ⟨⟨steady, names_read length alike.first⟩, ⟨steady', names_read length alike.second⟩,
        alike.block⟩
    exact nameAcross_alike read same (Nat.le_trans (Nat.sub_le top 1) inside)
  · rw [if_neg fits, if_neg fits]
    exact .outside

lemma longName_alike (alike : Alike v w w') (c : UInt32) (inside : i < v.slots) :
    NameAlike v (longName v.disk c w i) (longName v.disk c w' i) := by
  have geometry := alike.first.steady.geometry
  have geometry' := alike.second.steady.geometry
  rw [longName_eq, longName_eq, getVfatname_eq, getVfatname_eq, geometry, geometry', ← Volume.slots,
    (agree_slot alike.block inside).number, followSlots_agree alike.block]
  cases followed : followSlots w'.block v.slots (number w'.block i).toNat i with
  | none => exact .taken [] alike
  | some top =>
    have most := followSlots_le (Nat.le_of_lt inside) followed
    dsimp only [Option.elim]
    by_cases long : v.slots ≤ top
    · rw [if_pos long, if_pos long]
      exact acrossName_alike alike c most
    rw [if_neg long, if_neg long]
    have here : top < v.slots := Nat.not_le.mp long
    have real := (agree_slot alike.block here).slice (j := 0) (n := direntSize) (Nat.le_refl _)
    rw [add_zero] at real
    rw [real]
    exact finishName_alike alike [] most _

lemma getName_deleted {m : Mem} {a : Nat} (deleted : m a = deletedFlag) : getName m a = [] := by
  have first : untilBlank (slice m a 8) = deletedFlag :: untilBlank (slice m (a + 1) 7) := by
    rw [slice, deleted]
    rfl
  rw [getName, first]
  split_ifs
  · rfl
  · rfl

inductive SeenAlike (v : Volume) : Seen → Seen → Prop
  | passed {w w' : Walk} (alike : Alike v w w') : SeenAlike v (.passed w) (.passed w')
  | matched {w w' : Walk} (dent : DirEntry) (alike : Alike v w w') :
      SeenAlike v (.matched dent w) (.matched dent w')
  | ended {w w' : Walk} (alike : Alike v w w') : SeenAlike v (.ended w) (.ended w')
  | unread {w w' : Walk} (alike : Alike v w w') : SeenAlike v (.unread w) (.unread w')
  | outside : SeenAlike v .outside .outside

section
variable {w w' : Walk} {i : Nat}

lemma compareEntry_alike (filename lName : List UInt8) (alike : Alike v w w')
    (inside : i < v.slots) :
    SeenAlike v (compareEntry filename lName w i) (compareEntry filename lName w' i) := by
  rw [compareEntry, compareEntry, (agree_slot alike.block inside).name,
    (agree_slot alike.block inside).dirent]
  split_ifs
  · exact .passed alike
  · exact .matched _ alike

lemma ordinaryEntry_alike (dols : Bool) (filename lName : List UInt8) (alike : Alike v w w')
    (inside : i < v.slots) :
    SeenAlike v (ordinaryEntry dols filename lName w i)
      (ordinaryEntry dols filename lName w' i) := by
  rw [ordinaryEntry, ordinaryEntry, (agree_slot alike.block inside).id]
  split_ifs
  · exact .ended alike
  · exact .passed alike
  · exact compareEntry_alike filename lName alike inside

lemma startsName_agree (agree : Agree v block block') (inside : i < v.slots) :
    startsName block i ↔ startsName block' i := by
  rw [startsName, startsName, (agree_slot agree inside).attr, (agree_slot agree inside).isLast]

lemma dirEntry_alike (dols : Bool) (filename : List UInt8) (c : UInt32) (alike : Alike v w w')
    (inside : i < v.slots) :
    SeenAlike v (dirEntry v.disk dols filename c w i) (dirEntry v.disk dols filename c w' i) := by
  have starts := startsName_agree alike.block inside
  rw [dirEntry, dirEntry, (agree_slot alike.block inside).id, (agree_slot alike.block inside).attr]
  by_cases deleted : slotId w'.block i = deletedFlag
  · rw [if_pos deleted, if_pos deleted]
    exact .passed alike
  rw [if_neg deleted, if_neg deleted]
  by_cases label : attrOf w'.block i &&& attrVolume ≠ 0
  · rw [if_pos label, if_pos label]
    by_cases slot : startsName w'.block i
    · rw [if_pos slot, if_pos (starts.mpr slot)]
      have named := longName_alike alike c inside
      generalize longName v.disk c w i = name at named
      generalize longName v.disk c w' i = name' at named
      cases named with
      | outside => exact .outside
      | taken lName taken =>
        split_ifs
        · exact .passed taken
        · exact ordinaryEntry_alike dols filename lName taken inside
    · rw [if_neg slot, if_neg fun slot' => slot (starts.mp slot')]
      exact .passed alike
  · rw [if_neg label, if_neg label]
    exact ordinaryEntry_alike dols filename [] alike inside

lemma rootEntry_alike (listing : Bool) (fnamecopy : List UInt8) (alike : Alike v w w')
    (inside : i < v.slots) :
    SeenAlike v (rootEntry v.disk listing fnamecopy w i)
      (rootEntry v.disk listing fnamecopy w' i) := by
  have starts := startsName_agree alike.block inside
  rw [rootEntry, rootEntry, (agree_slot alike.block inside).id, (agree_slot alike.block inside).attr]
  by_cases label : attrOf w'.block i &&& attrVolume ≠ 0
  · rw [if_pos label, if_pos label]
    by_cases slot : startsName w'.block i
    · rw [if_pos slot, if_pos (starts.mpr slot)]
      have named := longName_alike alike 0 inside
      generalize longName v.disk 0 w i = name at named
      generalize longName v.disk 0 w' i = name' at named
      cases named with
      | outside => exact .outside
      | taken lName taken =>
        split_ifs
        · exact .passed taken
        · exact compareEntry_alike fnamecopy lName taken inside
    · rw [if_neg slot, if_neg fun slot' => slot (starts.mp slot')]
      exact .passed alike
  · rw [if_neg label, if_neg label]
    split_ifs
    · exact .ended alike
    · exact .passed alike
    · exact compareEntry_alike fnamecopy [] alike inside

end

lemma scan_alike {entry : Walk → Nat → Seen}
    (each : ∀ w w' i, Alike v w w' → i < v.slots → SeenAlike v (entry w i) (entry w' i))
    {left : Nat} (alike : Alike v w w') (inside : i + left ≤ v.slots) :
    SeenAlike v (scan entry left i w) (scan entry left i w') := by
  induction left generalizing i w w' with
  | zero => exact .passed alike
  | succ left ih =>
    rw [scan, scan]
    have here := each w w' i alike (by omega)
    generalize entry w i = seen at here
    generalize entry w' i = seen' at here
    cases here with
    | passed next => exact ih next (by omega)
    | matched dent next => exact .matched dent next
    | ended next => exact .ended next
    | unread next => exact .unread next
    | outside => exact .outside

/-- What a search ends with: an entry, or none. There is nothing while it goes on, nor where it
leaves a buffer. -/
def found : Seen → Option (Option DirEntry)
  | .passed _ => none
  | .matched dent _ => some (some dent)
  | .ended _ => some none
  | .unread _ => some none
  | .outside => none

def goesOn : Seen → Bool
  | .passed _ => true
  | .matched _ _ => false
  | .ended _ => false
  | .unread _ => false
  | .outside => false

def SettledSeen (v : Volume) : Seen → Prop
  | .passed w => Settled v w
  | .matched _ w => Settled v w
  | .ended w => Settled v w
  | .unread w => Settled v w
  | .outside => True

lemma SeenAlike.found_eq {seen seen' : Seen} (alike : SeenAlike v seen seen') :
    found seen = found seen' := by
  cases alike <;> rfl

lemma SeenAlike.goesOn_eq {seen seen' : Seen} (alike : SeenAlike v seen seen') :
    goesOn seen = goesOn seen' := by
  cases alike <;> rfl

lemma SeenAlike.settled {seen seen' : Seen} (alike : SeenAlike v seen seen') :
    SettledSeen v seen := by
  cases alike with
  | passed alike => exact alike.first
  | matched _ alike => exact alike.first
  | ended alike => exact alike.first
  | unread alike => exact alike.first
  | outside => trivial

end FatAlike
