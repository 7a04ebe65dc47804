import UBoot.Fs.FatAlike

/-!
# What a search finds (fs/fat/fat.c)

The loops over a directory and over the root directory, on a disk whose sectors can all be read:
what they return is what the clusters and sectors on their way have, each taken by itself.
-/

namespace FatSearch

open ByteMemory Fat FatTable FatNames FatContents FatRead FatAlike

variable {v : Volume}

variable {seen : Seen} {result : Option DirEntry}

def opened (v : Volume) (block : Mem) : Walk := ⟨v.start, block, v.nameBlock⟩

def clusterSeen (v : Volume) (dols : Bool) (filename : List UInt8) (c : UInt32) : Seen :=
  scan (dirEntry v.disk dols filename c) v.slots 0
    (opened v (clusterView v.medium v.partOffset v.start.toGeometry c))

/-- The search of a directory from a cluster on ends, with an entry or with none: the links lead
through clusters in which it goes on to one in which it ends, or to an entry of the table that leads
nowhere. -/
inductive DirFinds (v : Volume) (dols : Bool) (filename : List UInt8) :
    UInt32 → Option DirEntry → Prop
  | here {c : UInt32} {result : Option DirEntry}
      (ends : found (clusterSeen v dols filename c) = some result) :
      DirFinds v dols filename c result
  | last {c : UInt32} (on : goesOn (clusterSeen v dols filename c) = true)
      (stop : checkClust (link v c) v.start.fatsize = true) : DirFinds v dols filename c none
  | next {c : UInt32} {result : Option DirEntry}
      (on : goesOn (clusterSeen v dols filename c) = true)
      (leads : checkClust (link v c) v.start.fatsize = false)
      (rest : DirFinds v dols filename (link v c) result) : DirFinds v dols filename c result

section
variable {dols : Bool} {filename : List UInt8} {c : UInt32} {w : Walk}

lemma steady_start (steady : Steady v v.start) (block : Mem) : Settled v (opened v block) :=
  ⟨steady, fun _ _ => rfl⟩

lemma agree_read (m : Mem) (source : Mem) : Agree v (blit m 0 (slice source 0 v.size)) source := by
  intro k low
  rw [blit_slice _ _ (Nat.zero_le k) (by omega)]
  congr 1
  omega

def inCluster (v : Volume) (c : UInt32) (w : Walk) : Walk :=
  ⟨w.mydata, blit w.block 0
    (slice (clusterView v.medium v.partOffset v.start.toGeometry c) 0 v.size), w.nameBlock⟩

lemma inCluster_seen (start : Steady v v.start) (settled : Settled v w) :
    SeenAlike v (scan (dirEntry v.disk dols filename c) v.slots 0 (inCluster v c w))
      (clusterSeen v dols filename c) := by
  have alike : Alike v (inCluster v c w)
      (opened v (clusterView v.medium v.partOffset v.start.toGeometry c)) :=
    ⟨⟨settled.steady, settled.names⟩, steady_start start _, agree_read _ _⟩
  refine scan_alike (fun w w' i alike inside => ?_) alike (by omega)
  exact dirEntry_alike dols filename c alike inside

/-- `get_dentfromdir` behind the scan of a cluster. -/
def dirRest (v : Volume) (dols : Bool) (filename : List UInt8) (fuel : Nat) (c : UInt32) :
    Seen → Option Seen
  | .passed w =>
    let (mydata, next) := getFatent v.disk w.mydata c
    let w := { w with mydata := mydata }
    if checkClust next mydata.fatsize then some (.ended w)
    else getDentfromdir v.disk dols filename fuel next w
  | .matched dent w => some (.matched dent w)
  | .ended w => some (.ended w)
  | .unread w => some (.unread w)
  | .outside => some .outside

lemma getDentfromdir_succ (fits : v.start.clustSize.toNat * sectorSize ≤ maxClustsize)
    (settled : Settled v w) (fuel : Nat) :
    getDentfromdir v.disk dols filename (fuel + 1) c w =
      dirRest v dols filename fuel c
        (scan (dirEntry v.disk dols filename c) v.slots 0 (inCluster v c w)) := by
  have geometry := settled.steady.geometry
  rw [getDentfromdir]
  rw [geometry, if_neg (Nat.not_lt.mpr fits), Volume.disk, getCluster_delivering,
    bytesperclust_toNat, ← Volume.disk, ← Volume.slots, ← Volume.size, inCluster]
  dsimp only
  generalize scan (dirEntry v.disk dols filename c) v.slots 0 _ = seen
  cases seen <;> rfl

lemma dirRest_passed (settled : Settled v w) (fuel : Nat) :
    ∃ w', Settled v w' ∧ dirRest v dols filename fuel c (.passed w) =
      if checkClust (link v c) v.start.fatsize then some (.ended w')
      else getDentfromdir v.disk dols filename fuel (link v c) w' := by
  obtain ⟨mydata, lookup, steady⟩ := getFatent_link settled.steady c
  have width : mydata.fatsize = v.start.fatsize := congrArg Geometry.fatsize steady.geometry
  refine ⟨⟨mydata, w.block, w.nameBlock⟩, ⟨steady, settled.names⟩, ?_⟩
  rw [dirRest, lookup]
  dsimp only
  rw [width]

lemma dirRest_ends (ends : goesOn seen = false) (fuel : Nat) :
    dirRest v dols filename fuel c seen = some seen := by
  cases seen with
  | passed w => cases ends
  | matched dent w => rfl
  | ended w => rfl
  | unread w => rfl
  | outside => rfl

lemma finds_of_returns (fits : v.start.clustSize.toNat * sectorSize ≤ maxClustsize)
    (start : Steady v v.start) {fuel : Nat} (settled : Settled v w)
    (returns : getDentfromdir v.disk dols filename fuel c w = some seen) :
    SettledSeen v seen ∧
      ∀ result, found seen = some result → DirFinds v dols filename c result := by
  induction fuel generalizing c w with
  | zero => cases returns
  | succ fuel ih =>
    rw [getDentfromdir_succ fits settled] at returns
    have alike : SeenAlike v _ (clusterSeen v dols filename c) := inCluster_seen start settled
    generalize scan (dirEntry v.disk dols filename c) v.slots 0 (inCluster v c w) = scanned
      at returns alike
    by_cases on : goesOn scanned = true
    · cases scanned with
      | passed w' =>
        obtain ⟨next, settled', rest⟩ := dirRest_passed (show Settled v w' from alike.settled) fuel
        rw [rest] at returns
        have goes := alike.goesOn_eq.symm.trans on
        split_ifs at returns with stop
        · cases returns
          refine ⟨settled', fun result ended => ?_⟩
          cases ended
          exact .last goes stop
        · obtain ⟨settledSeen, finds⟩ := ih settled' returns
          exact ⟨settledSeen, fun result ended =>
            .next goes (Bool.eq_false_iff.mpr stop) (finds result ended)⟩
      | matched dent w' => cases on
      | ended w' => cases on
      | unread w' => cases on
      | outside => cases on
    · rw [dirRest_ends (Bool.eq_false_iff.mpr on)] at returns
      cases returns
      exact ⟨alike.settled, fun result ended => .here (alike.found_eq.symm.trans ended)⟩

lemma not_goesOn (ends : found seen = some result) :
    goesOn seen = false := by
  cases seen with
  | passed w => cases ends
  | matched dent w => rfl
  | ended w => rfl
  | unread w => rfl
  | outside => rfl

lemma turn_on (fits : v.start.clustSize.toNat * sectorSize ≤ maxClustsize)
    (start : Steady v v.start) (settled : Settled v w)
    (on : goesOn (clusterSeen v dols filename c) = true) (fuel : Nat) :
    ∃ w', Settled v w' ∧ getDentfromdir v.disk dols filename (fuel + 1) c w =
      if checkClust (link v c) v.start.fatsize then some (.ended w')
      else getDentfromdir v.disk dols filename fuel (link v c) w' := by
  rw [getDentfromdir_succ fits settled]
  have alike : SeenAlike v _ (clusterSeen v dols filename c) := inCluster_seen start settled
  generalize scan (dirEntry v.disk dols filename c) v.slots 0 (inCluster v c w) = scanned at alike ⊢
  have goes := alike.goesOn_eq.trans on
  cases scanned with
  | passed w' => exact dirRest_passed alike.settled fuel
  | matched dent w' => cases goes
  | ended w' => cases goes
  | unread w' => cases goes
  | outside => cases goes

lemma returns_of_finds (fits : v.start.clustSize.toNat * sectorSize ≤ maxClustsize)
    (start : Steady v v.start) (finds : DirFinds v dols filename c result) :
    ∃ enough, ∀ fuel, enough ≤ fuel → ∀ w, Settled v w →
      ∃ seen, getDentfromdir v.disk dols filename fuel c w = some seen ∧ found seen = some result ∧
        SettledSeen v seen := by
  induction finds with
  | @here c result ends =>
    refine ⟨1, fun fuel more w settled => ?_⟩
    obtain ⟨fuel, rfl⟩ := Nat.exists_eq_add_of_le' more
    have alike : SeenAlike v _ (clusterSeen v dols filename c) := inCluster_seen start settled
    have ends' := alike.found_eq.trans ends
    refine ⟨_, ?_, ends', alike.settled⟩
    rw [getDentfromdir_succ fits settled, dirRest_ends (not_goesOn ends')]
  | @last c on stop =>
    refine ⟨1, fun fuel more w settled => ?_⟩
    obtain ⟨fuel, rfl⟩ := Nat.exists_eq_add_of_le' more
    obtain ⟨w', settled', rest⟩ := turn_on fits start settled on fuel
    exact ⟨.ended w', by rw [rest, if_pos stop], rfl, settled'⟩
  | @next c result on leads rest ih =>
    obtain ⟨enough, ih⟩ := ih
    refine ⟨enough + 1, fun fuel more w settled => ?_⟩
    obtain ⟨fuel, rfl⟩ := Nat.exists_eq_add_of_le' (Nat.le_trans (Nat.le_add_left 1 enough) more)
    obtain ⟨w', settled', rest⟩ := turn_on fits start settled on fuel
    obtain ⟨seen, returns, ended, settledSeen⟩ := ih fuel (Nat.le_of_succ_le_succ more) w' settled'
    refine ⟨seen, ?_, ended, settledSeen⟩
    rw [rest, if_neg (Bool.eq_false_iff.mp leads), returns]

end

def rootSeen (v : Volume) (listing : Bool) (name : List UInt8) (s : UInt32) : Seen :=
  scan (rootEntry v.disk listing name) direntsPerBlock 0
    (opened v (view v.medium (s + v.partOffset)))

/-- The search of the root directory from a sector on ends in this or in a later one. -/
inductive RootFinds (v : Volume) (listing : Bool) (name : List UInt8) :
    UInt32 → Option DirEntry → Prop
  | here {s : UInt32} {result : Option DirEntry}
      (ends : found (rootSeen v listing name s) = some result) : RootFinds v listing name s result
  | next {s : UInt32} {result : Option DirEntry} (on : goesOn (rootSeen v listing name s) = true)
      (rest : RootFinds v listing name (s + 1) result) : RootFinds v listing name s result

/-- Where clusters have no sectors, the search goes over the same block again and again. -/
inductive StaleFinds (v : Volume) (listing : Bool) (name : List UInt8) :
    Walk → Option DirEntry → Prop
  | here {w : Walk} {result : Option DirEntry}
      (ends : found (scan (rootEntry v.disk listing name) direntsPerBlock 0 w) = some result) :
      StaleFinds v listing name w result
  | next {w w' : Walk} {result : Option DirEntry}
      (on : scan (rootEntry v.disk listing name) direntsPerBlock 0 w = .passed w')
      (rest : StaleFinds v listing name w' result) : StaleFinds v listing name w result

section
variable {listing : Bool} {name : List UInt8} {s : UInt32} {w : Walk}

def inRoot (v : Volume) (s : UInt32) (w : Walk) : Walk :=
  ⟨w.mydata, blit w.block 0 (slice (view v.medium (s + v.partOffset)) 0 v.size), w.nameBlock⟩

/-- The loop of `do_fat_read` behind the scan of a block. -/
def rootRest (v : Volume) (listing : Bool) (name : List UInt8) (fuel : Nat) (s : UInt32) :
    Seen → Option Seen
  | .passed w => rootSearch v.disk listing name fuel (s + 1) w
  | .matched dent w => some (.matched dent w)
  | .ended w => some (.ended w)
  | .unread w => some (.unread w)
  | .outside => some .outside

lemma rootSearch_succ (fits : v.start.clustSize.toNat * sectorSize ≤ maxClustsize)
    (settled : Settled v w) (fuel : Nat) :
    rootSearch v.disk listing name (fuel + 1) s w =
      rootRest v listing name fuel s
        (scan (rootEntry v.disk listing name) direntsPerBlock 0 (inRoot v s w)) := by
  have geometry := settled.steady.geometry
  have bytes : 512 * v.start.clustSize.toUInt32.toNat = v.size := by
    rw [UInt16.toNat_toUInt32, Nat.mul_comm]
    rfl
  rw [rootSearch]
  dsimp only
  rw [geometry, if_neg (Nat.not_lt.mpr fits), Volume.disk, diskRead_delivering, bytes,
    ← Volume.disk, inRoot]
  rw [if_neg (Int.not_lt.mpr (Int.natCast_nonneg _))]
  generalize scan (rootEntry v.disk listing name) direntsPerBlock 0 _ = seen
  cases seen <;> rfl

lemma rootRest_ends (ends : goesOn seen = false) (fuel : Nat) :
    rootRest v listing name fuel s seen = some seen := by
  cases seen with
  | passed w => cases ends
  | matched dent w => rfl
  | ended w => rfl
  | unread w => rfl
  | outside => rfl

lemma inRoot_seen (block : direntsPerBlock ≤ v.slots) (start : Steady v v.start)
    (settled : Settled v w) :
    SeenAlike v (scan (rootEntry v.disk listing name) direntsPerBlock 0 (inRoot v s w))
      (rootSeen v listing name s) := by
  have alike : Alike v (inRoot v s w) (opened v (view v.medium (s + v.partOffset))) :=
    ⟨⟨settled.steady, settled.names⟩, steady_start start _, agree_read _ _⟩
  refine scan_alike (fun w w' i alike inside => ?_) alike (by omega)
  exact rootEntry_alike listing name alike inside

lemma finds_of_rootSearch (block : direntsPerBlock ≤ v.slots)
    (fits : v.start.clustSize.toNat * sectorSize ≤ maxClustsize) (start : Steady v v.start)
    {fuel : Nat} (settled : Settled v w)
    (returns : rootSearch v.disk listing name fuel s w = some seen) :
    SettledSeen v seen ∧
      ∀ result, found seen = some result → RootFinds v listing name s result := by
  induction fuel generalizing s w with
  | zero => cases returns
  | succ fuel ih =>
    rw [rootSearch_succ fits settled] at returns
    have alike : SeenAlike v _ (rootSeen v listing name s) := inRoot_seen block start settled
    generalize scan (rootEntry v.disk listing name) direntsPerBlock 0 (inRoot v s w) = scanned
      at returns alike
    by_cases on : goesOn scanned = true
    · cases scanned with
      | passed w' =>
        obtain ⟨settledSeen, finds⟩ := ih (show Settled v w' from alike.settled) returns
        exact ⟨settledSeen, fun result ended =>
          .next (alike.goesOn_eq.symm.trans on) (finds result ended)⟩
      | matched dent w' => cases on
      | ended w' => cases on
      | unread w' => cases on
      | outside => cases on
    · rw [rootRest_ends (Bool.eq_false_iff.mpr on)] at returns
      cases returns
      exact ⟨alike.settled, fun result ended => .here (alike.found_eq.symm.trans ended)⟩

lemma rootSearch_of_finds (block : direntsPerBlock ≤ v.slots)
    (fits : v.start.clustSize.toNat * sectorSize ≤ maxClustsize) (start : Steady v v.start)
    (finds : RootFinds v listing name s result) :
    ∃ enough, ∀ fuel, enough ≤ fuel → ∀ w, Settled v w →
      ∃ seen, rootSearch v.disk listing name fuel s w = some seen ∧ found seen = some result ∧
        SettledSeen v seen := by
  induction finds with
  | @here s result ends =>
    refine ⟨1, fun fuel more w settled => ?_⟩
    obtain ⟨fuel, rfl⟩ := Nat.exists_eq_add_of_le' more
    have alike : SeenAlike v _ (rootSeen v listing name s) := inRoot_seen block start settled
    have ends' := alike.found_eq.trans ends
    refine ⟨_, ?_, ends', alike.settled⟩
    rw [rootSearch_succ fits settled, rootRest_ends (not_goesOn ends')]
  | @next s result on rest ih =>
    obtain ⟨enough, ih⟩ := ih
    refine ⟨enough + 1, fun fuel more w settled => ?_⟩
    obtain ⟨fuel, rfl⟩ := Nat.exists_eq_add_of_le' (Nat.le_trans (Nat.le_add_left 1 enough) more)
    have alike : SeenAlike v _ (rootSeen v listing name s) := inRoot_seen block start settled
    rw [rootSearch_succ fits settled]
    generalize scan (rootEntry v.disk listing name) direntsPerBlock 0 (inRoot v s w) = scanned
      at alike ⊢
    have goes := alike.goesOn_eq.trans on
    cases scanned with
    | passed w' => exact ih fuel (Nat.le_of_succ_le_succ more) w' alike.settled
    | matched dent w' => cases goes
    | ended w' => cases goes
    | unread w' => cases goes
    | outside => cases goes

end

variable {w : Walk} {name : LongName}

lemma finishName_settled (settled : Settled v w) {lName : List UInt8} {cluster : Mem} {i top : Nat}
    {realdent : List UInt8}
    (finished : finishName lName cluster i top realdent w.nameBlock w.mydata = some name) :
    Settled v (handOn name).2 := by
  rw [finishName] at finished
  cases taken : takeSlots cluster top lName with
  | none =>
    rw [taken] at finished
    cases finished
  | some lName' =>
    rw [taken] at finished
    dsimp only at finished
    split_ifs at finished
    cases finished
    exact ⟨settled.steady, settled.names⟩

lemma nameAcross_settled (settled : Settled v w) {cluster : Mem} {i top : Nat}
    (across : nameAcross w.mydata cluster i top w.nameBlock = some name) :
    Settled v (handOn name).2 := by
  rw [nameAcross] at across
  cases first : findFirst w.nameBlock maxSlots 0 with
  | none =>
    rw [first] at across
    cases across
  | some slot =>
    rw [first] at across
    dsimp only at across
    split_ifs at across
    cases taken : takeBlock w.nameBlock (slot + 1) [] with
    | none =>
      rw [taken] at across
      cases across
    | some lName =>
      rw [taken] at across
      exact finishName_settled settled across

lemma acrossName_settled (settled : Settled v w) {c : UInt32} {i top : Nat}
    (across : acrossName v.disk w.mydata c w.block i top w.nameBlock = some name) :
    Settled v (handOn name).2 := by
  obtain ⟨mydata, lookup, steady⟩ := getFatent_link settled.steady c
  have geometry := steady.geometry
  rw [acrossName, lookup] at across
  dsimp only at across
  split_ifs at across with stop fits
  · cases across
    exact ⟨steady, settled.names⟩
  rw [geometry, Volume.disk, getCluster_delivering] at across
  have length : (slice (clusterView v.medium v.partOffset v.start.toGeometry (link v c)) 0
      (bytesperclust v.start.toGeometry).toNat).length = v.size := by
    rw [slice_length, bytesperclust_toNat]
    rfl
  have read : Settled v ⟨mydata, w.block, blit w.nameBlock 0 _⟩ :=
    ⟨steady, names_read length settled⟩
  exact nameAcross_settled read across

lemma longName_settled {w' : Walk} (settled : Settled v w) {c : UInt32} {i : Nat}
    {lName : List UInt8} (named : longName v.disk c w i = some (lName, w')) : Settled v w' := by
  rw [longName_eq, getVfatname_eq, Option.map_eq_some_iff] at named
  obtain ⟨name, taken, handed⟩ := named
  have settled' : Settled v (handOn name).2 := by
    cases followed : followSlots w.block (direntsPerClust w.mydata.toGeometry)
        (number w.block i).toNat i with
    | none =>
      rw [followed] at taken
      cases taken
      exact ⟨settled.steady, settled.names⟩
    | some top =>
      rw [followed] at taken
      dsimp only [Option.elim] at taken
      split_ifs at taken
      · exact acrossName_settled settled taken
      · exact finishName_settled settled taken
  rw [handed] at settled'
  exact settled'

lemma compareEntry_settled (settled : Settled v w) (name lName : List UInt8) (i : Nat) :
    SettledSeen v (compareEntry name lName w i) := by
  rw [compareEntry]
  split_ifs
  · exact settled
  · exact settled

lemma rootEntry_settled (settled : Settled v w) (listing : Bool) (name : List UInt8) (i : Nat) :
    SettledSeen v (rootEntry v.disk listing name w i) := by
  rw [rootEntry]
  by_cases label : attrOf w.block i &&& attrVolume ≠ 0
  · rw [if_pos label]
    by_cases slot : startsName w.block i
    · rw [if_pos slot]
      cases named : longName v.disk 0 w i with
      | none => trivial
      | some pair =>
        have settled' := longName_settled settled named
        split_ifs
        · exact settled'
        · exact compareEntry_settled settled' name pair.1 i
    · rw [if_neg slot]
      exact settled
  · rw [if_neg label]
    split_ifs
    · exact settled
    · exact settled
    · exact compareEntry_settled settled name [] i

lemma scan_settled (settled : Settled v w) (listing : Bool) (name : List UInt8) (left i : Nat) :
    SettledSeen v (scan (rootEntry v.disk listing name) left i w) := by
  induction left generalizing i w with
  | zero => exact settled
  | succ left ih =>
    have here := rootEntry_settled settled listing name i
    rw [scan]
    generalize rootEntry v.disk listing name w i = seen at here
    cases seen with
    | passed w' => exact ih here (i + 1)
    | matched dent w' => exact here
    | ended w' => exact here
    | unread w' => exact here
    | outside => trivial

section
variable {listing : Bool} {name : List UInt8} {s : UInt32} {w : Walk}

lemma inRoot_empty (empty : v.size = 0) (s : UInt32) (w : Walk) : inRoot v s w = w := by
  rw [inRoot, empty]
  exact congrArg (fun block => Walk.mk w.mydata block w.nameBlock) (blit_nil w.block 0)

lemma finds_of_stale (empty : v.size = 0)
    (fits : v.start.clustSize.toNat * sectorSize ≤ maxClustsize) {fuel : Nat}
    (settled : Settled v w) (returns : rootSearch v.disk listing name fuel s w = some seen) :
    SettledSeen v seen ∧
      ∀ result, found seen = some result → StaleFinds v listing name w result := by
  induction fuel generalizing s w with
  | zero => cases returns
  | succ fuel ih =>
    rw [rootSearch_succ fits settled, inRoot_empty empty] at returns
    have after := scan_settled settled listing name direntsPerBlock 0
    cases scanned : scan (rootEntry v.disk listing name) direntsPerBlock 0 w with
    | passed w' =>
      rw [scanned] at returns after
      obtain ⟨settledSeen, finds⟩ := ih after returns
      exact ⟨settledSeen, fun result ended => .next scanned (finds result ended)⟩
    | matched dent w' =>
      rw [scanned] at returns after
      cases returns
      exact ⟨after, fun result ended => .here (by rw [scanned, ended])⟩
    | ended w' =>
      rw [scanned] at returns after
      cases returns
      exact ⟨after, fun result ended => .here (by rw [scanned, ended])⟩
    | unread w' =>
      rw [scanned] at returns after
      cases returns
      exact ⟨after, fun result ended => .here (by rw [scanned, ended])⟩
    | outside =>
      rw [scanned] at returns
      cases returns
      exact ⟨trivial, fun result ended => by cases ended⟩

lemma stale_of_finds (empty : v.size = 0)
    (fits : v.start.clustSize.toNat * sectorSize ≤ maxClustsize)
    (finds : StaleFinds v listing name w result) (settled : Settled v w) :
    ∃ enough, ∀ fuel, enough ≤ fuel → ∀ s, ∃ seen,
      rootSearch v.disk listing name fuel s w = some seen ∧ found seen = some result ∧
        SettledSeen v seen := by
  induction finds with
  | @here w result ends =>
    refine ⟨1, fun fuel more s => ?_⟩
    obtain ⟨fuel, rfl⟩ := Nat.exists_eq_add_of_le' more
    refine ⟨_, ?_, ends, scan_settled settled listing name direntsPerBlock 0⟩
    rw [rootSearch_succ fits settled, inRoot_empty empty, rootRest_ends (not_goesOn ends)]
  | @next w w' result on rest ih =>
    have after := scan_settled settled listing name direntsPerBlock 0
    rw [on] at after
    obtain ⟨enough, ih⟩ := ih after
    refine ⟨enough + 1, fun fuel more s => ?_⟩
    obtain ⟨fuel, rfl⟩ := Nat.exists_eq_add_of_le' (Nat.le_trans (Nat.le_add_left 1 enough) more)
    rw [rootSearch_succ fits settled, inRoot_empty empty, on]
    exact ih fuel (Nat.le_of_succ_le_succ more) (s + 1)

end

end FatSearch
