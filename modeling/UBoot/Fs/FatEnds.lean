import Mathlib.Data.Finite.Prod
import UBoot.Fs.FatSearch
import UBoot.Lib.FuelRecursion

/-!
# Reading a file comes to an end (fs/fat/fat.c)

None of the three loops of `do_fat_read` is bounded: the search of the root directory stops where an
entry stops it, that of another directory where its chain does too, and a file is read for as long
as its chain leads on to new states.
-/

namespace FatEnds

open ByteMemory Fat FatTable FatNames FatContents FatRead FatAlike FatSearch FuelRecursion

variable {v : Volume}

/-! ## Files -/

variable {fuel : Nat} {mydata : Fsdata} {dent : DirEntry} {maxsize : UInt32}

/-- What the reading of a file goes on from: the last cluster of the run, the bytes of the run, and
those to come. -/
structure Rest where
  endclust : UInt32
  actsize : UInt32
  filesize : UInt32

instance finiteRest : Finite Rest := by
  refine Finite.of_injective
    (fun r => (r.endclust.toFin, r.actsize.toFin, r.filesize.toFin)) fun r s same => ?_
  obtain ⟨first, second, third⟩ : r.endclust.toFin = s.endclust.toFin ∧
      r.actsize.toFin = s.actsize.toFin ∧ r.filesize.toFin = s.filesize.toFin := by
    simpa only [Prod.mk.injEq] using same
  cases r
  cases s
  rw [Rest.mk.injEq]
  exact ⟨UInt32.toFin_inj.mp first, UInt32.toFin_inj.mp second, UInt32.toFin_inj.mp third⟩

lemma getCluster_volume (g : Geometry) (n : UInt32) (m : Mem) (buffer : Nat) (size : UInt32) :
    getCluster v.disk g n m buffer size =
      (true, blit m buffer (slice (clusterView v.medium v.partOffset g n) 0 size.toNat)) :=
  getCluster_delivering n m buffer size

def restOf (r : Reading) : Rest := ⟨r.endclust, r.actsize, r.filesize⟩

def restNext (v : Volume) (r : Rest) : List Rest :=
  if r.actsize < r.filesize ∧ checkClust (link v r.endclust) v.start.fatsize = false then
    if link v r.endclust - 1 ≠ r.endclust then
      [⟨link v r.endclust, bytesperclust v.start.toGeometry, r.filesize - r.actsize⟩]
    else
      [⟨link v r.endclust, r.actsize + bytesperclust v.start.toGeometry, r.filesize⟩]
  else []

lemma turn_rest {r : Reading} (steady : Steady v r.mydata) :
    (∃ contents, readTurn v.disk r = .inr contents ∧ restNext v (restOf r) = []) ∨
      ∃ r', readTurn v.disk r = .inl r' ∧ Steady v r'.mydata ∧
        restNext v (restOf r) = [restOf r'] := by
  obtain ⟨mydata, found, steady'⟩ := getFatent_link steady r.endclust
  have geometry := steady'.geometry
  have width : mydata.fatsize = v.start.fatsize := congrArg Geometry.fatsize geometry
  rw [readTurn, restNext, restOf]
  dsimp only
  by_cases going : r.actsize < r.filesize
  · rw [if_pos going, found]
    obtain ⟨mydata', found', steady''⟩ := getFatent_link steady' r.endclust
    have width' : mydata'.fatsize = v.start.fatsize :=
      congrArg Geometry.fatsize steady''.geometry
    by_cases apart : link v r.endclust - 1 ≠ r.endclust
    · rw [if_pos apart, if_pos apart, getRun, geometry, getCluster_volume]
      dsimp only
      rw [found']
      rw [width', steady''.geometry]
      by_cases stop : checkClust (link v r.endclust) v.start.fatsize = true
      · rw [if_pos stop, if_neg fun both => by rw [stop] at both; cases both.2]
        exact .inl ⟨_, rfl, rfl⟩
      · rw [if_neg stop, if_pos ⟨going, Bool.eq_false_iff.mpr stop⟩]
        exact .inr ⟨_, rfl, steady'', rfl⟩
    · rw [if_neg apart, if_neg apart, width, geometry]
      by_cases stop : checkClust (link v r.endclust) v.start.fatsize = true
      · rw [if_pos stop, if_neg fun both => by rw [stop] at both; cases both.2]
        exact .inl ⟨_, rfl, rfl⟩
      · rw [if_neg stop, if_pos ⟨going, Bool.eq_false_iff.mpr stop⟩]
        exact .inr ⟨_, rfl, steady', rfl⟩
  · rw [if_neg going, if_neg fun both => going both.1]
    exact .inl ⟨_, rfl, rfl⟩

lemma ends_of_readLoop {r : Reading} (steady : Steady v r.mydata)
    (returns : readLoop v.disk fuel r ≠ none) : Ends (restNext v) (restOf r) := by
  induction fuel generalizing r with
  | zero => exact absurd rfl returns
  | succ fuel ih =>
    refine (ends_iff _).mpr fun rest member => ?_
    rw [readLoop] at returns
    rcases turn_rest steady with ⟨contents, turn, next⟩ | ⟨r', turn, steady', next⟩
    · rw [next] at member
      cases member
    rw [next, List.mem_singleton] at member
    rw [turn] at returns
    rw [member]
    exact ih steady' returns

lemma readLoop_of_ends {rest : Rest} (ends : Ends (restNext v) rest) :
    ∃ enough, ∀ fuel, enough ≤ fuel → ∀ r, Steady v r.mydata → restOf r = rest →
      ∃ contents, readLoop v.disk fuel r = some contents := by
  induction ends with
  | intro rest _ ih =>
    by_cases last : restNext v rest = []
    · refine ⟨1, fun fuel more r steady same => ?_⟩
      obtain ⟨fuel, rfl⟩ := Nat.exists_eq_add_of_le' more
      rw [readLoop]
      rcases turn_rest steady with ⟨contents, turn, -⟩ | ⟨r', turn, -, next⟩
      · exact ⟨contents, by rw [turn]⟩
      · rw [same, last] at next
        cases next
    · obtain ⟨next, member⟩ := List.exists_mem_of_ne_nil _ last
      obtain ⟨enough, later⟩ := ih next member
      refine ⟨enough + 1, fun fuel more r steady same => ?_⟩
      obtain ⟨fuel, rfl⟩ :=
        Nat.exists_eq_add_of_le' (le_trans (Nat.le_add_left 1 enough) more)
      rw [readLoop]
      rcases turn_rest steady with ⟨contents, turn, -⟩ | ⟨r', turn, steady', here⟩
      · exact ⟨contents, by rw [turn]⟩
      rw [same] at here
      rw [here, List.mem_singleton] at member
      rw [turn]
      exact later fuel (Nat.le_of_succ_le_succ more) r' steady' member.symm

def fileStart (v : Volume) (dent : DirEntry) (maxsize : UInt32) : Rest where
  endclust := dent.startClust v.start.fatsize
  actsize := bytesperclust v.start.toGeometry
  filesize := if maxsize > 0 ∧ dent.size > maxsize then maxsize else dent.size

/-- The reading of a file comes to no state twice: cluster, bytes of the run, bytes to come. -/
def FileEnds (v : Volume) (dent : DirEntry) (maxsize : UInt32) : Prop :=
  NoReturn (restNext v) (fileStart v dent maxsize)

lemma restOf_start (steady : Steady v mydata) (dent : DirEntry) (m : Mem) (buffer : Nat)
    (maxsize : UInt32) :
    restOf (startReading mydata dent m buffer maxsize) = fileStart v dent maxsize := by
  rw [startReading, restOf, fileStart, steady.geometry]

lemma fileEnds_of_returns (steady : Steady v mydata) {m : Mem} {buffer : Nat}
    (returns : getContents v.disk mydata dent m buffer maxsize fuel ≠ none) :
    FileEnds v dent maxsize := by
  rw [FileEnds, ← ends_iff_noReturn, ← restOf_start steady dent m buffer maxsize]
  exact ends_of_readLoop steady returns

lemma returns_of_fileEnds (ends : FileEnds v dent maxsize) :
    ∃ enough, ∀ fuel, enough ≤ fuel → ∀ mydata, Steady v mydata → ∀ m buffer,
      ∃ contents, getContents v.disk mydata dent m buffer maxsize fuel = some contents := by
  rw [FileEnds, ← ends_iff_noReturn] at ends
  obtain ⟨enough, loop⟩ := readLoop_of_ends ends
  refine ⟨enough, fun fuel more mydata steady m buffer => ?_⟩
  exact loop fuel more _ steady (restOf_start steady dent m buffer maxsize)

lemma ends_of_count (size : 0 < clusterSize v.start.toGeometry) (n : Nat) {rest : Rest}
    (fits : rest.filesize.toNat + clusterSize v.start.toGeometry ≤ 2 ^ 32)
    (left : rest.filesize.toNat - rest.actsize.toNat ≤ n) : Ends (restNext v) rest := by
  induction n generalizing rest with
  | zero =>
    refine (ends_iff _).mpr fun next member => ?_
    have stopped : ¬ rest.actsize < rest.filesize := by
      rw [UInt32.lt_iff_toNat_lt]
      omega
    rw [restNext, if_neg fun both => stopped both.1] at member
    cases member
  | succ n ih =>
    refine (ends_iff _).mpr fun next member => ?_
    have bytes := bytesperclust_toNat v.start.toGeometry
    rw [restNext] at member
    split_ifs at member with going apart
    · have less := UInt32.lt_iff_toNat_lt.mp going.1
      have taken : (rest.filesize - rest.actsize).toNat =
          rest.filesize.toNat - rest.actsize.toNat :=
        UInt32.toNat_sub_of_le _ _ (UInt32.le_of_lt going.1)
      rw [List.mem_singleton.mp member]
      refine ih ?_ ?_
      · change (rest.filesize - rest.actsize).toNat + _ ≤ _
        omega
      · change (rest.filesize - rest.actsize).toNat - (bytesperclust v.start.toGeometry).toNat ≤ n
        omega
    · have less := UInt32.lt_iff_toNat_lt.mp going.1
      have longer : (rest.actsize + bytesperclust v.start.toGeometry).toNat =
          rest.actsize.toNat + clusterSize v.start.toGeometry := by
        rw [UInt32.toNat_add, bytes, Nat.mod_eq_of_lt (by omega)]
      rw [List.mem_singleton.mp member]
      refine ih fits ?_
      change rest.filesize.toNat - (rest.actsize + bytesperclust v.start.toGeometry).toNat ≤ n
      omega
    · cases member

lemma fileEnds_of_count (size : 0 < clusterSize v.start.toGeometry)
    (fits : count dent maxsize + clusterSize v.start.toGeometry ≤ 2 ^ 32) :
    FileEnds v dent maxsize := by
  have bytes : (fileStart v dent maxsize).filesize.toNat = count dent maxsize :=
    filesize_toNat dent maxsize
  rw [FileEnds, ← ends_iff_noReturn]
  exact ends_of_count size _ (bytes ▸ fits) le_rfl

/-! ## Paths -/

/-- The rest of a path comes to an end in a directory: the search for its first part ends, and what
it finds leads on, or is the file. -/
inductive PathEnds (v : Volume) (dols : Bool) (maxsize : UInt32) :
    Bool → List UInt8 → DirEntry → Prop
  | onwards {firsttime : Bool} {subname : List UInt8} {dent : DirEntry} {idx : Nat}
      {result : Option DirEntry} (more : dirdelim subname = some idx)
      (finds : DirFinds v false (subname.take idx) (dent.startClust v.start.fatsize) result)
      (rest : ∀ next, result = some next → next.attr &&& attrDir ≠ 0 →
        PathEnds v dols maxsize
          (firsttime && !(dols && (skipDelims (subname.drop (idx + 1))).isEmpty))
          (skipDelims (subname.drop (idx + 1))) next) :
      PathEnds v dols maxsize firsttime subname dent
  | listed {firsttime : Bool} {subname : List UInt8} {dent : DirEntry} {result : Option DirEntry}
      (last : dirdelim subname = none) (first : (dols && firsttime) = true)
      (finds : DirFinds v false subname (dent.startClust v.start.fatsize) result)
      (rest : ∀ next, result = some next → PathEnds v dols maxsize false subname next) :
      PathEnds v dols maxsize firsttime subname dent
  | read {firsttime : Bool} {subname : List UInt8} {dent : DirEntry} {result : Option DirEntry}
      (last : dirdelim subname = none) (first : (dols && firsttime) = false)
      (finds : DirFinds v dols subname (dent.startClust v.start.fatsize) result)
      (rest : ∀ next, result = some next → FileEnds v next maxsize) :
      PathEnds v dols maxsize firsttime subname dent

def Returned (outcome : Option Outcome) : Prop := ∃ ret m, outcome = some (.returned ret m)

lemma found_some {seen : Seen} (same : found seen = some (some dent)) :
    ∃ w, seen = .matched dent w := by
  cases seen with
  | passed w => cases same
  | matched dent' w =>
    cases same
    exact ⟨w, rfl⟩
  | ended w => cases same
  | unread w => cases same
  | outside => cases same

lemma found_none {seen : Seen} (same : found seen = some none) :
    ∃ w, seen = .ended w ∨ seen = .unread w := by
  cases seen with
  | passed w => cases same
  | matched dent' w => cases same
  | ended w => exact ⟨w, .inl rfl⟩
  | unread w => exact ⟨w, .inr rfl⟩
  | outside => cases same

section
variable {disk : Disk} {req : Request} {fuel turns : Nat} {firsttime : Bool} {subname : List UInt8}
  {dent : DirEntry} {w : Walk}

lemma walkPath_onwards {idx : Nat} (more : dirdelim subname = some idx) :
    walkPath disk req fuel (turns + 1) firsttime subname dent w =
      afterSearch (getDentfromdir disk false (subname.take idx) fuel
          (dent.startClust w.mydata.fatsize) w)
        (some (.returned (-1) req.m)) fun dent w =>
          if dent.attr &&& attrDir = 0 then some (.returned (-1) req.m)
          else walkPath disk req fuel turns
            (firsttime && !(req.dols && (skipDelims (subname.drop (idx + 1))).isEmpty))
            (skipDelims (subname.drop (idx + 1))) dent w := by
  rw [walkPath, more]

lemma walkPath_listed (last : dirdelim subname = none) (first : (req.dols && firsttime) = true) :
    walkPath disk req fuel (turns + 1) firsttime subname dent w =
      afterSearch (getDentfromdir disk false subname fuel (dent.startClust w.mydata.fatsize) w)
        (some (.returned (-1) req.m)) fun dent w =>
          walkPath disk req fuel turns false subname dent w := by
  rw [walkPath, last]
  exact if_pos first

lemma walkPath_read (last : dirdelim subname = none) (first : (req.dols && firsttime) = false) :
    walkPath disk req fuel (turns + 1) firsttime subname dent w =
      afterSearch (getDentfromdir disk req.dols subname fuel (dent.startClust w.mydata.fatsize) w)
        (some (.returned (if req.dols then 0 else -1) req.m)) fun dent w =>
          readContents disk req fuel dent w.mydata := by
  rw [walkPath, last]
  exact if_neg (Bool.eq_false_iff.mp first)

end

variable {go : DirEntry → Walk → Option Outcome} {result : Option DirEntry} {firsttime dols : Bool}
    {subname : List UInt8}

lemma found_of_returned {seen : Option Seen} {null : Option Outcome}
    (returned : Returned (afterSearch seen null go)) :
    ∃ s result, seen = some s ∧ found s = some result ∧
      ∀ dent w, s = .matched dent w → Returned (go dent w) := by
  obtain ⟨ret, m, same⟩ := returned
  cases seen with
  | none => cases same
  | some s =>
    refine ⟨s, ?_⟩
    cases s with
    | passed w => cases same
    | outside => cases same
    | ended w => exact ⟨none, rfl, rfl, fun dent w impossible => by cases impossible⟩
    | unread w => exact ⟨none, rfl, rfl, fun dent w impossible => by cases impossible⟩
    | matched dent w =>
      refine ⟨some dent, rfl, rfl, fun dent' w' same' => ?_⟩
      cases same'
      exact ⟨ret, m, same⟩

lemma returned_of_found {s : Seen} {null : Option Outcome} (ended : found s = some result)
    (nothing : Returned null) (on : ∀ dent w, s = .matched dent w → Returned (go dent w)) :
    Returned (afterSearch (some s) null go) := by
  cases s with
  | passed w => cases ended
  | outside => cases ended
  | ended w => exact nothing
  | unread w => exact nothing
  | matched dent w => exact on dent w rfl

lemma pathEnds_of_returned (fits : v.start.clustSize.toNat * sectorSize ≤ maxClustsize)
    (start : Steady v v.start) {req : Request} {turns : Nat} {w : Walk} (settled : Settled v w)
    (returned : Returned (walkPath v.disk req fuel turns firsttime subname dent w)) :
    PathEnds v req.dols req.maxsize firsttime subname dent := by
  induction turns generalizing firsttime subname dent w with
  | zero =>
    obtain ⟨ret, m, impossible⟩ := returned
    cases impossible
  | succ turns ih =>
    have width : w.mydata.fatsize = v.start.fatsize :=
      congrArg Geometry.fatsize settled.steady.geometry
    cases delim : dirdelim subname with
    | some idx =>
      rw [walkPath_onwards delim, width] at returned
      obtain ⟨seen, result, returns, ended, after⟩ := found_of_returned returned
      obtain ⟨settledSeen, finds⟩ := finds_of_returns fits start settled returns
      refine .onwards delim (finds result ended) fun next same dir => ?_
      subst same
      obtain ⟨w', rfl⟩ := found_some ended
      have rest := after next w' rfl
      rw [if_neg dir] at rest
      exact ih settledSeen rest
    | none =>
      by_cases first : (req.dols && firsttime) = true
      · rw [walkPath_listed delim first, width] at returned
        obtain ⟨seen, result, returns, ended, after⟩ := found_of_returned returned
        obtain ⟨settledSeen, finds⟩ := finds_of_returns fits start settled returns
        refine .listed delim first (finds result ended) fun next same => ?_
        subst same
        obtain ⟨w', rfl⟩ := found_some ended
        exact ih settledSeen (after next w' rfl)
      · have once := Bool.eq_false_iff.mpr first
        rw [walkPath_read delim once, width] at returned
        obtain ⟨seen, result, returns, ended, after⟩ := found_of_returned returned
        obtain ⟨settledSeen, finds⟩ := finds_of_returns fits start settled returns
        refine .read delim once (finds result ended) fun next same => ?_
        subst same
        obtain ⟨w', rfl⟩ := found_some ended
        obtain ⟨ret, m, contents⟩ := after next w' rfl
        have read : getContents v.disk w'.mydata next req.m req.buffer req.maxsize fuel ≠ none := by
          intro none
          rw [readContents, none] at contents
          cases contents
        exact fileEnds_of_returns (show Settled v w' from settledSeen).steady read

lemma returned_search (fits : v.start.clustSize.toNat * sectorSize ≤ maxClustsize)
    (start : Steady v v.start) {filename : List UInt8} {c : UInt32}
    (finds : DirFinds v dols filename c result) :
    ∃ enough, ∀ fuel, enough ≤ fuel → ∀ w, Settled v w → ∀ null go, Returned null →
      (∀ next w', result = some next → Settled v w' → Returned (go next w')) →
        Returned (afterSearch (getDentfromdir v.disk dols filename fuel c w) null go) := by
  obtain ⟨enough, searched⟩ := returns_of_finds fits start finds
  refine ⟨enough, fun fuel more w settled null go nothing on => ?_⟩
  obtain ⟨seen, returns, ended, settledSeen⟩ := searched fuel more w settled
  rw [returns]
  refine returned_of_found ended nothing fun next w' same => ?_
  subst same
  cases ended
  exact on next w' rfl settledSeen

lemma enough_for_found (result : Option DirEntry) {P : DirEntry → Nat → Prop}
    (each : ∀ next, result = some next → ∃ enough, ∀ n, enough ≤ n → P next n) :
    ∃ enough, ∀ next, result = some next → ∀ n, enough ≤ n → P next n := by
  cases result with
  | none => exact ⟨0, fun next impossible => by cases impossible⟩
  | some next =>
    obtain ⟨enough, holds⟩ := each next rfl
    refine ⟨enough, fun next' same => ?_⟩
    cases same
    exact holds

/-- A walk along a path returns, with turns and fuel from `n` on. -/
def Walks (v : Volume) (dols : Bool) (maxsize : UInt32) (firsttime : Bool) (subname : List UInt8)
    (dent : DirEntry) (n : Nat) : Prop :=
  ∀ fuel turns, n ≤ fuel → n ≤ turns → ∀ w, Settled v w → ∀ m buffer,
    Returned (walkPath v.disk ⟨m, buffer, maxsize, dols⟩ fuel turns firsttime subname dent w)

lemma Walks.mono {n k : Nat} (walks : Walks v dols maxsize firsttime subname dent n) (more : n ≤ k)
    : Walks v dols maxsize firsttime subname dent k :=
  fun fuel turns enoughFuel enoughTurns =>
    walks fuel turns (le_trans more enoughFuel) (le_trans more enoughTurns)

lemma returned_of_pathEnds (fits : v.start.clustSize.toNat * sectorSize ≤ maxClustsize)
    (start : Steady v v.start) (ends : PathEnds v dols maxsize firsttime subname dent) :
    ∃ n, Walks v dols maxsize firsttime subname dent n := by
  have width {w : Walk} (settled : Settled v w) : w.mydata.fatsize = v.start.fatsize :=
    congrArg Geometry.fatsize settled.steady.geometry
  induction ends with
  | @onwards firsttime subname dent idx result more finds rest ih =>
    obtain ⟨search, searched⟩ := returned_search fits start finds
    obtain ⟨enough, later⟩ := enough_for_found result (P := fun next n =>
      next.attr &&& attrDir ≠ 0 → Walks v dols maxsize
        (firsttime && !(dols && (skipDelims (subname.drop (idx + 1))).isEmpty))
        (skipDelims (subname.drop (idx + 1))) next n) fun next same => by
      by_cases dir : next.attr &&& attrDir = 0
      · exact ⟨0, fun n _ dir' => absurd dir dir'⟩
      · obtain ⟨n, walks⟩ := ih next same dir
        exact ⟨n, fun k more _ => walks.mono more⟩
    refine ⟨search + enough + 1, fun fuel turns enoughFuel enoughTurns w settled m buffer => ?_⟩
    obtain ⟨turns, rfl⟩ := Nat.exists_eq_add_of_le' (Nat.le_of_add_left_le enoughTurns)
    rw [walkPath_onwards more, width settled]
    refine searched fuel (by omega) w settled _ _ ⟨_, _, rfl⟩ fun next w' same settled' => ?_
    by_cases dir : next.attr &&& attrDir = 0
    · rw [if_pos dir]
      exact ⟨_, _, rfl⟩
    · rw [if_neg dir]
      exact later next same enough le_rfl dir fuel turns (by omega) (by omega) w' settled'
        m buffer
  | @listed firsttime subname dent result last first finds rest ih =>
    obtain ⟨search, searched⟩ := returned_search fits start finds
    obtain ⟨enough, later⟩ := enough_for_found result
      (P := Walks v dols maxsize false subname) fun next same => by
      obtain ⟨n, walks⟩ := ih next same
      exact ⟨n, fun k more => walks.mono more⟩
    refine ⟨search + enough + 1, fun fuel turns enoughFuel enoughTurns w settled m buffer => ?_⟩
    obtain ⟨turns, rfl⟩ := Nat.exists_eq_add_of_le' (Nat.le_of_add_left_le enoughTurns)
    rw [walkPath_listed last first, width settled]
    refine searched fuel (by omega) w settled _ _ ⟨_, _, rfl⟩ fun next w' same settled' => ?_
    exact later next same enough le_rfl fuel turns (by omega) (by omega) w' settled' m
      buffer
  | @read firsttime subname dent result last first finds rest =>
    obtain ⟨search, searched⟩ := returned_search fits start finds
    obtain ⟨enough, later⟩ := enough_for_found result (P := fun next n =>
      ∀ mydata, Steady v mydata → ∀ m buffer, ∃ contents,
        getContents v.disk mydata next m buffer maxsize n = some contents)
      fun next same => returns_of_fileEnds (rest next same)
    refine ⟨search + enough + 1, fun fuel turns enoughFuel enoughTurns w settled m buffer => ?_⟩
    obtain ⟨turns, rfl⟩ := Nat.exists_eq_add_of_le' (Nat.le_of_add_left_le enoughTurns)
    rw [walkPath_read last first, width settled]
    refine searched fuel (by omega) w settled _ _ ⟨_, _, rfl⟩ fun next w' same settled' => ?_
    obtain ⟨contents, read⟩ := later next same fuel (by omega) w'.mydata settled'.steady m buffer
    exact ⟨contents.ret, contents.mem, by rw [readContents, read]⟩

/-! ## do_fat_read -/

variable {name : List UInt8} {buffers : Buffers} {path : List UInt8 × Option (List UInt8)}

def mounted (medium : Medium) (partOffset : UInt32) (stack : Mem) (bs : BootSector)
    (fatsize : FatSize) (buffers : Buffers) : Volume :=
  ⟨medium, partOffset, stack, mount bs fatsize buffers.fatbuf, buffers.nameBlock⟩

/-- What the search of the root directory ends with. With clusters of no sectors it never reads one,
and only sees what the buffer holds. -/
def RootResult (v : Volume) (listing : Bool) (name : List UInt8) (rootBlock : Mem)
    (result : Option DirEntry) : Prop :=
  if v.size = 0 then StaleFinds v listing name (opened v rootBlock) result
  else RootFinds v listing name v.start.rootdirSect.toUInt32 result

/-- What is found in the root directory leads to an end: a directory along the rest of the path, a
file by itself. -/
def FoundEnds (v : Volume) (maxsize : UInt32) (dols : Bool) (subname : Option (List UInt8))
    (dent : DirEntry) : Prop :=
  match subname with
  | some subname => dent.attr &&& attrDir ≠ 0 → PathEnds v dols maxsize true subname dent
  | none => FileEnds v dent maxsize

/-- Clusters fit in the buffers, the search of the root directory ends, and so does what it leads
to. -/
structure RootEnds (v : Volume) (rootBlock : Mem) (maxsize : UInt32)
    (path : List UInt8 × Option (List UInt8)) (dols : Int) : Prop where
  fits : v.start.clustSize.toNat * sectorSize ≤ maxClustsize
  ends : ∃ result, RootResult v (dols = lsRoot) path.1 rootBlock result ∧
    ∀ dent, result = some dent → FoundEnds v maxsize (dols ≠ 0) path.2 dent

def listed (path : List UInt8) (dols : Int) : Int := if path = [] then lsRoot else dols

/-- The path fits in its copy, and is empty with nothing to list, or leads to an end. -/
structure Halts (v : Volume) (rootBlock : Mem) (filename : List UInt8) (maxsize : UInt32)
    (dols : Int) : Prop where
  short : (skipDelims filename).length < fnamecopySize
  ends : downcase (skipDelims filename) = [] ∧ dols = 0 ∨
    RootEnds v rootBlock maxsize
      (splitPath (downcase (skipDelims filename)) (listed (downcase (skipDelims filename)) dols))
      (listed (downcase (skipDelims filename)) dols)

lemma slots_of_sectors (some : v.size ≠ 0) : direntsPerBlock ≤ v.slots := by
  have bytes : v.size = v.start.clustSize.toNat * 512 := rfl
  have entries : v.slots = v.start.clustSize.toNat * 512 / 32 := rfl
  change 16 ≤ v.slots
  omega

lemma result_of_rootSearch (fits : v.start.clustSize.toNat * sectorSize ≤ maxClustsize)
    (start : Steady v v.start) {listing : Bool} {rootBlock : Mem} {seen : Seen}
    (returns : rootSearch v.disk listing name fuel v.start.rootdirSect.toUInt32
      (opened v rootBlock) = some seen) :
    SettledSeen v seen ∧
      ∀ result, found seen = some result → RootResult v listing name rootBlock result := by
  have settled := steady_start start rootBlock
  by_cases empty : v.size = 0
  · obtain ⟨settledSeen, finds⟩ := finds_of_stale empty fits settled returns
    refine ⟨settledSeen, fun result ended => ?_⟩
    rw [RootResult, if_pos empty]
    exact finds result ended
  · obtain ⟨settledSeen, finds⟩ :=
      finds_of_rootSearch (slots_of_sectors empty) fits start settled returns
    refine ⟨settledSeen, fun result ended => ?_⟩
    rw [RootResult, if_neg empty]
    exact finds result ended

lemma rootSearch_of_result (fits : v.start.clustSize.toNat * sectorSize ≤ maxClustsize)
    (start : Steady v v.start) {listing : Bool} {rootBlock : Mem}
    (finds : RootResult v listing name rootBlock result) :
    ∃ enough, ∀ fuel, enough ≤ fuel → ∃ seen,
      rootSearch v.disk listing name fuel v.start.rootdirSect.toUInt32 (opened v rootBlock) =
        some seen ∧ found seen = some result ∧ SettledSeen v seen := by
  have settled := steady_start start rootBlock
  rw [RootResult] at finds
  by_cases empty : v.size = 0
  · rw [if_pos empty] at finds
    obtain ⟨enough, searched⟩ := stale_of_finds empty fits finds settled
    exact ⟨enough, fun fuel more => searched fuel more _⟩
  · rw [if_neg empty] at finds
    obtain ⟨enough, searched⟩ := rootSearch_of_finds (slots_of_sectors empty) fits start finds
    exact ⟨enough, fun fuel more => searched fuel more _ settled⟩

lemma foundEnds_of_returned (fits : v.start.clustSize.toNat * sectorSize ≤ maxClustsize)
    (start : Steady v v.start) {req : Request} {subname : Option (List UInt8)} {w : Walk}
    (settled : Settled v w) (returned : Returned (readFound v.disk req buffers fuel subname dent w))
    :
    FoundEnds v req.maxsize req.dols subname dent := by
  cases subname with
  | some subname =>
    intro dir
    rw [readFound, if_neg dir] at returned
    have settled' : Settled v { w with block := buffers.dirBlock } :=
      ⟨settled.steady, settled.names⟩
    exact pathEnds_of_returned fits start settled' returned
  | none =>
    obtain ⟨ret, m, contents⟩ := returned
    have read : getContents v.disk w.mydata dent req.m req.buffer req.maxsize fuel ≠ none := by
      intro none
      rw [readFound, readContents, none] at contents
      cases contents
    exact fileEnds_of_returns settled.steady read

lemma returned_of_foundEnds (fits : v.start.clustSize.toNat * sectorSize ≤ maxClustsize)
    (start : Steady v v.start) {subname : Option (List UInt8)}
    (ends : FoundEnds v maxsize dols subname dent) :
    ∃ enough, ∀ fuel, enough ≤ fuel → ∀ w, Settled v w → ∀ m buffer buffers,
      Returned (readFound v.disk ⟨m, buffer, maxsize, dols⟩ buffers fuel subname dent w) := by
  cases subname with
  | some subname =>
    by_cases dir : dent.attr &&& attrDir = 0
    · refine ⟨0, fun fuel _ w settled m buffer buffers => ?_⟩
      rw [readFound]
      rw [if_pos dir]
      exact ⟨_, _, rfl⟩
    · obtain ⟨enough, walks⟩ := returned_of_pathEnds fits start (ends dir)
      refine ⟨enough, fun fuel more w settled m buffer buffers => ?_⟩
      rw [readFound]
      rw [if_neg dir]
      exact walks fuel fuel more more ⟨w.mydata, buffers.dirBlock, w.nameBlock⟩
        ⟨settled.steady, settled.names⟩ m buffer
  | none =>
    obtain ⟨enough, read⟩ := returns_of_fileEnds ends
    refine ⟨enough, fun fuel more w settled m buffer buffers => ?_⟩
    obtain ⟨contents, got⟩ := read fuel more w.mydata settled.steady m buffer
    exact ⟨contents.ret, contents.mem, by rw [readFound, readContents, got]⟩

lemma fits_of_returned {disk : Disk} {m : Mem} {buffer : Nat} {dols : Int}
    (returned : Returned (readMounted disk buffers mydata path m buffer maxsize dols fuel)) :
    mydata.clustSize.toNat * sectorSize ≤ maxClustsize := by
  refine not_lt.mp fun large => ?_
  obtain ⟨ret, m', same⟩ := returned
  rw [readMounted] at same
  cases fuel with
  | zero => cases same
  | succ fuel =>
    rw [rootSearch] at same
    rw [if_pos large] at same
    cases same

lemma readMounted_iff (start : Steady v v.start) (names : v.nameBlock = buffers.nameBlock) {m : Mem}
    {buffer : Nat} {dols : Int} :
    (∃ fuel, Returned (readMounted v.disk buffers v.start path m buffer maxsize dols fuel)) ↔
      RootEnds v buffers.rootBlock maxsize path dols := by
  constructor
  · rintro ⟨fuel, returned⟩
    have fits := fits_of_returned returned
    rw [readMounted, ← names] at returned
    cases returns : rootSearch v.disk (dols = lsRoot) path.1 fuel v.start.rootdirSect.toUInt32
        ⟨v.start, buffers.rootBlock, v.nameBlock⟩ with
    | none =>
      rw [returns] at returned
      obtain ⟨ret, m', impossible⟩ := returned
      cases impossible
    | some seen =>
      rw [returns] at returned
      obtain ⟨settledSeen, finds⟩ := result_of_rootSearch fits start returns
      cases seen with
      | passed w =>
        obtain ⟨ret, m', impossible⟩ := returned
        cases impossible
      | outside =>
        obtain ⟨ret, m', impossible⟩ := returned
        cases impossible
      | ended w => exact ⟨fits, none, finds none rfl, fun dent impossible => by cases impossible⟩
      | unread w => exact ⟨fits, none, finds none rfl, fun dent impossible => by cases impossible⟩
      | matched dent w =>
        refine ⟨fits, some dent, finds (some dent) rfl, fun dent' same => ?_⟩
        cases same
        exact foundEnds_of_returned fits start settledSeen returned
  · rintro ⟨fits, result, finds, ends⟩
    obtain ⟨search, searched⟩ := rootSearch_of_result fits start finds
    obtain ⟨enough, later⟩ := enough_for_found result (P := fun next n => ∀ w, Settled v w →
      ∀ m buffer buffers, Returned (readFound v.disk ⟨m, buffer, maxsize, dols ≠ 0⟩ buffers n path.2
        next w)) fun next same => returned_of_foundEnds fits start (ends next same)
    refine ⟨search + enough, ?_⟩
    obtain ⟨seen, returns, ended, settledSeen⟩ := searched (search + enough) (by omega)
    rw [opened, names] at returns
    rw [readMounted, returns]
    cases seen with
    | unread w => exact ⟨_, _, rfl⟩
    | passed w => cases ended
    | outside => cases ended
    | ended w => exact ⟨_, _, rfl⟩
    | matched dent w =>
      cases ended
      exact later dent rfl _ (by omega) w settledSeen m buffer buffers

lemma mounted_steady (medium : Medium) (partOffset : UInt32) (stack : Mem) (bs : BootSector)
    (fatsize : FatSize) (buffers : Buffers) :
    Steady (mounted medium partOffset stack bs fatsize buffers)
      (mounted medium partOffset stack bs fatsize buffers).start :=
  ⟨rfl, fun _ => rfl, fun _ => .inl rfl⟩

def Terminates (disk : Disk) (buffers : Buffers) (filename : List UInt8) (m : Mem) (buffer : Nat)
    (maxsize : UInt32) (dols : Int) : Prop :=
  ∃ fuel, Returned (doFatRead disk buffers filename m buffer maxsize dols fuel)

/-- On a disk that is accepted, `do_fat_read` returns if and only if its path fits, and all that the
path leads to comes to an end. -/
theorem doFatRead_terminates_iff {medium : Medium} {partOffset : UInt32} {stack : Mem}
    {bs : BootSector} {fatsize : FatSize} {buffers : Buffers} {filename : List UInt8} {m : Mem}
    {buffer : Nat} {maxsize : UInt32} {dols : Int}
    (accepted : readBootsectandvi (delivering medium partOffset stack) = some (bs, fatsize)) :
    Terminates (delivering medium partOffset stack) buffers filename m buffer maxsize dols ↔
      Halts (mounted medium partOffset stack bs fatsize buffers) buffers.rootBlock filename maxsize
        dols := by
  have start := mounted_steady medium partOffset stack bs fatsize buffers
  have whole (path : List UInt8 × Option (List UInt8)) (dols : Int) :
      (∃ fuel, Returned (readMounted (delivering medium partOffset stack) buffers
        (mount bs fatsize buffers.fatbuf) path m buffer maxsize dols fuel)) ↔
        RootEnds (mounted medium partOffset stack bs fatsize buffers) buffers.rootBlock maxsize path
          dols := readMounted_iff start rfl
  by_cases long : fnamecopySize ≤ (skipDelims filename).length
  · constructor
    · rintro ⟨fuel, ret, m', same⟩
      rw [doFatRead, accepted] at same
      dsimp only at same
      rw [if_pos long] at same
      cases same
    · intro halts
      exact absurd long (Nat.not_le.mpr halts.short)
  · by_cases nothing : downcase (skipDelims filename) = [] ∧ dols = 0
    · constructor
      · intro _
        exact ⟨Nat.not_le.mp long, Or.inl nothing⟩
      · intro _
        refine ⟨0, -1, m, ?_⟩
        rw [doFatRead, accepted]
        dsimp only
        rw [if_neg long, if_pos nothing]
    · have reads (fuel : Nat) :
          doFatRead (delivering medium partOffset stack) buffers filename m buffer maxsize dols
            fuel =
            readMounted (delivering medium partOffset stack) buffers
              (mount bs fatsize buffers.fatbuf)
              (splitPath (downcase (skipDelims filename))
                (listed (downcase (skipDelims filename)) dols)) m buffer maxsize
              (listed (downcase (skipDelims filename)) dols) fuel := by
        rw [doFatRead, accepted]
        dsimp only
        rw [if_neg long, if_neg nothing, listed]
      constructor
      · rintro ⟨fuel, returned⟩
        rw [reads] at returned
        exact ⟨Nat.not_le.mp long, Or.inr ((whole _ _).mp ⟨fuel, returned⟩)⟩
      · intro halts
        obtain ⟨fuel, returned⟩ := (whole _ _).mpr (halts.ends.resolve_left nothing)
        exact ⟨fuel, by rwa [reads]⟩

/-- A boot sector of a FAT16 volume with clusters of one sector, and other bytes 0xe5. -/
def bootByte (k : Nat) : UInt8 :=
  if k = 13 ∨ k = 14 then 1
  else if k = 15 ∨ k = 23 then 0
  else if k = 16 then 2
  else if k = 22 then 9
  else if 54 ≤ k ∧ k < 62 then fat16Sign.getD (k - 54) 0
  else 0xe5

def cardWith (root : UInt32 → Nat → UInt8) : Medium :=
  fun s k => if s = 0 then bootByte k else root s k

def noBuffers : Buffers := ⟨fun _ => 0, fun _ => 0, fun _ => 0, fun _ => 0⟩

def cardSector : BootSector := ⟨1, 1, 2, 0xe5e5, 9, 0xe5e5e5e5⟩

lemma readBootsectandvi_delivering (medium : Medium) (partOffset : UInt32) (stack : Mem) :
    readBootsectandvi (delivering medium partOffset stack) =
      let block := view medium (0 + partOffset)
      let bs := bootSector block
      if bs.fatLength = 0 then
        if slice block 82 8 = fat32Sign then some (bs, .fat32) else none
      else if slice block 54 8 = fat12Sign then some (bs, .fat12)
      else if slice block 54 8 = fat16Sign then some (bs, .fat16)
      else none := by
  have same (k : Nat) (low : k < 512) :
      blit stack 0 (slice (view medium (0 + partOffset)) 0 512) k =
        view medium (0 + partOffset) k := by
    rw [blit_slice _ _ (Nat.zero_le k) (by omega)]
    congr 1
    omega
  have word {k : Nat} (low : k + 1 < 512) :
      fat2cpu16 (blit stack 0 (slice (view medium (0 + partOffset)) 0 512)) k =
        fat2cpu16 (view medium (0 + partOffset)) k :=
    fat2cpu16_congr (same k (by omega)) (same (k + 1) low)
  have sign {k : Nat} (low : k + 8 ≤ 512) :
      slice (blit stack 0 (slice (view medium (0 + partOffset)) 0 512)) k 8 =
        slice (view medium (0 + partOffset)) k 8 :=
    slice_congr fun i _ below => same i (by omega)
  have sector : bootSector (blit stack 0 (slice (view medium (0 + partOffset)) 0 512)) =
      bootSector (view medium (0 + partOffset)) := by
    rw [bootSector, bootSector, same 13 (by decide), same 16 (by decide), word (by decide),
      word (by decide), word (by decide), fat2cpu32, fat2cpu32, word (by decide), word (by decide)]
  have read : diskRead (delivering medium partOffset stack) 0 1
      (delivering medium partOffset stack).stack 0 =
      (1, blit stack 0 (slice (view medium (0 + partOffset)) 0 512)) := rfl
  rw [readBootsectandvi, read]
  dsimp only
  rw [if_neg (by decide), sector, sign (by decide), sign (by decide)]

lemma card_accepted (root : UInt32 → Nat → UInt8) :
    readBootsectandvi (delivering (cardWith root) 0 fun _ => 0) = some (cardSector, .fat16) := by
  have sector : bootSector (view (cardWith root) (0 + 0)) = cardSector := by
    rw [bootSector, cardSector, BootSector.mk.injEq]
    have word (k : Nat) (byte : bootByte k = 0xe5) (byte' : bootByte (k + 1) = 0xe5) :
        fat2cpu16 bootByte k = 0xe5e5 := by
      rw [fat2cpu16, byte, byte']
      rfl
    refine ⟨rfl, rfl, rfl, ?_, rfl, ?_⟩
    · exact congrArg UInt16.ofNat (word 17 rfl rfl)
    · have long : fat2cpu32 bootByte 36 = 0xe5e5e5e5 := by
        rw [fat2cpu32, word 36 rfl rfl, word 38 rfl rfl]
      exact congrArg UInt32.ofNat long
  have sign : slice (view (cardWith root) (0 + 0)) 54 8 = fat16Sign := by rfl
  rw [readBootsectandvi_delivering]
  dsimp only
  rw [sector, sign]
  rfl

def fileRoot (s : UInt32) (k : Nat) : UInt8 :=
  if s ≠ 19 then 0
  else if k = 0 then 65
  else if k < 11 then 32
  else if k = 11 then 0x20
  else if k = 26 then 2
  else if k = 28 then 10
  else 0

theorem file_read :
    Terminates (delivering (cardWith fileRoot) 0 fun _ => 0) noBuffers [97] (fun _ => 0) 0 0 0 := by
  refine (doFatRead_terminates_iff (card_accepted fileRoot)).mpr ⟨by decide, Or.inr ⟨by decide, ?_⟩⟩
  refine ⟨some (direntOf (view (cardWith fileRoot) 19) 0), ?_, fun dent same => ?_⟩
  · rw [RootResult, if_neg (by decide)]
    refine .here ?_
    rfl
  · cases same
    refine fileEnds_of_count (by decide) ?_
    decide

/-- A root directory of deleted entries alone, and a disk that is full of the same bytes behind it.
-/
def deletedRoot (_ : UInt32) (_ : Nat) : UInt8 := 0xe5

lemma scan_deleted {disk : Disk} (some : name ≠ []) {w : Walk} {left i : Nat}
    (deleted : ∀ k < i + left,
      slotId w.block k = deletedFlag ∧ attrOf w.block k &&& attrVolume = 0) :
    scan (rootEntry disk false name) left i w = .passed w := by
  induction left generalizing i with
  | zero => rfl
  | succ left ih =>
    obtain ⟨flag, ordinary⟩ := deleted i (by omega)
    have here : rootEntry disk false name w i = .passed w := by
      rw [rootEntry, if_neg (not_not.mpr ordinary), flag, if_neg (by decide), if_neg (by decide),
        compareEntry, getName_deleted (show w.block (direntSize * i) = deletedFlag from flag)]
      exact if_pos ⟨some, some⟩
    rw [scan, here]
    exact ih fun k below => deleted k (by omega)

lemma card_deleted (s : UInt32) (i : Nat) (inside : i < 16) :
    slotId (view (cardWith deletedRoot) s) i = deletedFlag ∧
      attrOf (view (cardWith deletedRoot) s) i &&& attrVolume = 0 := by
  have boot : ∀ i < 16, bootByte (32 * i) = 0xe5 ∧ bootByte (32 * i + 11) = 0xe5 := by decide
  obtain ⟨first, attr⟩ := boot i inside
  have here (k : Nat) (low : k < 512) (byte : bootByte k = 0xe5) :
      view (cardWith deletedRoot) s k = 0xe5 := by
    rw [view, cardWith, Nat.mod_eq_of_lt low, byte, deletedRoot]
    split_ifs <;> rfl
  refine ⟨here (32 * i) (by omega) first, ?_⟩
  rw [attrOf, show direntSize * i + 11 = 32 * i + 11 from rfl, here _ (by omega) attr]
  decide

lemma not_rootFinds {listing : Bool} (on : ∀ s, found (rootSeen v listing name s) = none)
    {s : UInt32} : ¬ RootFinds v listing name s result := by
  intro finds
  induction finds with
  | @here s result ends =>
    rw [on s] at ends
    cases ends
  | next _ _ ih => exact ih

def deletedVolume : Volume :=
  mounted (cardWith deletedRoot) 0 (fun _ => 0) cardSector .fat16 noBuffers

lemma deleted_seen (s : UInt32) : found (rootSeen deletedVolume false [97] s) = none := by
  have passed : rootSeen deletedVolume false [97] s =
      .passed (opened deletedVolume (view (cardWith deletedRoot) (s + 0))) :=
    scan_deleted (by decide) fun k below => card_deleted (s + 0) k (zero_add 16 ▸ below)
  rw [passed]
  rfl

/-- Where every sector is full of deleted entries, no search of the root directory for a name comes
to an end. -/
theorem deleted_root_endless :
    readBootsectandvi (delivering (cardWith deletedRoot) 0 fun _ => 0) =
        some (cardSector, .fat16) ∧
      ¬ Terminates (delivering (cardWith deletedRoot) 0 fun _ => 0) noBuffers [97] (fun _ => 0) 0 0
        0 := by
  refine ⟨card_accepted deletedRoot, fun terminates => ?_⟩
  have halts := (doFatRead_terminates_iff (card_accepted deletedRoot)).mp terminates
  obtain ⟨-, result, finds, -⟩ := halts.ends.resolve_left fun empty => absurd empty.1 (by decide)
  rw [RootResult, if_neg (by decide)] at finds
  exact not_rootFinds deleted_seen finds

end FatEnds
