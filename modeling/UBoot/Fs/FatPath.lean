import UBoot.Fs.FatEnds
import UBoot.Fs.FatLookup

/-!
# The file that a path names (fs/fat/fat.c)

`do_fat_read` reads the file that a path names, or returns -1 if there is none, where everything
that the path leads over is seen as it is.
-/

namespace FatPath

open ByteMemory Fat FatTable FatLayout FatNames FatContents FatRead FatAlike FatSearch FatEnds
  FatDirectory FatLookup

variable {path : List UInt8}

lemma isDirDelim_lower (c : UInt8) : isDirDelim (toLower c) = isDirDelim c := by
  rw [isDirDelim, isDirDelim, toLower]
  by_cases upper : 65 ≤ c ∧ c ≤ 90
  · have low := UInt8.le_iff_toNat_le.mp upper.1
    have high := UInt8.le_iff_toNat_le.mp upper.2
    have lower : (c + 32).toNat = c.toNat + 32 := by
      rw [UInt8.toNat_add]
      change (c.toNat + 32) % 256 = _
      change c.toNat ≤ 90 at high
      omega
    change 65 ≤ c.toNat at low
    change c.toNat ≤ 90 at high
    rw [if_pos upper, decide_eq_decide, ← UInt8.toNat_inj, ← UInt8.toNat_inj (a := c + 32),
      ← UInt8.toNat_inj (a := c), ← UInt8.toNat_inj (a := c) (b := 92), lower]
    change (c.toNat + 32 = 47 ∨ c.toNat + 32 = 92) ↔ (c.toNat = 47 ∨ c.toNat = 92)
    omega
  · rw [if_neg upper]

lemma dirdelim_downcase (str : List UInt8) : dirdelim (downcase str) = dirdelim str := by
  rw [dirdelim, dirdelim, downcase, List.findIdx?_map]
  congr 1
  funext c
  exact isDirDelim_lower c

lemma skipDelims_downcase (str : List UInt8) :
    skipDelims (downcase str) = downcase (skipDelims str) := by
  rw [skipDelims, skipDelims, downcase, downcase, List.dropWhile_map]
  congr 2
  funext c
  exact isDirDelim_lower c

lemma components_skip (path : List UInt8) : components (skipDelims path) = components path := by
  induction path with
  | nil => rfl
  | cons c path ih =>
    by_cases delim : isDirDelim c = true
    · have skipped : skipDelims (c :: path) = skipDelims path := List.dropWhile_cons_of_pos delim
      rw [skipped, ih, components, components, List.splitOnP_cons_eq_if_modifyHead, if_pos delim]
      exact (List.filter_cons_of_neg (by decide)).symm
    · have kept : skipDelims (c :: path) = c :: path := List.dropWhile_cons_of_neg delim
      rw [kept]

structure Tidy (path : List UInt8) : Prop where
  some : path ≠ []
  first : ∀ c ∈ path.head?, isDirDelim c = false

def Closed (path : List UInt8) : Prop := ∃ c ∈ path.getLast?, isDirDelim c = true

lemma tidy_skip (some : skipDelims path ≠ []) : Tidy (skipDelims path) := by
  refine ⟨some, fun c first => ?_⟩
  have kept := List.head?_dropWhile_not isDirDelim path
  rw [show (path.dropWhile isDirDelim).head? = Option.some c from first] at kept
  exact kept

lemma closed_append {front : List UInt8} (some : path ≠ []) :
    Closed (front ++ path) ↔ Closed path := by
  rw [Closed, Closed, List.getLast?_append, List.getLast?_eq_some_getLast some]
  rfl

lemma closed_skip (some : skipDelims path ≠ []) :
    Closed (skipDelims path) ↔ Closed path := by
  have joined : path.takeWhile isDirDelim ++ skipDelims path = path :=
    List.takeWhile_append_dropWhile
  have same : Closed (path.takeWhile isDirDelim ++ skipDelims path) ↔ Closed (skipDelims path) :=
    closed_append some
  rw [← same, joined]

lemma closed_of_skip (some : path ≠ []) (none : skipDelims path = []) :
    Closed path :=
  ⟨path.getLast some, List.getLast?_eq_some_getLast some,
    List.dropWhile_eq_nil_iff.mp none _ (List.getLast_mem some)⟩

lemma components_single (tidy : Tidy path) (single : dirdelim path = none) :
    components path = [path] := by
  have none : ∀ c ∈ path, isDirDelim c = false := List.findIdx?_eq_none_iff.mp single
  rw [components, List.splitOnP_eq_singleton none]
  refine List.filter_cons_of_pos ?_
  rw [Bool.not_eq_true', List.isEmpty_eq_false_iff]
  exact tidy.some

lemma components_split (tidy : Tidy path) {idx : Nat} (more : dirdelim path = some idx) :
    path.take idx ≠ [] ∧
      components path = path.take idx :: components (skipDelims (path.drop (idx + 1))) ∧
        (skipDelims (path.drop (idx + 1)) = [] ∧ Closed path ∨
          Tidy (skipDelims (path.drop (idx + 1))) ∧
            (Closed (skipDelims (path.drop (idx + 1))) ↔ Closed path)) := by
  obtain ⟨inside, delim, before⟩ := List.findIdx?_eq_some_iff_getElem.mp more
  have split : path = path.take idx ++ path[idx] :: path.drop (idx + 1) := by
    rw [List.getElem_cons_drop, List.take_append_drop]
  have positive : 0 < idx := by
    refine Nat.pos_of_ne_zero fun zero => ?_
    subst zero
    have first := tidy.first path[0] (List.head?_eq_getElem? ▸ List.getElem?_eq_getElem inside)
    rw [delim] at first
    cases first
  have name : path.take idx ≠ [] := by
    rw [← List.length_pos_iff, List.length_take]
    omega
  have none : ∀ c ∈ path.take idx, isDirDelim c = false := by
    intro c member
    obtain ⟨j, low, rfl⟩ := List.getElem_of_mem member
    rw [List.length_take] at low
    rw [List.getElem_take]
    exact Bool.eq_false_iff.mpr (before j (by omega))
  have skipped : skipDelims (path[idx] :: path.drop (idx + 1)) =
      skipDelims (path.drop (idx + 1)) := List.dropWhile_cons_of_pos delim
  have closed : Closed path ↔ Closed (path[idx] :: path.drop (idx + 1)) := by
    conv_lhs => rw [split]
    exact closed_append (List.cons_ne_nil _ _)
  refine ⟨name, ?_, ?_⟩
  · rw [components_skip]
    conv_lhs => rw [components, split, List.splitOnP_append_cons_of_forall_mem none _ delim]
    refine List.filter_cons_of_pos ?_
    rw [Bool.not_eq_true', List.isEmpty_eq_false_iff]
    exact name
  · by_cases ended : skipDelims (path.drop (idx + 1)) = []
    · refine .inl ⟨ended, closed.mpr (closed_of_skip (List.cons_ne_nil _ _) ?_)⟩
      rw [skipped, ended]
    · refine .inr ⟨tidy_skip ended, ?_⟩
      rw [closed, ← skipped]
      exact closed_skip (skipped ▸ ended)

lemma components_ne_nil (tidy : Tidy path) : components path ≠ [] := by
  cases delim : dirdelim path with
  | none =>
    rw [components_single tidy delim]
    exact List.cons_ne_nil _ _
  | some idx =>
    rw [(components_split tidy delim).2.1]
    exact List.cons_ne_nil _ _

/-- What follows the first component in a path, behind delimiter `idx`: nothing but delimiters, or
the other components. -/
inductive Remains (path : List UInt8) (rest : List (List UInt8)) (next : List UInt8) : Prop
  | ended (last : rest = []) (closed : Closed path)
  | more (tidy : Tidy next) (same : components next = rest) (closed : Closed next ↔ Closed path)

lemma components_cases {component : List UInt8} {rest : List (List UInt8)} (tidy : Tidy path)
    (same : components path = component :: rest) : component ≠ [] ∧
      ((dirdelim path = none ∧ component = path ∧ rest = []) ∨
        ∃ idx, dirdelim path = some idx ∧ component = path.take idx ∧
          Remains path rest (skipDelims (path.drop (idx + 1)))) := by
  cases delim : dirdelim path with
  | none =>
    rw [components_single tidy delim, List.cons.injEq] at same
    exact ⟨same.1 ▸ tidy.some, .inl ⟨rfl, same.1.symm, same.2.symm⟩⟩
  | some idx =>
    obtain ⟨name, parts, follows⟩ := components_split tidy delim
    rw [parts, List.cons.injEq] at same
    refine ⟨same.1 ▸ name, .inr ⟨idx, rfl, same.1.symm, ?_⟩⟩
    rcases follows with ⟨none, closed⟩ | ⟨tidy', closed⟩
    · rw [none] at same
      exact .ended same.2.symm closed
    · exact .more tidy' same.2 closed

variable {v : Volume}

variable {dent : DirEntry} {result : Option DirEntry}

def Finds (v : Volume) (site : Option UInt32) (name : List UInt8) (result : Option DirEntry) :
    Prop :=
  match site with
  | none => RootFinds v false name v.start.rootdirSect.toUInt32 result
  | some c => DirFinds v false name c result

/-- What a path leads to from a directory on, if what it names is to be read. -/
inductive PathFinds (v : Volume) : Option UInt32 → List UInt8 → Option DirEntry → Prop
  | last {site : Option UInt32} {subname : List UInt8} {result : Option DirEntry}
      (single : dirdelim subname = none) (finds : Finds v site subname result) :
      PathFinds v site subname result
  | lost {site : Option UInt32} {subname : List UInt8} {idx : Nat}
      (more : dirdelim subname = some idx) (finds : Finds v site (subname.take idx) none) :
      PathFinds v site subname none
  | through {site : Option UInt32} {subname : List UInt8} {idx : Nat} {dent : DirEntry}
      (more : dirdelim subname = some idx) (finds : Finds v site (subname.take idx) (some dent))
      (regular : dent.attr &&& attrDir = 0) : PathFinds v site subname none
  | into {site : Option UInt32} {subname : List UInt8} {idx : Nat} {dent : DirEntry}
      {result : Option DirEntry} (more : dirdelim subname = some idx)
      (finds : Finds v site (subname.take idx) (some dent)) (dir : dent.attr &&& attrDir ≠ 0)
      (rest : PathFinds v (some (dent.startClust v.start.fatsize))
        (skipDelims (subname.drop (idx + 1))) result) : PathFinds v site subname result

def finish (v : Volume) (req : Request) (fuel : Nat) (mydata : Fsdata) :
    Option DirEntry → Option Outcome
  | none => some (.returned (-1) req.m)
  | some dent => readContents v.disk req fuel dent mydata

def Finishes (v : Volume) (req : Request) (fuel : Nat) (result : Option DirEntry)
    (outcome : Option Outcome) : Prop :=
  ∃ mydata, Steady v mydata ∧ outcome = finish v req fuel mydata result

lemma afterSearch_none {seen : Seen} (ended : found seen = some none) (null : Option Outcome)
    (go : DirEntry → Walk → Option Outcome) : afterSearch (some seen) null go = null := by
  obtain ⟨w, rfl | rfl⟩ := found_none ended
  · rfl
  · rfl

lemma afterSearch_some {seen : Seen} (ended : found seen = some (some dent))
    (settled : SettledSeen v seen) : ∃ w, Settled v w ∧ ∀ null go,
      afterSearch (some seen) null go = go dent w := by
  obtain ⟨w, rfl⟩ := found_some ended
  exact ⟨w, settled, fun _ _ => rfl⟩

lemma walkPath_finishes (fits : v.start.clustSize.toNat * sectorSize ≤ maxClustsize)
    (start : Steady v v.start) {site : Option UInt32} {subname : List UInt8}
    (path : PathFinds v site subname result) {c : UInt32} (here : site = some c) :
    ∃ enough, ∀ fuel turns, enough ≤ fuel → enough ≤ turns → ∀ w, Settled v w → ∀ dent : DirEntry,
      dent.startClust v.start.fatsize = c → ∀ m buffer maxsize firsttime,
        Finishes v ⟨m, buffer, maxsize, false⟩ fuel result
          (walkPath v.disk ⟨m, buffer, maxsize, false⟩ fuel turns firsttime subname dent w) := by
  have width {w : Walk} (settled : Settled v w) : w.mydata.fatsize = v.start.fatsize :=
    congrArg Geometry.fatsize settled.steady.geometry
  induction path generalizing c with
  | @last site subname result single finds =>
    subst here
    obtain ⟨enough, searched⟩ := returns_of_finds fits start finds
    refine ⟨enough + 1, fun fuel turns more more' w settled dent first m buffer maxsize once => ?_⟩
    obtain ⟨turns, rfl⟩ := Nat.exists_eq_add_of_le' (Nat.le_of_add_left_le more')
    obtain ⟨seen, returns, ended, settledSeen⟩ := searched fuel (by omega) w settled
    rw [walkPath_read single (Bool.false_and once), width settled, first, returns]
    cases result with
    | none => exact ⟨v.start, start, afterSearch_none ended _ _⟩
    | some found =>
      obtain ⟨w', settled', on⟩ := afterSearch_some ended settledSeen
      exact ⟨w'.mydata, settled'.steady, on _ _⟩
  | @lost site subname idx more finds =>
    subst here
    obtain ⟨enough, searched⟩ := returns_of_finds fits start finds
    refine ⟨enough + 1, fun fuel turns most most' w settled dent first m buffer maxsize once => ?_⟩
    obtain ⟨turns, rfl⟩ := Nat.exists_eq_add_of_le' (Nat.le_of_add_left_le most')
    obtain ⟨seen, returns, ended, -⟩ := searched fuel (by omega) w settled
    rw [walkPath_onwards more, width settled, first, returns]
    exact ⟨v.start, start, afterSearch_none ended _ _⟩
  | @through site subname idx found more finds regular =>
    subst here
    obtain ⟨enough, searched⟩ := returns_of_finds fits start finds
    refine ⟨enough + 1, fun fuel turns most most' w settled dent first m buffer maxsize once => ?_⟩
    obtain ⟨turns, rfl⟩ := Nat.exists_eq_add_of_le' (Nat.le_of_add_left_le most')
    obtain ⟨seen, returns, ended, settledSeen⟩ := searched fuel (by omega) w settled
    obtain ⟨w', -, on⟩ := afterSearch_some ended settledSeen
    rw [walkPath_onwards more, width settled, first, returns, on, if_pos regular]
    exact ⟨v.start, start, rfl⟩
  | @into site subname idx found result more finds dir rest ih =>
    subst here
    obtain ⟨enough, searched⟩ := returns_of_finds fits start finds
    obtain ⟨later, walked⟩ := ih rfl
    refine ⟨enough + later + 1,
      fun fuel turns most most' w settled dent first m buffer maxsize once => ?_⟩
    obtain ⟨turns, rfl⟩ := Nat.exists_eq_add_of_le' (Nat.le_of_add_left_le most')
    obtain ⟨seen, returns, ended, settledSeen⟩ := searched fuel (by omega) w settled
    obtain ⟨w', settled', on⟩ := afterSearch_some ended settledSeen
    rw [walkPath_onwards more, width settled, first, returns, on, if_neg dir]
    exact walked fuel turns (by omega) (by omega) w' settled' found rfl m buffer maxsize _

section
variable {buffers : Buffers} {name : List UInt8} {fuel : Nat} {seen : Seen}

/-- The search of the root directory in `do_fat_read`, to read a file. -/
def searchRoot (v : Volume) (buffers : Buffers) (name : List UInt8) (fuel : Nat) : Option Seen :=
  rootSearch v.disk false name fuel v.start.rootdirSect.toUInt32
    ⟨v.start, buffers.rootBlock, buffers.nameBlock⟩

lemma readMounted_none (returns : searchRoot v buffers name fuel = some seen)
    (ended : found seen = some none) (rest : Option (List UInt8)) (m : Mem) (buffer : Nat)
    (maxsize : UInt32) :
    readMounted v.disk buffers v.start (name, rest) m buffer maxsize 0 fuel =
      some (.returned (-1) m) := by
  have searched : rootSearch v.disk ((0 : Int) = lsRoot) name fuel
      v.start.rootdirSect.toUInt32 ⟨v.start, buffers.rootBlock, buffers.nameBlock⟩ = some seen :=
    returns
  rw [readMounted, searched]
  obtain ⟨w, rfl | rfl⟩ := found_none ended
  · rfl
  · rfl

lemma readMounted_some (returns : searchRoot v buffers name fuel = some seen)
    (ended : found seen = some (some dent)) (settled : SettledSeen v seen) :
    ∃ w, Settled v w ∧ ∀ rest m buffer maxsize,
      readMounted v.disk buffers v.start (name, rest) m buffer maxsize 0 fuel =
        readFound v.disk ⟨m, buffer, maxsize, false⟩ buffers fuel rest dent w := by
  obtain ⟨w, rfl⟩ := found_some ended
  refine ⟨w, settled, fun rest m buffer maxsize => ?_⟩
  have searched : rootSearch v.disk ((0 : Int) = lsRoot) name fuel
      v.start.rootdirSect.toUInt32 ⟨v.start, buffers.rootBlock, buffers.nameBlock⟩ =
        some (.matched dent w) := returns
  rw [readMounted, searched]
  rfl

end

variable {fnamecopy : List UInt8}

lemma searchRoot_of_finds (fits : v.start.clustSize.toNat * sectorSize ≤ maxClustsize)
    (block : direntsPerBlock ≤ v.slots) (start : Steady v v.start) {name : List UInt8}
    (finds : Finds v none name result) :
    ∃ enough, ∀ fuel, enough ≤ fuel → ∀ buffers : Buffers, v.nameBlock = buffers.nameBlock →
      ∃ seen, searchRoot v buffers name fuel = some seen ∧ found seen = some result ∧
        SettledSeen v seen := by
  obtain ⟨enough, searched⟩ := rootSearch_of_finds block fits start finds
  refine ⟨enough, fun fuel more buffers names => ?_⟩
  have settled : Settled v ⟨v.start, buffers.rootBlock, buffers.nameBlock⟩ :=
    ⟨start, fun k _ => congrFun names.symm k⟩
  exact searched fuel more _ settled

lemma splitPath_single (some : fnamecopy ≠ []) (single : dirdelim fnamecopy = none) :
    splitPath fnamecopy 0 = (fnamecopy, none) := by
  rw [splitPath, if_neg some, single]
  rfl

lemma splitPath_more (nonempty : fnamecopy ≠ []) {idx : Nat} (more : dirdelim fnamecopy = some idx)
    : splitPath fnamecopy 0 =
      (fnamecopy.take idx, some (skipDelims (fnamecopy.drop (idx + 1)))) := by
  rw [splitPath, if_neg nonempty, more]

lemma readMounted_finishes (fits : v.start.clustSize.toNat * sectorSize ≤ maxClustsize)
    (block : direntsPerBlock ≤ v.slots) (start : Steady v v.start) (nonempty : fnamecopy ≠ [])
    (path : PathFinds v none fnamecopy result) :
    ∃ enough, ∀ fuel, enough ≤ fuel → ∀ buffers : Buffers, v.nameBlock = buffers.nameBlock →
      ∀ m buffer maxsize, Finishes v ⟨m, buffer, maxsize, false⟩ fuel result
        (readMounted v.disk buffers v.start (splitPath fnamecopy 0) m buffer maxsize 0 fuel) := by
  cases path with
  | last single finds =>
    obtain ⟨enough, searched⟩ := searchRoot_of_finds fits block start finds
    rw [splitPath_single nonempty single]
    refine ⟨enough, fun fuel more buffers names m buffer maxsize => ?_⟩
    obtain ⟨seen, returns, ended, settled⟩ := searched fuel more buffers names
    cases result with
    | none => exact ⟨v.start, start, readMounted_none returns ended _ m buffer maxsize⟩
    | some dent =>
      obtain ⟨w, settled', on⟩ := readMounted_some returns ended settled
      exact ⟨w.mydata, settled'.steady, on none m buffer maxsize⟩
  | @lost _ _ idx more finds =>
    obtain ⟨enough, searched⟩ := searchRoot_of_finds fits block start finds
    rw [splitPath_more nonempty more]
    refine ⟨enough, fun fuel most buffers names m buffer maxsize => ?_⟩
    obtain ⟨seen, returns, ended, -⟩ := searched fuel most buffers names
    exact ⟨v.start, start, readMounted_none returns ended _ m buffer maxsize⟩
  | @through _ _ idx dent more finds regular =>
    obtain ⟨enough, searched⟩ := searchRoot_of_finds fits block start finds
    rw [splitPath_more nonempty more]
    refine ⟨enough, fun fuel most buffers names m buffer maxsize => ?_⟩
    obtain ⟨seen, returns, ended, settled⟩ := searched fuel most buffers names
    obtain ⟨w, -, on⟩ := readMounted_some returns ended settled
    rw [on, readFound]
    exact ⟨v.start, start, if_pos regular⟩
  | @into _ _ idx dent _ more finds dir rest =>
    obtain ⟨enough, searched⟩ := searchRoot_of_finds fits block start finds
    obtain ⟨later, walked⟩ := walkPath_finishes fits start rest rfl
    rw [splitPath_more nonempty more]
    refine ⟨enough + later, fun fuel most buffers names m buffer maxsize => ?_⟩
    obtain ⟨seen, returns, ended, settled⟩ := searched fuel (by omega) buffers names
    obtain ⟨w, settled', on⟩ := readMounted_some returns ended settled
    rw [on, readFound]
    rw [if_neg dir]
    exact walked fuel fuel (by omega) (by omega) ⟨w.mydata, buffers.dirBlock, w.nameBlock⟩
      ⟨settled'.steady, settled'.names⟩ dent rfl m buffer maxsize true

lemma readLoop_mono {disk : Disk} {fuel more : Nat} {r : Reading} {contents : Contents}
    (enough : fuel ≤ more) (read : readLoop disk fuel r = some contents) :
    readLoop disk more r = some contents := by
  induction fuel generalizing more r with
  | zero => cases read
  | succ fuel ih =>
    obtain ⟨more, rfl⟩ := Nat.exists_eq_add_of_le' (le_trans (Nat.le_add_left 1 fuel) enough)
    rw [readLoop] at read ⊢
    cases turn : readTurn disk r with
    | inl r' =>
      rw [turn] at read
      exact ih (Nat.le_of_succ_le_succ enough) read
    | inr contents' =>
      rw [turn] at read
      exact read

lemma readContents_of_reads (start : Steady v v.start) (length : v.start.fatlength ≠ 0)
    {chain : List UInt32} {maxsize : UInt32}
    (reads : ReadsFile v.medium v.partOffset v.start.toGeometry dent chain maxsize) :
    ∃ enough, ∀ fuel, enough ≤ fuel → ∀ mydata, Steady v mydata → ∀ m buffer,
      readContents v.disk ⟨m, buffer, maxsize, false⟩ fuel dent mydata =
        some (.returned (count dent maxsize)
          (blit m buffer ((chainBytes v.medium v.partOffset v.start.toGeometry chain).take
            (count dent maxsize)))) := by
  have ends : FileEnds v dent maxsize := by
    obtain ⟨fuel, contents, read, -⟩ :=
      reads v.start rfl (start.sound length) v.stack (fun _ => 0) 0
    exact fileEnds_of_returns start fun none => by
      rw [Volume.disk, read] at none
      cases none
  obtain ⟨enough, returns⟩ := returns_of_fileEnds ends
  refine ⟨enough, fun fuel more mydata steady m buffer => ?_⟩
  obtain ⟨contents, got⟩ := returns fuel more mydata steady m buffer
  obtain ⟨fuel', contents', read, ret, mem⟩ :=
    reads mydata steady.geometry (steady.sound length) v.stack m buffer
  have same : contents = contents' := by
    have first := readLoop_mono (Nat.le_max_left fuel fuel') got
    have second := readLoop_mono (Nat.le_max_right fuel fuel') read
    exact Option.some_inj.mp (first.symm.trans second)
  rw [readContents]
  rw [got, same]
  dsimp only
  rw [ret, mem]

end FatPath
