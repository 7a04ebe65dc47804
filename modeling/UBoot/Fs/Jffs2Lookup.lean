import Mathlib.Data.List.Basic
import Mathlib.Data.List.MinMax
import Mathlib.Data.List.TakeWhile

/-!
# JFFS2 directory entries (fs/jffs2/jffs2_1pass.c)

The list of the dirent nodes as the scan builds it, plain or sorted, and the search for a path
in it. Names and paths are lists of characters without the NUL.
-/

namespace Jffs2

/-- The part of `struct jffs2_raw_dirent` that the search reads, and where the node is. `nsize` is
the length of the name. -/
structure Dirent where
  offset : UInt32
  pino : UInt32
  version : UInt32
  ino : UInt32                   -- 0 for unlink
  name : List UInt8
deriving DecidableEq

/-- `struct b_list`; `listTail` is the last node. -/
structure BList where
  nodes : List Dirent
  listLast : Option Dirent

def cutAfter (prev : Dirent) (nodes : List Dirent) : List Dirent × List Dirent :=
  (nodes.takeWhile (· ≠ prev) ++ (nodes.dropWhile (· ≠ prev)).take 1,
    (nodes.dropWhile (· ≠ prev)).drop 1)

def startAfter (listCompare : Dirent → Dirent → Bool) (list : BList) (new : Dirent) :
    Option Dirent :=
  match list.nodes.getLast?.filter (listCompare new) with
  | some listTail => some listTail
  | none => list.listLast.filter (listCompare new)

/-- What is passed over, and the nodes from `b` on. -/
def startCut (listCompare : Dirent → Dirent → Bool) (list : BList) (new : Dirent) :
    List Dirent × List Dirent :=
  match startAfter listCompare list new with
  | some prev => cutAfter prev list.nodes
  | none => ([], list.nodes)

/-- `insert_node` with CONFIG_SYS_JFFS2_SORT_FRAGMENTS. -/
def insertSorted (listCompare : Dirent → Dirent → Bool) (list : BList) (new : Dirent) : BList :=
  let cut := startCut listCompare list new
  let before := cut.1 ++ cut.2.takeWhile (listCompare new)
  match cut.2.dropWhile (listCompare new) with
  | [] => { list with nodes := list.nodes ++ [new] }
  | b :: rest => { nodes := before ++ new :: b :: rest, listLast := before.getLast? }

/-- `insert_node`. `compare_dirents` compares names that its copies of the nodes do not hold, and
marks only a copy dead, so any comparison is allowed for. -/
def insertNode (listCompare : Option (Dirent → Dirent → Bool)) (list : BList) (new : Dirent) :
    BList :=
  match listCompare with
  | some compare => insertSorted compare list new
  | none => { list with nodes := list.nodes ++ [new] }

def buildList (listCompare : Option (Dirent → Dirent → Bool)) (scanned : List Dirent) : BList :=
  scanned.foldl (insertNode listCompare) ⟨[], none⟩

/-- `strncmp`: the last difference, with a NUL behind a text. -/
def strncmp (cs ct : List UInt8) : (count : Nat) → UInt8
  | 0 => 0
  | count + 1 =>
    let res := cs.headD 0 - ct.headD 0
    if res ≠ 0 ∨ cs.headD 0 = 0 then res else strncmp cs.tail ct.tail count

/-- `version` and `inode` of `jffs2_1pass_find_inode`. -/
structure Found where
  version : UInt32
  inode : UInt32
deriving DecidableEq

def findStep (name : List UInt8) (pino : UInt32) (found : Found) (jDir : Dirent) : Found :=
  if pino = jDir.pino ∧ name.length = jDir.name.length ∧ jDir.ino ≠ 0 ∧
      strncmp jDir.name name name.length = 0 then
    if jDir.version < found.version then found else ⟨jDir.version, jDir.ino⟩
  else found

def findInode (nodes : List Dirent) (name : List UInt8) (pino : UInt32) : UInt32 :=
  (nodes.foldl (findStep name pino) ⟨0, 0⟩).inode

def slash : UInt8 := 47

/-- `jffs2_1pass_search_inode` without leading slashes: the text up to the first slash is looked
up, what is behind it is moved to the front. -/
def searchFrom (nodes : List Dirent) (tmp : List UInt8) (pino : UInt32) : UInt32 :=
  match _ : tmp.dropWhile (· ≠ slash) with
  | [] => findInode nodes tmp pino
  | _ :: rest =>
    let pino := findInode nodes (tmp.takeWhile (· ≠ slash)) pino
    if pino = 0 then 0 else searchFrom nodes rest pino
termination_by tmp.length
decreasing_by
  rename_i behind _
  have := List.IsSuffix.length_le (List.dropWhile_suffix (l := tmp) (· ≠ slash))
  rw [behind, List.length_cons] at this
  omega

/-- `jffs2_1pass_search_inode`; `none` where `tmp` is too small. -/
def searchInode (nodes : List Dirent) (fname : List UInt8) (pino : UInt32) : Option UInt32 :=
  let tmp := fname.dropWhile (· = slash)
  if 256 ≤ tmp.length then none else some (searchFrom nodes tmp pino)

/-!
## Which inode a path names

In JFFS2 a name in a directory is what its dirent with the highest version says; inode 0 says
that the name was removed. The search passes over these nodes, and finds an older one.
-/

def entries (nodes : List Dirent) (pino : UInt32) (name : List UInt8) : List Dirent :=
  nodes.filter fun d => d.pino = pino ∧ d.name = name

def newest (nodes : List Dirent) : Option Dirent := nodes.argmax fun d => d.version.toNat

def latest (nodes : List Dirent) (pino : UInt32) (name : List UInt8) : Option Dirent :=
  newest (entries nodes pino name)

def live (nodes : List Dirent) (pino : UInt32) (name : List UInt8) : List Dirent :=
  nodes.filter fun d => (d.pino = pino ∧ d.name = name) ∧ d.ino ≠ 0

def latestLive (nodes : List Dirent) (pino : UInt32) (name : List UInt8) : Option Dirent :=
  newest (live nodes pino name)

def assigned (nodes : List Dirent) (pino : UInt32) (name : List UInt8) : UInt32 :=
  ((latest nodes pino name).map Dirent.ino).getD 0

def assignedLive (nodes : List Dirent) (pino : UInt32) (name : List UInt8) : UInt32 :=
  ((latestLive nodes pino name).map Dirent.ino).getD 0

def walk (look : UInt32 → List UInt8 → UInt32) : List (List UInt8) → UInt32 → UInt32
  | [], pino => pino
  | name :: rest, pino => if look pino name = 0 then 0 else walk look rest (look pino name)

def components (fname : List UInt8) : List (List UInt8) :=
  (fname.dropWhile (· = slash)).splitOn slash

def Valid (nodes : List Dirent) : Prop :=
  ∀ d ∈ nodes, ∀ e ∈ nodes, d.pino = e.pino → d.name = e.name → d.version = e.version → d = e

instance (nodes : List Dirent) : Decidable (Valid nodes) := by
  unfold Valid
  infer_instance

inductive LeadsOn (nodes : List Dirent) : List (List UInt8) → UInt32 → Prop
  | stop (pino : UInt32) : LeadsOn nodes [] pino
  | go {pino : UInt32} {name : List UInt8} {rest : List (List UInt8)} {d : Dirent}
      (live : d ∈ latestLive nodes pino name) (on : LeadsOn nodes rest d.ino) :
      LeadsOn nodes (name :: rest) pino

/-- On the way the latest node of a name is a removal, and the components lead on through older
nodes that are none. -/
inductive Revived (nodes : List Dirent) : List (List UInt8) → UInt32 → Prop
  | found {pino : UInt32} {name : List UInt8} {rest : List (List UInt8)} {removal : Dirent}
      (removed : removal ∈ latest nodes pino name) (zero : removal.ino = 0)
      (on : LeadsOn nodes (name :: rest) pino) : Revived nodes (name :: rest) pino
  | deeper {pino : UInt32} {name : List UInt8} {rest : List (List UInt8)} {d : Dirent}
      (live : d ∈ latest nodes pino name) (nonzero : d.ino ≠ 0)
      (later : Revived nodes rest d.ino) : Revived nodes (name :: rest) pino

lemma cutAfter_append (prev : Dirent) (nodes : List Dirent) :
    (cutAfter prev nodes).1 ++ (cutAfter prev nodes).2 = nodes := by
  rw [cutAfter, List.append_assoc, List.take_append_drop, List.takeWhile_append_dropWhile]

lemma startCut_append (listCompare : Dirent → Dirent → Bool) (list : BList) (new : Dirent) :
    (startCut listCompare list new).1 ++ (startCut listCompare list new).2 = list.nodes := by
  unfold startCut
  split
  · exact cutAfter_append _ _
  · rfl

lemma insertSorted_perm (listCompare : Dirent → Dirent → Bool) (list : BList) (new : Dirent) :
    (insertSorted listCompare list new).nodes.Perm (list.nodes ++ [new]) := by
  have whole := startCut_append listCompare list new
  have parts := List.takeWhile_append_dropWhile (p := listCompare new)
    (l := (startCut listCompare list new).2)
  rw [insertSorted]
  rcases behind : (startCut listCompare list new).2.dropWhile (listCompare new) with _ | ⟨b, rest⟩
  · exact List.Perm.refl _
  rw [behind] at parts
  have all : list.nodes = (startCut listCompare list new).1 ++
      (startCut listCompare list new).2.takeWhile (listCompare new) ++ b :: rest := by
    rw [List.append_assoc, parts, whole]
  rw [all]
  exact List.Perm.trans List.perm_middle (List.perm_append_singleton _ _).symm

lemma insertNode_perm (listCompare : Option (Dirent → Dirent → Bool)) (list : BList)
    (new : Dirent) : (insertNode listCompare list new).nodes.Perm (list.nodes ++ [new]) := by
  cases listCompare with
  | none => exact List.Perm.refl _
  | some compare => exact insertSorted_perm compare list new

lemma buildList_perm (listCompare : Option (Dirent → Dirent → Bool)) (scanned : List Dirent) :
    (buildList listCompare scanned).nodes.Perm scanned := by
  suffices run : ∀ list : BList,
      (scanned.foldl (insertNode listCompare) list).nodes.Perm (list.nodes ++ scanned) from
    run ⟨[], none⟩
  induction scanned with
  | nil =>
    intro list
    rw [List.append_nil]
    exact List.Perm.refl _
  | cons new rest ih =>
    intro list
    rw [List.foldl_cons, List.append_cons]
    exact (ih _).trans ((insertNode_perm listCompare list new).append_right rest)

variable {nodes : List Dirent} {d : Dirent} {pino : UInt32} {name : List UInt8}

lemma strncmp_eq_zero {cs ct : List UInt8} (same : cs.length = ct.length) (clean : 0 ∉ ct) :
    strncmp cs ct ct.length = 0 ↔ cs = ct := by
  induction cs generalizing ct with
  | nil =>
    obtain rfl := List.length_eq_zero_iff.mp same.symm
    exact iff_of_true rfl rfl
  | cons a cs ih =>
    obtain ⟨b, ct, rfl⟩ := List.exists_cons_of_length_eq_add_one same.symm
    rw [List.mem_cons, not_or] at clean
    have rest := ih (Nat.succ.inj same) clean.2
    simp only [List.length_cons, strncmp, List.headD_cons, List.tail_cons]
    by_cases equal : a = b
    · subst equal
      have nonzero : a ≠ 0 := fun h => clean.1 h.symm
      simp [nonzero, rest]
    · have differ : a - b ≠ 0 := fun h => equal (by grind)
      simp [differ, equal]

lemma newest_mem (top : d ∈ newest nodes) : d ∈ nodes :=
  List.argmax_mem top

lemma newest_le {e : Dirent} (top : d ∈ newest nodes) (he : e ∈ nodes) :
    e.version.toNat ≤ d.version.toNat :=
  List.le_of_mem_argmax (f := fun d : Dirent => d.version.toNat) he top

lemma newest_perm {nodes' : List Dirent} (perm : nodes.Perm nodes')
    (apart : ∀ d ∈ nodes, ∀ e ∈ nodes, d.version = e.version → d = e) :
    newest nodes = newest nodes' := by
  rcases first : newest nodes with _ | d
  · obtain rfl := List.argmax_eq_none.mp first
    obtain rfl := List.Perm.nil_eq perm
    rfl
  rcases second : newest nodes' with _ | e
  · obtain rfl := List.argmax_eq_none.mp second
    obtain rfl := List.Perm.eq_nil perm
    cases first
  have d_mem := newest_mem first
  have e_mem := perm.mem_iff.mpr (newest_mem second)
  have le := newest_le first e_mem
  have ge := newest_le second (perm.mem_iff.mp d_mem)
  rw [apart d d_mem e e_mem (UInt32.toNat_inj.mp (le_antisymm ge le))]

lemma newest_concat (nodes : List Dirent) (d : Dirent) : newest (nodes ++ [d]) =
    match newest nodes with
    | none => some d
    | some c => if c.version < d.version then some d else some c := by
  rw [newest, List.argmax_concat, ← newest]
  cases newest nodes <;> rfl

lemma mem_live :
    d ∈ live nodes pino name ↔ d ∈ nodes ∧ (d.pino = pino ∧ d.name = name) ∧ d.ino ≠ 0 := by
  simp only [live, List.mem_filter, decide_eq_true_eq]

lemma findStep_skip {found : Found} (clean : 0 ∉ name)
    (other : ¬((d.pino = pino ∧ d.name = name) ∧ d.ino ≠ 0)) :
    findStep name pino found d = found := by
  apply if_neg
  rintro ⟨same_pino, same_length, nonzero, compared⟩
  exact other ⟨⟨same_pino.symm, (strncmp_eq_zero same_length.symm clean).mp compared⟩, nonzero⟩

lemma findStep_take {found : Found} (clean : 0 ∉ name)
    (counts : (d.pino = pino ∧ d.name = name) ∧ d.ino ≠ 0) :
    findStep name pino found d =
      if d.version < found.version then found else ⟨d.version, d.ino⟩ := by
  obtain ⟨⟨rfl, rfl⟩, nonzero⟩ := counts
  apply if_pos
  exact ⟨rfl, rfl, nonzero, (strncmp_eq_zero rfl clean).mpr rfl⟩

lemma find_loop (clean : 0 ∉ name) (valid : Valid nodes) : nodes.foldl (findStep name pino) ⟨0, 0⟩ =
      match newest (live nodes pino name) with
      | none => ⟨0, 0⟩
      | some d => ⟨d.version, d.ino⟩ := by
  induction nodes using List.reverseRecOn with
  | nil => rfl
  | append_singleton nodes d ih =>
    have before := ih fun d hd e he =>
      valid d (List.mem_append_left _ hd) e (List.mem_append_left _ he)
    rw [List.foldl_append, before, List.foldl_cons, List.foldl_nil]
    by_cases counts : (d.pino = pino ∧ d.name = name) ∧ d.ino ≠ 0
    · have more : live (nodes ++ [d]) pino name = live nodes pino name ++ [d] := by
        rw [live, List.filter_append, List.filter_singleton, decide_eq_true counts]
        rfl
      rw [findStep_take clean counts, more, newest_concat]
      rcases top : newest (live nodes pino name) with _ | c
      · exact if_neg UInt32.not_lt_zero
      obtain ⟨c_mem, c_entry, -⟩ := mem_live.mp (newest_mem top)
      have same_name := counts.1
      by_cases older : c.version < d.version
      · simp only [older, if_true]
        exact if_neg (UInt32.not_lt.mpr (UInt32.le_of_lt older))
      simp only [older, if_false]
      by_cases newer : d.version < c.version
      · exact if_pos newer
      have versions : c.version = d.version :=
        UInt32.le_antisymm (UInt32.not_lt.mp newer) (UInt32.not_lt.mp older)
      have same : c = d := valid c (List.mem_append_left _ c_mem) d
        (List.mem_append_right _ List.mem_cons_self) (c_entry.1.trans same_name.1.symm)
        (c_entry.2.trans same_name.2.symm) versions
      rw [if_neg newer, same]
    · have same : live (nodes ++ [d]) pino name = live nodes pino name := by
        rw [live, List.filter_append, List.filter_singleton, decide_eq_false counts]
        exact List.append_nil _
      rw [findStep_skip clean counts, same]

lemma findInode_eq (pino : UInt32) (clean : 0 ∉ name) (valid : Valid nodes) :
    findInode nodes name pino = assignedLive nodes pino name := by
  rw [findInode, find_loop clean valid, assignedLive, latestLive]
  cases newest (live nodes pino name) <;> rfl

lemma assignedLive_perm {nodes' : List Dirent} (perm : nodes.Perm nodes') (valid : Valid nodes)
    (pino : UInt32) (name : List UInt8) :
    assignedLive nodes pino name = assignedLive nodes' pino name := by
  have same : newest (live nodes pino name) = newest (live nodes' pino name) := by
    apply newest_perm (perm.filter _)
    intro d hd e he versions
    obtain ⟨d_mem, d_entry, -⟩ := mem_live.mp hd
    obtain ⟨e_mem, e_entry, -⟩ := mem_live.mp he
    exact valid d d_mem e e_mem (d_entry.1.trans e_entry.1.symm)
      (d_entry.2.trans e_entry.2.symm) versions
  rw [assignedLive, latestLive, same]
  rfl

lemma splitOn_last {tmp : List UInt8} (behind : tmp.dropWhile (· ≠ slash) = []) :
    tmp.splitOn slash = [tmp] := by
  rw [List.splitOn_eq_splitOnP]
  apply List.splitOnP_eq_singleton
  intro x hx
  have other := List.dropWhile_eq_nil_iff.mp behind x hx
  simpa using other

lemma splitOn_first {tmp rest : List UInt8} {s : UInt8}
    (behind : tmp.dropWhile (· ≠ slash) = s :: rest) :
    tmp.splitOn slash = tmp.takeWhile (· ≠ slash) :: rest.splitOn slash := by
  have whole := List.takeWhile_append_dropWhile (p := (· ≠ slash)) (l := tmp)
  have first := List.head?_dropWhile_not (· ≠ slash) tmp
  rw [behind] at whole first
  have at_slash : (s == slash) = true := by simpa using first
  conv_lhs => rw [← whole]
  rw [List.splitOn_eq_splitOnP, List.splitOn_eq_splitOnP]
  refine List.splitOnP_append_cons_of_forall_mem ?_ s at_slash rest
  intro x hx
  have other := List.mem_takeWhile_imp hx
  simpa using other

lemma searchFrom_eq (valid : Valid nodes) (tmp : List UInt8) (pino : UInt32) (clean : 0 ∉ tmp) :
    searchFrom nodes tmp pino = walk (assignedLive nodes) (tmp.splitOn slash) pino := by
  have clean_first (tmp : List UInt8) (clean : 0 ∉ tmp) : 0 ∉ tmp.takeWhile (· ≠ slash) :=
    fun h => clean ((List.takeWhile_prefix _).subset h)
  fun_induction searchFrom nodes tmp pino with
  | case1 tmp pino behind =>
    rw [splitOn_last behind, findInode_eq pino clean valid, walk, walk]
    split
    · assumption
    · rfl
  | case2 tmp pino s rest behind next zero =>
    have first : assignedLive nodes pino (tmp.takeWhile (· ≠ slash)) = 0 := by
      rw [← findInode_eq pino (clean_first tmp clean) valid]
      exact zero
    rw [splitOn_first behind, walk, if_pos first]
  | case3 tmp pino s rest behind next nonzero ih =>
    have first : next = assignedLive nodes pino (tmp.takeWhile (· ≠ slash)) :=
      findInode_eq pino (clean_first tmp clean) valid
    have clean_rest : 0 ∉ rest := by
      intro h
      apply clean
      apply (List.dropWhile_suffix (l := tmp) (· ≠ slash)).subset
      rw [behind]
      exact List.mem_cons_of_mem s h
    rw [splitOn_first behind, walk, ← first, if_neg nonzero, ih clean_rest]

variable {rest : List (List UInt8)}

lemma mem_entries :
    d ∈ entries nodes pino name ↔ d ∈ nodes ∧ d.pino = pino ∧ d.name = name := by
  simp only [entries, List.mem_filter, decide_eq_true_eq]

lemma newest_eq (mem : d ∈ nodes) (top : ∀ e ∈ nodes, e.version.toNat ≤ d.version.toNat)
    (apart : ∀ e ∈ nodes, e.version = d.version → e = d) : newest nodes = some d := by
  rcases first : newest nodes with _ | e
  · rw [List.argmax_eq_none.mp first] at mem
    cases mem
  · have versions := le_antisymm (top e (newest_mem first)) (newest_le first mem)
    rw [apart e (newest_mem first) (UInt32.toNat_inj.mp versions)]

lemma latestLive_of_latest (valid : Valid nodes) (top : d ∈ latest nodes pino name)
    (nonzero : d.ino ≠ 0) :
    latestLive nodes pino name = some d := by
  obtain ⟨d_mem, d_entry⟩ := mem_entries.mp (newest_mem top)
  apply newest_eq
  · exact mem_live.mpr ⟨d_mem, d_entry, nonzero⟩
  · intro e he
    obtain ⟨e_mem, e_entry, -⟩ := mem_live.mp he
    exact newest_le top (mem_entries.mpr ⟨e_mem, e_entry⟩)
  · intro e he versions
    obtain ⟨e_mem, e_entry, -⟩ := mem_live.mp he
    exact valid e e_mem d d_mem (e_entry.1.trans d_entry.1.symm)
      (e_entry.2.trans d_entry.2.symm) versions

lemma latestLive_ne_zero (top : d ∈ latestLive nodes pino name) : d.ino ≠ 0 :=
  (mem_live.mp (newest_mem top)).2.2

lemma assignedLive_some (top : latestLive nodes pino name = some d) :
    assignedLive nodes pino name = d.ino := by
  rw [assignedLive, top]
  rfl

lemma assignedLive_none (gone : latestLive nodes pino name = none) :
    assignedLive nodes pino name = 0 := by
  rw [assignedLive, gone]
  rfl

lemma assigned_some (top : latest nodes pino name = some d) : assigned nodes pino name = d.ino := by
  rw [assigned, top]
  rfl

lemma leadsOn_cons : LeadsOn nodes (name :: rest) pino ↔
      ∃ d ∈ latestLive nodes pino name, LeadsOn nodes rest d.ino := by
  constructor
  · rintro (_ | ⟨live, on⟩)
    exact ⟨_, live, on⟩
  · rintro ⟨d, live, on⟩
    exact .go live on

lemma walk_live_iff (nodes : List Dirent) (names : List (List UInt8)) (pino : UInt32)
    (start : names = [] → pino ≠ 0) :
    walk (assignedLive nodes) names pino ≠ 0 ↔ LeadsOn nodes names pino := by
  induction names generalizing pino with
  | nil => exact iff_of_true (start rfl) (.stop pino)
  | cons name rest ih =>
    rw [walk, leadsOn_cons]
    rcases top : latestLive nodes pino name with _ | d
    · rw [if_pos (assignedLive_none top)]
      apply iff_of_false
      · exact fun h => h rfl
      · rintro ⟨d, ⟨⟩, -⟩
    · have inode := latestLive_ne_zero top
      rw [assignedLive_some top, if_neg inode, ih d.ino (fun _ => inode)]
      simp

lemma latestLive_of_none (gone : latest nodes pino name = none) :
    latestLive nodes pino name = none := by
  apply List.argmax_eq_none.mpr
  apply List.eq_nil_iff_forall_not_mem.mpr
  intro e he
  obtain ⟨e_mem, e_entry, -⟩ := mem_live.mp he
  have e_here := mem_entries.mpr ⟨e_mem, e_entry⟩
  rw [List.argmax_eq_none.mp gone] at e_here
  cases e_here

lemma not_revived_none (gone : latest nodes pino name = none) :
    ¬Revived nodes (name :: rest) pino := by
  rintro (⟨found, -, -⟩ | ⟨found, -, -⟩)
  · cases gone.symm.trans found
  · cases gone.symm.trans found

lemma revived_removed (top : latest nodes pino name = some d) (removed : d.ino = 0) :
    Revived nodes (name :: rest) pino ↔ LeadsOn nodes (name :: rest) pino := by
  constructor
  · rintro (⟨-, -, on⟩ | ⟨found, nonzero, -⟩)
    · exact on
    · cases top.symm.trans found
      exact absurd removed nonzero
  · exact .found top removed

lemma revived_live (top : latest nodes pino name = some d) (nonzero : d.ino ≠ 0) :
    Revived nodes (name :: rest) pino ↔ Revived nodes rest d.ino := by
  constructor
  · rintro (⟨found, zero, -⟩ | ⟨found, -, later⟩)
    · cases top.symm.trans found
      exact absurd zero nonzero
    · cases top.symm.trans found
      exact later
  · exact .deeper top nonzero

lemma walk_assigned_iff (valid : Valid nodes) (names : List (List UInt8)) (pino : UInt32) :
    walk (assignedLive nodes) names pino = walk (assigned nodes) names pino ↔
      ¬Revived nodes names pino := by
  induction names generalizing pino with
  | nil =>
    apply iff_of_true
    · rfl
    · rintro ⟨⟩
  | cons name rest ih =>
    rcases top : latest nodes pino name with _ | d
    · have gone : assigned nodes pino name = 0 := by
        rw [assigned, top]
        rfl
      apply iff_of_true
      · rw [walk, walk, if_pos gone, if_pos (assignedLive_none (latestLive_of_none top))]
      · exact not_revived_none top
    · by_cases removed : d.ino = 0
      · have ends : walk (assigned nodes) (name :: rest) pino = 0 := by
          rw [walk, if_pos ((assigned_some top).trans removed)]
        rw [ends, revived_removed top removed,
          ← walk_live_iff nodes (name :: rest) pino (fun h => nomatch h), not_not]
      · rw [walk, walk, assigned_some top, assignedLive_some (latestLive_of_latest valid top removed),
          if_neg removed, if_neg removed, ih d.ino, revived_live top removed]

/-- In whatever order the nodes of a partition were scanned, sorted or not, the search for a path
returns the inode that JFFS2 assigns if and only if no removed name is revived. -/
theorem search_finds_assigned_iff {scanned : List Dirent} (valid : Valid scanned)
    (listCompare : Option (Dirent → Dirent → Bool)) {fname : List UInt8} (clean : 0 ∉ fname)
    (short : fname.length < 256) (pino : UInt32) :
    searchInode (buildList listCompare scanned).nodes fname pino =
        some (walk (assigned scanned) (components fname) pino) ↔
      ¬Revived scanned (components fname) pino := by
  have perm := buildList_perm listCompare scanned
  have valid_list : Valid (buildList listCompare scanned).nodes := fun d hd e he =>
    valid d (perm.mem_iff.mp hd) e (perm.mem_iff.mp he)
  have suffix := List.dropWhile_suffix (l := fname) (· = slash)
  have fits : ¬256 ≤ (fname.dropWhile (· = slash)).length := by
    have := suffix.length_le
    omega
  have same : assignedLive (buildList listCompare scanned).nodes = assignedLive scanned := by
    funext pino name
    exact assignedLive_perm perm valid_list pino name
  rw [searchInode, if_neg fits, searchFrom_eq valid_list _ pino (fun h => clean (suffix.subset h)), same,
    Option.some.injEq]
  exact walk_assigned_iff valid (components fname) pino

lemma not_revived_of_live (live : ∀ d ∈ nodes, d.ino ≠ 0) (names : List (List UInt8))
    (pino : UInt32) : ¬Revived nodes names pino := by
  intro revived
  induction revived with
  | found removed zero _ => exact live _ (mem_entries.mp (newest_mem removed)).1 zero
  | deeper _ _ _ ih => exact ih

def plainNodes : List Dirent := [⟨0x40, 2, 7, 9, [98]⟩, ⟨0, 1, 3, 2, [97]⟩]

theorem plain_path_found :
    searchInode (buildList none plainNodes).nodes [47, 97, 47, 98] 1 =
      some (walk (assigned plainNodes) (components [47, 97, 47, 98]) 1) :=
  (search_finds_assigned_iff (by decide : Valid plainNodes) none
    (by decide : (0 : UInt8) ∉ [47, 97, 47, 98]) (by decide) 1).mpr (not_revived_of_live (by decide) _ 1)

def removedNodes : List Dirent := [⟨0, 1, 1, 5, [97]⟩, ⟨0x40, 1, 2, 0, [97]⟩]

/-- "a" was removed, and is found with its old inode. -/
theorem removed_name_found :
    Valid removedNodes ∧ walk (assigned removedNodes) (components [97]) 1 = 0 ∧
      searchInode (buildList none removedNodes).nodes [97] 1 = some 5 := by
  refine ⟨by decide, by decide, ?_⟩
  rw [searchInode, if_neg (by decide)]
  have valid : Valid (buildList none removedNodes).nodes := by decide
  rw [searchFrom_eq valid _ _ (by decide)]
  decide

end Jffs2
