import Mathlib.Data.List.Induction
import Mathlib.Data.List.Nodup
import Mathlib.Data.List.TakeWhile
import UBoot.Lib.Memory32

/-!
# The fragments of a JFFS2 file (fs/jffs2/jffs2_1pass.c)

`insert_node` keeps the inode nodes in the order of their versions, starting at the tail of the
list or at the place of the last insertion; `jffs2_1pass_read_inode` finds the size of a file and
copies its fragments one over the other. With CONFIG_SYS_JFFS2_SORT_FRAGMENTS.
-/

namespace Jffs2Fragments

open Memory32 (Mem filled)

def crcUnknown : UInt32 := 0
def crcOk : UInt32 := 1
def crcBad : UInt32 := 2

def comprNone : UInt8 := 0
def comprZero : UInt8 := 1
def comprRtime : UInt8 := 2
def comprDynrubin : UInt8 := 5
def comprZlib : UInt8 := 6
def comprLzo : UInt8 := 7
def comprLzari : UInt8 := 8

/-- A `struct b_node` with what the functions here read of its `struct jffs2_raw_inode`. `address`
is `b->offset`, `dataCrcOk` what `data_crc` says of the node. -/
structure Node where
  address : UInt32
  datacrc : UInt32
  ino : UInt32
  version : UInt32
  isize : UInt32
  offset : UInt32
  dsize : UInt32
  compr : UInt8
  dataCrcOk : Bool
deriving DecidableEq

/-- `struct b_list`; `listLast` is the number of the nodes up to that one, 0 for NULL. -/
structure BList where
  nodes : List Node
  listLast : Nat

def compareInodes (new old : Node) : Bool := new.version > old.version

/-- The nodes up to `prev`, where `insert_node` starts to look. -/
def startAfter (list : BList) (new : Node) : Nat :=
  if (list.nodes.getLast?).any (compareInodes new) then list.nodes.length
  else if ((list.nodes.take list.listLast).getLast?).any (compareInodes new) then list.listLast
  else 0

def place (list : BList) (new : Node) : Nat :=
  startAfter list new +
    ((list.nodes.drop (startAfter list new)).takeWhile (compareInodes new)).length

/-- `insert_node`, behind `add_node`, which leaves `datacrc` as it was in the memory. -/
def insertNode (list : BList) (new : Node) : BList where
  nodes := list.nodes.take (place list new) ++ new :: list.nodes.drop (place list new)
  listLast := if place list new < list.nodes.length then place list new else list.listLast

/-- `pL->frag` after the nodes were inserted one after the other. -/
def fragList (scanned : List Node) : BList := scanned.foldl insertNode ⟨[], 0⟩

/-- The variables `totalSize` and `latestVersion`. -/
structure Newer where
  totalSize : UInt32
  latestVersion : UInt32

def sizeStep (inode : UInt32) (t : Newer) (jNode : Node) : Newer :=
  if inode = jNode.ino ∧ jNode.version ≥ t.latestVersion then ⟨jNode.isize, jNode.version⟩ else t

def checked (b : Node) : Node :=
  if b.datacrc = crcUnknown then { b with datacrc := if b.dataCrcOk then crcOk else crcBad } else b

/-- The cases of the switch; `lzo` is CONFIG_JFFS2_LZO_LZARI. -/
def Known (lzo : Bool) (compr : UInt8) : Prop :=
  compr ∈ [comprNone, comprZero, comprRtime, comprDynrubin, comprZlib] ∨
    lzo = true ∧ compr ∈ [comprLzo, comprLzari]

instance (lzo : Bool) (compr : UInt8) : Decidable (Known lzo compr) :=
  inferInstanceAs (Decidable (_ ∨ _ ∧ _))

abbrev Data := (address : UInt32) → Nat → UInt8

def contents (data : Data) (b : Node) : Nat → UInt8 :=
  if b.compr = comprZero then fun _ => 0 else data b.address

structure Read where
  ret : Int
  nodes : List Node
  mem : Mem

/-- The second pass; `none` for the return at an unknown compression. -/
def copyPass (lzo : Bool) (data : Data) (dest inode totalSize : UInt32) :
    List Node → Mem → Bool × List Node × Mem
  | [], mem => (true, [], mem)
  | b :: rest, mem =>
    if inode = b.ino ∧ b.offset ≤ totalSize then
      if (checked b).datacrc = crcBad then
        let r := copyPass lzo data dest inode totalSize rest mem
        (r.1, checked b :: r.2.1, r.2.2)
      else if Known lzo b.compr then
        let r := copyPass lzo data dest inode totalSize rest
          (filled mem (dest + b.offset) (contents data b) b.dsize.toNat)
        (r.1, checked b :: r.2.1, r.2.2)
      else (false, checked b :: rest, mem)
    else
      let r := copyPass lzo data dest inode totalSize rest mem
      (r.1, b :: r.2.1, r.2.2)

/-- `jffs2_1pass_read_inode`; the size is returned as a `long`. -/
def readInode (lzo : Bool) (data : Data) (nodes : List Node) (inode dest : UInt32) (mem : Mem) :
    Read :=
  let totalSize := (nodes.foldl (sizeStep inode) ⟨0, 0⟩).totalSize
  if dest = 0 then ⟨totalSize.toBitVec.toInt, nodes, mem⟩
  else
    let r := copyPass lzo data dest inode totalSize nodes mem
    ⟨if r.1 then totalSize.toBitVec.toInt else -1, r.2.1, r.2.2⟩

structure Newest (nodes : List Node) (P : Node → Prop) (b : Node) : Prop where
  mem : b ∈ nodes
  holds : P b
  latest : ∀ c ∈ nodes, P c → c.version ≤ b.version

structure Covers (inode p : UInt32) (b : Node) : Prop where
  ino : b.ino = inode
  start : b.offset ≤ p
  finish : p.toNat < b.offset.toNat + b.dsize.toNat

/-- Nodes at different places, with right checksums and with different versions for an inode. -/
structure Valid (scanned : List Node) : Prop where
  places : (scanned.map Node.address).Nodup
  versions : scanned.Pairwise fun b c => b.ino = c.ino → b.version ≠ c.version
  checksums : ∀ b ∈ scanned, b.dataCrcOk = true

/-- The list is sorted and has every node once; for a file, its size is returned, and every byte of
it that a fragment has is that of the newest, whatever the bytes are. -/
structure Right (lzo : Bool) (scanned : List Node) (inode dest : UInt32) : Prop where
  sorted : (fragList scanned).nodes.Pairwise fun b c => b.version ≤ c.version
  once : (fragList scanned).nodes.Perm scanned
  size : ∀ data mem newest, Newest scanned (fun b => b.ino = inode) newest →
    (readInode lzo data (fragList scanned).nodes inode dest mem).ret = newest.isize.toNat
  bytes : ∀ data mem newest, Newest scanned (fun b => b.ino = inode) newest →
    ∀ p < newest.isize, ∀ b, Newest scanned (Covers inode p) b →
      (readInode lzo data (fragList scanned).nodes inode dest mem).mem (dest + p) =
        contents data b (p.toNat - b.offset.toNat)

/-- A fragment that is copied: it does not start behind the file, and the memory that it is kept in
does not say that its data is bad. -/
structure Copied (inode totalSize : UInt32) (b : Node) : Prop where
  ino : b.ino = inode
  start : b.offset ≤ totalSize
  unmarked : b.datacrc ≠ crcBad

/-- A fragment that is copied over a position, perhaps around the end of the memory. -/
structure Written (inode totalSize p : UInt32) (b : Node) : Prop where
  copied : Copied inode totalSize b
  inside : p - b.offset < b.dsize

/-- The size is a `long`, every fragment that is copied has a known compression, and the newest
fragment with a byte is the newest one that is copied there, or both are zeros. -/
structure Condition (lzo : Bool) (scanned : List Node) (inode : UInt32) : Prop where
  size : ∀ newest, Newest scanned (fun b => b.ino = inode) newest → newest.isize.toNat < 2 ^ 31
  known : ∀ newest, Newest scanned (fun b => b.ino = inode) newest →
    ∀ b ∈ scanned, Copied inode newest.isize b → Known lzo b.compr
  bytes : ∀ newest, Newest scanned (fun b => b.ino = inode) newest →
    ∀ p < newest.isize, ∀ b, Newest scanned (Covers inode p) b →
      ∃ c, Newest scanned (Written inode newest.isize p) c ∧
        (c = b ∨ c.compr = comprZero ∧ b.compr = comprZero)

lemma take_place (list : BList) (new : Node) :
    list.nodes.take (place list new) = list.nodes.take (startAfter list new) ++
      (list.nodes.drop (startAfter list new)).takeWhile (compareInodes new) := by
  rw [place, List.take_add]
  congr 1
  exact (List.prefix_iff_eq_take.mp (List.takeWhile_prefix _)).symm

lemma drop_place (list : BList) (new : Node) :
    list.nodes.drop (place list new) =
      (list.nodes.drop (startAfter list new)).dropWhile (compareInodes new) := by
  rw [place, ← List.drop_drop]
  generalize list.nodes.drop (startAfter list new) = behind
  calc behind.drop (behind.takeWhile (compareInodes new)).length
      = (behind.takeWhile (compareInodes new) ++ behind.dropWhile (compareInodes new)).drop
          (behind.takeWhile (compareInodes new)).length := by
        rw [List.takeWhile_append_dropWhile]
    _ = behind.dropWhile (compareInodes new) := List.drop_left

lemma compareInodes_iff {new old : Node} :
    compareInodes new old = true ↔ old.version < new.version :=
  decide_eq_true_iff

section

variable {list : BList} {new : Node} (sorted : list.nodes.Pairwise fun b c => b.version ≤ c.version)
include sorted

lemma older_of_last {k : Nat}
    (last : ((list.nodes.take k).getLast?).any (compareInodes new) = true) :
    ∀ b ∈ list.nodes.take k, b.version < new.version := by
  obtain ⟨prev, is_last, older⟩ := (Option.any_eq_true _ _).mp last
  obtain ⟨front, split⟩ := List.getLast?_eq_some_iff.mp is_last
  have kept := sorted.sublist (List.take_sublist k list.nodes)
  rw [split] at kept ⊢
  intro b member
  rcases List.mem_append.mp member with before | here
  · exact UInt32.lt_of_le_of_lt
      ((List.pairwise_append.mp kept).2.2 b before prev (List.mem_singleton_self prev))
      (compareInodes_iff.mp older)
  · rw [List.mem_singleton.mp here]
    exact compareInodes_iff.mp older

lemma older_before_start :
    ∀ b ∈ list.nodes.take (startAfter list new), b.version < new.version := by
  unfold startAfter
  split
  · next tail =>
    refine older_of_last sorted ?_
    rwa [List.take_length]
  split
  · next last => exact older_of_last sorted last
  · exact fun b member => absurd member (by simp)

lemma older_before_place : ∀ b ∈ list.nodes.take (place list new), b.version < new.version := by
  rw [take_place]
  intro b member
  rcases List.mem_append.mp member with before | passed
  · exact older_before_start sorted b before
  · exact compareInodes_iff.mp (List.mem_takeWhile_imp passed)

lemma newer_behind_place : ∀ b ∈ list.nodes.drop (place list new), new.version ≤ b.version := by
  have kept := sorted.sublist (List.drop_sublist (place list new) list.nodes)
  rw [drop_place] at kept ⊢
  intro b member
  cases behind : (list.nodes.drop (startAfter list new)).dropWhile (compareInodes new) with
  | nil => exact absurd (behind ▸ member) List.not_mem_nil
  | cons first rest =>
    have stopped := List.head?_dropWhile_not (compareInodes new)
      (list.nodes.drop (startAfter list new))
    rw [behind, List.head?_cons] at stopped
    rw [behind] at kept member
    have here : new.version ≤ first.version := UInt32.not_lt.mp fun less =>
      Bool.false_ne_true (stopped.symm.trans (compareInodes_iff.mpr less))
    rcases List.mem_cons.mp member with rfl | later
    · exact here
    · exact UInt32.le_trans here (List.rel_of_pairwise_cons kept later)

lemma insertNode_sorted :
    (insertNode list new).nodes.Pairwise fun b c => b.version ≤ c.version := by
  have before := @older_before_place list new sorted
  have behind := @newer_behind_place list new sorted
  refine List.pairwise_append.mpr ⟨sorted.sublist (List.take_sublist _ _),
    List.pairwise_cons.mpr ⟨behind, sorted.sublist (List.drop_sublist _ _)⟩, ?_⟩
  intro b earlier c later
  have less := UInt32.le_of_lt (before b earlier)
  rcases List.mem_cons.mp later with rfl | after
  · exact less
  · exact UInt32.le_trans less (behind c after)

end

lemma insertNode_perm (list : BList) (new : Node) :
    (insertNode list new).nodes.Perm (new :: list.nodes) := by
  have moved := @List.perm_middle _ new (list.nodes.take (place list new))
    (list.nodes.drop (place list new))
  rwa [List.take_append_drop] at moved

lemma fragList_concat (scanned : List Node) (b : Node) :
    fragList (scanned ++ [b]) = insertNode (fragList scanned) b := by
  rw [fragList, List.foldl_append]
  rfl

lemma fragList_sorted (scanned : List Node) :
    (fragList scanned).nodes.Pairwise fun b c => b.version ≤ c.version := by
  induction scanned using List.reverseRecOn with
  | nil => exact .nil
  | append_singleton scanned b ih =>
    rw [fragList_concat]
    exact insertNode_sorted ih

lemma fragList_perm (scanned : List Node) : (fragList scanned).nodes.Perm scanned := by
  induction scanned using List.reverseRecOn with
  | nil => exact .refl _
  | append_singleton scanned b ih =>
    rw [fragList_concat]
    have last : (scanned ++ [b]).Perm (b :: scanned) := List.perm_append_singleton b scanned
    exact ((insertNode_perm _ b).trans (ih.cons b)).trans last.symm

variable {nodes : List Node} {b : Node}

lemma Newest.of_perm {nodes' : List Node} {P : Node → Prop} (newest : Newest nodes P b)
    (perm : nodes.Perm nodes') : Newest nodes' P b :=
  ⟨perm.mem_iff.mp newest.mem, newest.holds,
    fun c member => newest.latest c (perm.mem_iff.mpr member)⟩

lemma newest_exists {P : Node → Prop} (member : b ∈ nodes) (holds : P b) :
    ∃ c, Newest nodes P c := by
  induction nodes generalizing b with
  | nil => cases member
  | cons first rest ih =>
    by_cases later : ∃ c ∈ rest, P c
    · obtain ⟨c, among, has⟩ := later
      obtain ⟨top, newest⟩ := ih among has
      by_cases ahead : P first ∧ top.version < first.version
      · refine ⟨first, List.mem_cons_self, ahead.1, List.forall_mem_cons.mpr
          ⟨fun _ => UInt32.le_refl _, fun d among has => ?_⟩⟩
        exact UInt32.le_of_lt (UInt32.lt_of_le_of_lt (newest.latest d among has) ahead.2)
      · refine ⟨top, List.mem_cons_of_mem _ newest.mem, newest.holds, List.forall_mem_cons.mpr
          ⟨fun has => ?_, newest.latest⟩⟩
        exact UInt32.not_lt.mp fun less => ahead ⟨has, less⟩
    · rcases List.mem_cons.mp member with rfl | among
      · refine ⟨b, List.mem_cons_self, holds, List.forall_mem_cons.mpr
          ⟨fun _ => UInt32.le_refl _, fun d among has => absurd ⟨d, among, has⟩ later⟩⟩
      · exact absurd ⟨b, among, holds⟩ later

lemma Newest.cons {first b : Node} {rest : List Node} {P : Node → Prop}
    (newest : Newest (first :: rest) P b) : Newest rest P b ∨ b = first := by
  rcases List.mem_cons.mp newest.mem with here | among
  · exact .inr here
  · exact .inl ⟨among, newest.holds, fun c member =>
      newest.latest c (List.mem_cons_of_mem _ member)⟩

def Ordered (nodes : List Node) : Prop :=
  nodes.Pairwise fun b c => b.ino = c.ino → b.version < c.version

lemma fragList_ordered {scanned : List Node} (valid : Valid scanned) :
    Ordered (fragList scanned).nodes := by
  have distinct : (fragList scanned).nodes.Pairwise
      fun b c => b.ino = c.ino → b.version ≠ c.version :=
    (fragList_perm scanned).symm.pairwise valid.versions
      fun apart same => (apart same.symm).symm
  refine List.Pairwise.imp₂ ?_ (fragList_sorted scanned) distinct
  intro b c le apart same
  exact UInt32.lt_of_le_of_ne le (apart same)

lemma sizeStep_fold {inode : UInt32} (ordered : Ordered nodes) (t : Newer)
    (older : ∀ b ∈ nodes, b.ino = inode → t.latestVersion ≤ b.version) :
    (∀ newest, Newest nodes (fun b => b.ino = inode) newest →
      (nodes.foldl (sizeStep inode) t).totalSize = newest.isize) ∧
    ((∀ b ∈ nodes, b.ino ≠ inode) → nodes.foldl (sizeStep inode) t = t) := by
  induction nodes generalizing t with
  | nil => exact ⟨fun newest top => absurd top.mem List.not_mem_nil, fun _ => rfl⟩
  | cons b rest ih =>
    obtain ⟨later, ordered⟩ := List.pairwise_cons.mp ordered
    rw [List.foldl_cons]
    by_cases own : b.ino = inode
    · have step : sizeStep inode t b = ⟨b.isize, b.version⟩ :=
        if_pos ⟨own.symm, older b List.mem_cons_self own⟩
      rw [step]
      obtain ⟨found, none⟩ := ih ordered ⟨b.isize, b.version⟩ fun c member same =>
        UInt32.le_of_lt (later c member (own.trans same.symm))
      refine ⟨fun newest top => ?_, fun others => absurd own (others b List.mem_cons_self)⟩
      rcases top.cons with newer | rfl
      · exact found newest newer
      rw [none]
      intro c member same
      have less := later c member (own.trans same.symm)
      exact UInt32.not_le.mpr less (top.latest c (List.mem_cons_of_mem _ member) same)
    · have step : sizeStep inode t b = t := if_neg fun both => own both.1.symm
      rw [step]
      obtain ⟨found, none⟩ := ih ordered t fun c member => older c (List.mem_cons_of_mem _ member)
      refine ⟨fun newest top => ?_, fun others => none fun c member =>
        others c (List.mem_cons_of_mem _ member)⟩
      rcases top.cons with newer | rfl
      · exact found newest newer
      · exact absurd top.holds own

lemma checked_eq_bad_iff (ok : b.dataCrcOk = true) :
    (checked b).datacrc = crcBad ↔ b.datacrc = crcBad := by
  unfold checked
  split
  · next unknown =>
    rw [ok, unknown]
    exact iff_of_false (show ¬ crcOk = crcBad by decide) (by decide)
  · exact Iff.rfl

section

variable {lzo : Bool} {data : Data} {dest inode totalSize : UInt32} {nodes : List Node}

lemma copyPass_done_iff (checksums : ∀ b ∈ nodes, b.dataCrcOk = true) (mem : Mem) :
    (copyPass lzo data dest inode totalSize nodes mem).1 = true ↔
      ∀ b ∈ nodes, Copied inode totalSize b → Known lzo b.compr := by
  induction nodes generalizing mem with
  | nil => exact iff_of_true rfl (List.forall_mem_nil _)
  | cons b rest ih =>
    obtain ⟨ok, checksums⟩ := List.forall_mem_cons.mp checksums
    rw [List.forall_mem_cons]
    unfold copyPass
    split
    · next own =>
      split
      · next bad =>
        refine (ih checksums mem).trans (and_iff_right fun copied => ?_).symm
        exact absurd ((checked_eq_bad_iff ok).mp bad) copied.unmarked
      next good =>
      have copied : Copied inode totalSize b :=
        ⟨own.1.symm, own.2, fun bad => good ((checked_eq_bad_iff ok).mpr bad)⟩
      split
      · next known => exact (ih checksums _).trans (and_iff_right fun _ => known).symm
      · next unknown => exact iff_of_false Bool.false_ne_true fun all => unknown (all.1 copied)
    · next other =>
      refine (ih checksums mem).trans (and_iff_right fun copied => ?_).symm
      exact absurd ⟨copied.ino.symm, copied.start⟩ other

lemma filled_at (mem : Mem) (source : Nat → UInt8) (b : Node) (p : UInt32) :
    filled mem (dest + b.offset) source b.dsize.toNat (dest + p) =
      if p - b.offset < b.dsize then source (p - b.offset).toNat else mem (dest + p) := by
  have distance : dest + p - (dest + b.offset) = p - b.offset := by
    have := b.offset.toNat_lt
    apply UInt32.toNat_inj.mp
    simp only [UInt32.toNat_sub, UInt32.toNat_add]
    omega
  rw [filled, distance]
  rfl

lemma copyPass_cons {b : Node} (ok : b.dataCrcOk = true)
    (known : Copied inode totalSize b → Known lzo b.compr) (mem : Mem) : ∃ next : Mem,
    (copyPass lzo data dest inode totalSize (b :: nodes) mem).2.2 =
      (copyPass lzo data dest inode totalSize nodes next).2.2 ∧
    ∀ p, (Written inode totalSize p b →
        next (dest + p) = contents data b (p - b.offset).toNat) ∧
      (¬ Written inode totalSize p b → next (dest + p) = mem (dest + p)) := by
  by_cases copied : Copied inode totalSize b
  · refine ⟨filled mem (dest + b.offset) (contents data b) b.dsize.toNat, ?_, fun p => ⟨?_, ?_⟩⟩
    · have good : ¬ (checked b).datacrc = crcBad := (checked_eq_bad_iff ok).not.mpr copied.unmarked
      rw [copyPass, if_pos ⟨copied.ino.symm, copied.start⟩, if_neg good, if_pos (known copied)]
    · intro written
      rw [filled_at, if_pos written.inside]
    · intro apart
      rw [filled_at, if_neg fun inside => apart ⟨copied, inside⟩]
  · refine ⟨mem, ?_, fun p => ⟨fun written => absurd written.copied copied, fun _ => rfl⟩⟩
    rw [copyPass]
    split
    · next own =>
      have bad : (checked b).datacrc = crcBad := by
        by_contra good
        exact copied ⟨own.1.symm, own.2, (checked_eq_bad_iff ok).not.mp good⟩
      rw [if_pos bad]
    · rfl

lemma copyPass_mem (ordered : Ordered nodes) (checksums : ∀ b ∈ nodes, b.dataCrcOk = true)
    (known : ∀ b ∈ nodes, Copied inode totalSize b → Known lzo b.compr) (mem : Mem) (p : UInt32) :
    (∀ c, Newest nodes (Written inode totalSize p) c →
      (copyPass lzo data dest inode totalSize nodes mem).2.2 (dest + p) =
        contents data c (p - c.offset).toNat) ∧
    ((∀ c ∈ nodes, ¬ Written inode totalSize p c) →
      (copyPass lzo data dest inode totalSize nodes mem).2.2 (dest + p) = mem (dest + p)) := by
  induction nodes generalizing mem with
  | nil => exact ⟨fun c top => absurd top.mem List.not_mem_nil, fun _ => rfl⟩
  | cons b rest ih =>
    obtain ⟨later, ordered⟩ := List.pairwise_cons.mp ordered
    obtain ⟨ok, checksums⟩ := List.forall_mem_cons.mp checksums
    obtain ⟨own, known⟩ := List.forall_mem_cons.mp known
    obtain ⟨next, same, value⟩ := @copyPass_cons lzo data dest inode totalSize rest b ok own mem
    obtain ⟨covered, free⟩ := ih ordered checksums known next
    rw [same]
    refine ⟨fun c top => ?_, fun nowhere => ?_⟩
    · rcases top.cons with newer | rfl
      · exact covered c newer
      rw [free, (value p).1 top.holds]
      intro d among written
      have less := later d among (top.holds.copied.ino.trans written.copied.ino.symm)
      exact UInt32.not_le.mpr less (top.latest d (List.mem_cons_of_mem _ among) written)
    · obtain ⟨apart, nowhere⟩ := List.forall_mem_cons.mp nowhere
      rw [free nowhere, (value p).2 apart]

end

section

variable {lzo : Bool} {data : Data} {scanned : List Node} {inode dest : UInt32} {mem : Mem}
  {newest : Node}

lemma readInode_of_newest (valid : Valid scanned) (dest_ne : dest ≠ 0)
    (top : Newest scanned (fun b => b.ino = inode) newest) :
    readInode lzo data (fragList scanned).nodes inode dest mem =
      let r := copyPass lzo data dest inode newest.isize (fragList scanned).nodes mem
      ⟨if r.1 then newest.isize.toBitVec.toInt else -1, r.2.1, r.2.2⟩ := by
  have listed := top.of_perm (fragList_perm scanned).symm
  have size := (sizeStep_fold (fragList_ordered valid) ⟨0, 0⟩ fun b _ _ => UInt32.zero_le).1
    newest listed
  rw [readInode]
  rw [if_neg dest_ne, size]

lemma checksums_fragList (valid : Valid scanned) :
    ∀ b ∈ (fragList scanned).nodes, b.dataCrcOk = true :=
  fun b member => valid.checksums b ((fragList_perm scanned).mem_iff.mp member)

lemma readInode_ret_iff (valid : Valid scanned) (dest_ne : dest ≠ 0)
    (top : Newest scanned (fun b => b.ino = inode) newest) :
    (readInode lzo data (fragList scanned).nodes inode dest mem).ret = newest.isize.toNat ↔
      newest.isize.toNat < 2 ^ 31 ∧
        ∀ b ∈ scanned, Copied inode newest.isize b → Known lzo b.compr := by
  have done := @copyPass_done_iff lzo data dest inode newest.isize _ (checksums_fragList valid) mem
  simp only [(fragList_perm scanned).mem_iff] at done
  rw [readInode_of_newest valid dest_ne top, ← done]
  dsimp only
  split
  · next ended =>
    rw [and_iff_left ended, BitVec.toInt_eq_toNat_cond, UInt32.toNat_toBitVec]
    split <;> omega
  · next stopped =>
    refine iff_of_false ?_ fun both => stopped both.2
    omega

lemma readInode_mem (valid : Valid scanned) (dest_ne : dest ≠ 0)
    (top : Newest scanned (fun b => b.ino = inode) newest)
    (known : ∀ b ∈ scanned, Copied inode newest.isize b → Known lzo b.compr) (p : UInt32) :
    (∀ c, Newest scanned (Written inode newest.isize p) c →
      (readInode lzo data (fragList scanned).nodes inode dest mem).mem (dest + p) =
        contents data c (p - c.offset).toNat) ∧
    ((∀ c ∈ scanned, ¬ Written inode newest.isize p c) →
      (readInode lzo data (fragList scanned).nodes inode dest mem).mem (dest + p) =
        mem (dest + p)) := by
  have perm := fragList_perm scanned
  rw [readInode_of_newest valid dest_ne top]
  obtain ⟨covered, free⟩ := @copyPass_mem lzo data dest inode newest.isize _
    (fragList_ordered valid) (checksums_fragList valid)
    (fun b member => known b (perm.mem_iff.mp member)) mem p
  exact ⟨fun c written => covered c (written.of_perm perm.symm),
    fun nowhere => free fun c member => nowhere c (perm.mem_iff.mp member)⟩

lemma contents_zero (zero : b.compr = comprZero) (k : Nat) : contents data b k = 0 := by
  rw [contents, if_pos zero]

lemma contents_data (other : b.compr ≠ comprZero) (k : Nat) :
    contents data b k = data b.address k := by
  rw [contents, if_neg other]

lemma address_inj (valid : Valid scanned) {c : Node} (hb : b ∈ scanned) (hc : c ∈ scanned)
    (same : b.address = c.address) : b = c :=
  List.inj_on_of_nodup_map valid.places hb hc same

lemma Right.of_condition (valid : Valid scanned) (dest_ne : dest ≠ 0)
    (condition : Condition lzo scanned inode) : Right lzo scanned inode dest where
  sorted := fragList_sorted scanned
  once := fragList_perm scanned
  size data mem newest top :=
    (readInode_ret_iff valid dest_ne top).mpr ⟨condition.size _ top, condition.known _ top⟩
  bytes data mem newest top p inside b covers := by
    obtain ⟨c, written, same⟩ := condition.bytes newest top p inside b covers
    rw [(readInode_mem valid dest_ne top (condition.known _ top) p).1 c written]
    rcases same with rfl | ⟨zero, zero'⟩
    · rw [UInt32.toNat_sub_of_le _ _ covers.holds.start]
    · rw [contents_zero zero, contents_zero zero']

lemma written_of_bytes (valid : Valid scanned) (dest_ne : dest ≠ 0)
    (top : Newest scanned (fun b => b.ino = inode) newest)
    (known : ∀ b ∈ scanned, Copied inode newest.isize b → Known lzo b.compr) {p : UInt32}
    (covers : Newest scanned (Covers inode p) b) (value : ∀ data mem,
      (readInode lzo data (fragList scanned).nodes inode dest mem).mem (dest + p) =
        contents data b (p.toNat - b.offset.toNat)) :
    ∃ c, Newest scanned (Written inode newest.isize p) c ∧
      (c = b ∨ c.compr = comprZero ∧ b.compr = comprZero) := by
  have after := fun data mem => @readInode_mem lzo data scanned inode dest mem newest valid dest_ne
    top known p
  have somewhere : ∃ c ∈ scanned, Written inode newest.isize p c := by
    by_contra nowhere
    have free (data : Data) (mem : Mem) :=
      (after data mem).2 fun c member written => nowhere ⟨c, member, written⟩
    have zero := (free (fun _ _ => 0) fun _ => 0).symm.trans (value _ _)
    have one := (free (fun _ _ => 0) fun _ => 1).symm.trans (value _ _)
    exact absurd (zero.trans one.symm) (by decide)
  obtain ⟨d, among, has⟩ := somewhere
  obtain ⟨c, written⟩ := newest_exists among has
  refine ⟨c, written, ?_⟩
  by_cases zero : b.compr = comprZero
  · have here := (after (fun _ _ => 1) fun _ => 1).1 c written
    rw [value, contents_zero zero] at here
    by_cases other : c.compr = comprZero
    · exact .inr ⟨other, zero⟩
    · rw [contents_data other] at here
      exact absurd here (by decide)
  · have here :=
      (after (fun address _ => if address = b.address then 1 else 0) fun _ => 0).1 c written
    rw [value, contents_data zero, if_pos rfl] at here
    by_cases other : c.compr = comprZero
    · rw [contents_zero other] at here
      exact absurd here (by decide)
    rw [contents_data other] at here
    by_cases same : c.address = b.address
    · exact .inl (address_inj valid written.mem covers.mem same)
    · rw [if_neg same] at here
      exact absurd here (by decide)

lemma Right.condition (valid : Valid scanned) (dest_ne : dest ≠ 0)
    (right : Right lzo scanned inode dest) : Condition lzo scanned inode := by
  have returned (newest : Node) (top : Newest scanned (fun b => b.ino = inode) newest) :=
    (readInode_ret_iff valid dest_ne top).mp (right.size (fun _ _ => 0) (fun _ => 0) newest top)
  exact ⟨fun newest top => (returned newest top).1, fun newest top => (returned newest top).2,
    fun newest top p inside b covers => written_of_bytes valid dest_ne top (returned newest top).2
      covers fun data mem => right.bytes data mem newest top p inside b covers⟩

theorem read_inode_right_iff (valid : Valid scanned) (dest_ne : dest ≠ 0) :
    Right lzo scanned inode dest ↔ Condition lzo scanned inode :=
  ⟨Right.condition valid dest_ne, Right.of_condition valid dest_ne⟩

end

/-- Two bytes, and a later one for the second of them, which the scan finds first. -/
def twoBytes : Node := ⟨0x40, crcUnknown, 2, 1, 2, 0, 2, comprNone, true⟩
def laterByte : Node := ⟨0x80, crcUnknown, 2, 2, 2, 1, 1, comprNone, true⟩

theorem later_byte_right : Right false [laterByte, twoBytes] 2 0x30000000 := by
  have facts : ∀ b ∈ [laterByte, twoBytes], b.offset.toNat ≤ 1 ∧ b.dsize.toNat ≤ 2 ∧
      b.isize.toNat < 2 ^ 31 ∧ Known false b.compr ∧ b.datacrc ≠ crcBad := by decide
  refine (read_inode_right_iff ⟨by decide, by decide, by decide⟩ (by decide)).mpr
    ⟨fun b top => (facts b top.mem).2.2.1, fun _ _ b among _ => (facts b among).2.2.2.1, ?_⟩
  intro newest top p inside b covers
  obtain ⟨low, short, -, -, unmarked⟩ := facts b covers.mem
  have start := UInt32.le_iff_toNat_le.mp covers.holds.start
  have finish := covers.holds.finish
  have copied : Copied 2 newest.isize b := ⟨covers.holds.ino,
    UInt32.le_of_lt (UInt32.lt_of_le_of_lt covers.holds.start inside), unmarked⟩
  refine ⟨b, ⟨covers.mem, ⟨copied, ?_⟩, fun c among written => covers.latest c among ?_⟩, .inl rfl⟩
  · rw [UInt32.lt_iff_toNat_lt, UInt32.toNat_sub_of_le _ _ covers.holds.start]
    omega
  · -- the write does not go around the end of the memory
    obtain ⟨low', short', -⟩ := facts c among
    have at_p := UInt32.lt_iff_toNat_lt.mp written.inside
    rw [UInt32.toNat_sub] at at_p
    have start' : c.offset.toNat ≤ p.toNat := by omega
    exact ⟨written.copied.ino, UInt32.le_iff_toNat_le.mpr start', by omega⟩

def oneByte (datacrc : UInt32) : Node :=
  ⟨0x40, datacrc, 2, 1, 1, 0, 1, comprNone, true⟩

/-- In memory that was used before, the fragment may be bad from the beginning, and is left out. -/
theorem oneByte_left_out : ¬ Right false [oneByte crcBad] 2 0x30000000 := by
  intro right
  have own : Newest [oneByte crcBad] (fun b => b.ino = 2) (oneByte crcBad) :=
    ⟨List.mem_singleton_self _, rfl, by decide⟩
  have covers : Newest [oneByte crcBad] (Covers 2 0) (oneByte crcBad) :=
    ⟨List.mem_singleton_self _, ⟨rfl, by decide, by decide⟩, fun c member _ => by
      exact List.mem_singleton.mp member ▸ UInt32.le_refl _⟩
  have byte := right.bytes (fun _ _ => 1) (fun _ => 0) _ own 0 (by decide) _ covers
  exact absurd byte (by decide)

end Jffs2Fragments
