import Mathlib.Data.List.DropRight
import UBoot.Fs.FatContents
import UBoot.Fs.FatRead

/-!
# Directories of a FAT volume

What the entries of a directory are, what their names are, and which file a path names: as the
format has it, not as it is read.
-/

namespace FatDirectory

open ByteMemory Fat FatTable FatLayout FatNames FatContents FatRead

def trimmed (part : List UInt8) : List UInt8 := part.rdropWhile (· = 32)

def realFirst : List UInt8 → List UInt8
  | [] => []
  | c :: rest => if c = 0x05 then 0xe5 :: rest else c :: rest

def shortName (name : List UInt8) : List UInt8 :=
  let base := realFirst (trimmed (name.take 8))
  let ext := trimmed (name.drop 8)
  if ext = [] then base else base ++ 46 :: ext

def foldUnit (u : UInt16) : UInt16 := if 65 ≤ u ∧ u ≤ 90 then u + 32 else u

/-- A file or a directory: where it is in its directory, its long name, which may be empty, and what
is in its entry. -/
structure Entry where
  place : Nat
  long : List UInt16
  dent : DirEntry

def Entry.Named (x : Entry) (component : List UInt8) : Prop :=
  downcase (shortName x.dent.name) = downcase component ∨
    x.long ≠ [] ∧ x.long.map foldUnit = component.map fun c => foldUnit c.toUInt16

def Entry.IsDir (x : Entry) : Prop := x.dent.attr &&& attrDir ≠ 0

def unitPlaces : List Nat := [1, 3, 5, 7, 9, 14, 16, 18, 20, 22, 24, 28, 30]

def paddedUnit (long : List UInt16) (t : Nat) : UInt16 :=
  if t < long.length then long.getD t 0 else if t = long.length then 0 else 0xffff

def slotCount (long : List UInt16) : Nat := (long.length + 12) / 13

lemma slotCount_nil : slotCount [] = 0 := rfl

/-- A long name in its slots, from slot `n` of a directory on: the last part of it first. -/
structure LongAt (D : Mem) (n : Nat) (long : List UInt16) : Prop where
  some : long ≠ []
  short : long.length ≤ 255
  nonzero : 0 ∉ long
  attr : ∀ j < slotCount long, attrOf D (n + j) = attrVfat
  id : ∀ j < slotCount long, slotId D (n + j) =
    UInt8.ofNat (slotCount long - j) ||| if j = 0 then 0x40 else 0
  units : ∀ j < slotCount long, ∀ t < 13,
    fat2cpu16 D (direntSize * (n + j) + unitPlaces.getD t 0) =
      (paddedUnit long (13 * (slotCount long - j - 1) + t)).toNat

def checksum (name : List UInt8) : UInt8 :=
  name.foldl (fun sum c => ((sum &&& 1) <<< 7 ||| sum >>> 1) + c) 0

structure Ordinary (D : Mem) (n : Nat) : Prop where
  used : slotId D n ≠ 0
  kept : slotId D n ≠ deletedFlag
  attr : attrOf D n &&& attrVolume = 0

structure IsLabel (D : Mem) (n : Nat) : Prop where
  used : slotId D n ≠ 0
  kept : slotId D n ≠ deletedFlag
  volume : attrOf D n &&& attrVolume ≠ 0
  name : attrOf D n &&& 0x3f ≠ attrVfat

/-- Entries as they lie in a directory from slot `n` up to slot `last`, with deleted slots and
volume labels between them. -/
inductive Laid (D : Mem) (last : Nat) : Nat → List Entry → Prop
  | done : Laid D last last []
  | deleted {n : Nat} {entries : List Entry} (flag : slotId D n = deletedFlag)
      (rest : Laid D last (n + 1) entries) : Laid D last n entries
  | label {n : Nat} {entries : List Entry} (is : IsLabel D n) (rest : Laid D last (n + 1) entries) :
      Laid D last n entries
  | short {n : Nat} {entries : List Entry} (is : Ordinary D n)
      (rest : Laid D last (n + 1) entries) :
      Laid D last n (⟨n, [], direntOf D n⟩ :: entries)
  | long {n : Nat} {entries : List Entry} {long : List UInt16} (name : LongAt D n long)
      (is : Ordinary D (n + slotCount long))
      (sum : ∀ j < slotCount long, D (direntSize * (n + j) + 13) =
        checksum (direntOf D (n + slotCount long)).name)
      (rest : Laid D last (n + slotCount long + 1) entries) :
      Laid D last n (⟨n, long, direntOf D (n + slotCount long)⟩ :: entries)

structure Entry.Lies (D : Mem) (x : Entry) : Prop where
  name : x.long ≠ [] → LongAt D x.place x.long
  is : Ordinary D (x.place + slotCount x.long)
  dent : x.dent = direntOf D (x.place + slotCount x.long)

inductive SlotIs (D : Mem) (entries : List Entry) (k : Nat) : Prop
  | deleted (flag : slotId D k = deletedFlag)
  | label (is : IsLabel D k)
  | first {x : Entry} (entry : x ∈ entries) (long : x.long ≠ []) (place : x.place = k)
  | later {x : Entry} (entry : x ∈ entries) (long : x.long ≠ []) (above : x.place < k)
      (below : k < x.place + slotCount x.long)
  | real {x : Entry} (entry : x ∈ entries) (place : x.place + slotCount x.long = k)

section
variable {D : Mem} {last n : Nat} {entries : List Entry}

lemma Laid.le (laid : Laid D last n entries) : n ≤ last := by
  induction laid with
  | done => exact le_rfl
  | deleted _ _ ih => exact Nat.le_of_succ_le ih
  | label _ _ ih => exact Nat.le_of_succ_le ih
  | short _ _ ih => exact Nat.le_of_succ_le ih
  | long _ _ _ _ ih => omega

lemma Laid.lies (laid : Laid D last n entries) :
    ∀ x ∈ entries, x.Lies D ∧ x.place + slotCount x.long < last := by
  induction laid with
  | done =>
    intro x member
    cases member
  | deleted _ _ ih => exact ih
  | label _ _ ih => exact ih
  | short is rest ih =>
    intro x member
    rcases List.mem_cons.mp member with rfl | member
    · refine ⟨⟨fun some => absurd rfl some, ?_, ?_⟩, ?_⟩
      · rwa [slotCount_nil]
      · rw [slotCount_nil]
        rfl
      · rw [slotCount_nil]
        exact rest.le
    · exact ih x member
  | long name is _ rest ih =>
    intro x member
    rcases List.mem_cons.mp member with rfl | member
    · exact ⟨⟨fun _ => name, is, rfl⟩, rest.le⟩
    · exact ih x member

lemma Laid.above (laid : Laid D last n entries) : ∀ x ∈ entries, n ≤ x.place := by
  induction laid with
  | done =>
    intro x member
    cases member
  | deleted _ _ ih => exact fun x member => Nat.le_of_succ_le (ih x member)
  | label _ _ ih => exact fun x member => Nat.le_of_succ_le (ih x member)
  | short _ _ ih =>
    intro x member
    rcases List.mem_cons.mp member with rfl | member
    · exact le_rfl
    · exact Nat.le_of_succ_le (ih x member)
  | long _ _ _ _ ih =>
    intro x member
    rcases List.mem_cons.mp member with rfl | member
    · exact le_rfl
    · exact le_trans (Nat.le_succ_of_le (Nat.le_add_right _ _)) (ih x member)

lemma Laid.apart (laid : Laid D last n entries) : ∀ x ∈ entries, ∀ y ∈ entries,
    x.place < y.place → x.place + slotCount x.long < y.place := by
  induction laid with
  | done =>
    intro x member
    cases member
  | deleted _ _ ih => exact ih
  | label _ _ ih => exact ih
  | @short n _ _ rest ih =>
    intro x member y member' before
    rcases List.mem_cons.mp member with rfl | member
    · rwa [slotCount_nil]
    rcases List.mem_cons.mp member' with rfl | member'
    · have above : n + 1 ≤ x.place := rest.above x member
      exact absurd before (by dsimp only; omega)
    · exact ih x member y member' before
  | @long n _ long _ _ _ rest ih =>
    intro x member y member' before
    rcases List.mem_cons.mp member with rfl | member
    · rcases List.mem_cons.mp member' with rfl | member'
      · exact absurd before (lt_irrefl _)
      · exact rest.above y member'
    · rcases List.mem_cons.mp member' with rfl | member'
      · have above : n + slotCount long + 1 ≤ x.place := rest.above x member
        exact absurd before (by dsimp only; omega)
      · exact ih x member y member' before

lemma SlotIs.cons {k : Nat} (slot : SlotIs D entries k) (x : Entry) :
    SlotIs D (x :: entries) k := by
  cases slot with
  | deleted flag => exact .deleted flag
  | label is => exact .label is
  | first entry long place => exact .first (List.mem_cons_of_mem x entry) long place
  | later entry long above below => exact .later (List.mem_cons_of_mem x entry) long above below
  | real entry place => exact .real (List.mem_cons_of_mem x entry) place

lemma Laid.slotIs (laid : Laid D last n entries) {k : Nat} (above : n ≤ k) (below : k < last) :
    SlotIs D entries k := by
  induction laid with
  | done => omega
  | deleted flag _ ih =>
    rcases eq_or_lt_of_le above with rfl | later
    · exact .deleted flag
    · exact ih later
  | label is _ ih =>
    rcases eq_or_lt_of_le above with rfl | later
    · exact .label is
    · exact ih later
  | short _ _ ih =>
    rcases eq_or_lt_of_le above with rfl | later
    · exact .real List.mem_cons_self (by rw [slotCount_nil]; rfl)
    · exact (ih later).cons _
  | @long n entries long name _ _ _ ih =>
    by_cases inside : k ≤ n + slotCount long
    · rcases eq_or_lt_of_le above with same | later
      · exact .first List.mem_cons_self name.some same
      · rcases eq_or_lt_of_le inside with same | before
        · exact .real List.mem_cons_self same.symm
        · exact .later List.mem_cons_self name.some later before
    · exact (ih (by omega)).cons _

end

/-- A directory: its slots, of which one is free or which all are taken, and its entries, no two of
which have a name in common. -/
structure Directory where
  slots : Mem
  total : Nat
  last : Nat
  entries : List Entry
  laid : Laid slots last 0 entries
  inside : last ≤ total
  ended : last = total ∨ slotId slots last = 0
  distinct : ∀ x ∈ entries, ∀ y ∈ entries, ∀ component, x.Named component → y.Named component →
    x = y

/-- A volume on a disk: where its partition starts, what is in its boot sector, and its sectors. -/
structure Layout where
  medium : Medium
  partOffset : UInt32
  bs : BootSector
  fatsize : FatSize
  total : Nat
  valid : Valid bs fatsize total

variable (l : Layout)

def Layout.bytesFrom (sector : Nat) : Mem := view l.medium (UInt32.ofNat sector + l.partOffset)

def Layout.table : Mem := l.bytesFrom l.bs.reserved.toNat

def Layout.clusterSize : Nat := l.bs.clusterSize.toNat * 512
def Layout.clusterSlots : Nat := l.bs.clusterSize.toNat * 16

def Layout.cluster (n : UInt32) : Mem := l.bytesFrom (clusterSector l.bs l.fatsize n.toNat)

def Layout.chainView (chain : List UInt32) : Mem :=
  fun k => l.cluster (chain.getD (k / l.clusterSize) 0) (k % l.clusterSize)

def Layout.chainBytes (chain : List UInt32) : List UInt8 :=
  chain.flatMap fun n => slice (l.cluster n) 0 l.clusterSize

def endOfChain : FatSize → Nat
  | .fat12 => 0xff8
  | .fat16 => 0xfff8
  | .fat32 => 0xffffff8

structure IsCluster (n : UInt32) : Prop where
  inside : InVolume l.bs l.fatsize l.total n.toNat
  high : n.toNat ≤ lastCluster l.fatsize

/-- Clusters of the volume, each with the number of the next in its entry. -/
structure Linked (chain : List UInt32) : Prop where
  clusters : ∀ n ∈ chain, IsCluster l n
  next : ∀ t, t + 1 < chain.length →
    tableEntry l.table l.fatsize (chain.getD t 0).toNat = (chain.getD (t + 1) 0).toNat

structure DirAt (first : UInt32) (d : Directory) (chain : List UInt32) : Prop where
  head : chain.head? = some first
  linked : Linked l chain
  ended : endOfChain l.fatsize ≤
    tableEntry l.table l.fatsize (chain.getD (chain.length - 1) 0).toNat
  slots : ∀ k < 32 * d.total, d.slots k = l.chainView chain k
  total : d.total = chain.length * l.clusterSlots

structure FileAt (dent : DirEntry) (chain : List UInt32) : Prop where
  start : ∀ n ∈ chain.head?, dent.startClust l.fatsize = n
  linked : Linked l chain
  long : dent.size.toNat ≤ chain.length * l.clusterSize

/-- The first cluster of the root directory of FAT32. -/
def Layout.rootCluster : UInt32 := UInt32.ofNat (fat2cpu32 (l.bytesFrom 0) 44)

/-- The root directory: in sectors of its own, or in a chain of clusters. -/
inductive RootAt (d : Directory) : Prop
  | sectors (narrow : l.fatsize ≠ .fat32)
      (slots : ∀ k < 32 * d.total, d.slots k = l.bytesFrom (rootStart l.bs l.fatsize) k)
      (total : d.total = l.bs.dirEntries.toNat)
  | clusters (wide : l.fatsize = .fat32) {chain : List UInt32}
      (chained : DirAt l l.rootCluster d chain)

/-- The directory that an entry leads to; one that starts in cluster 0 is the root directory. -/
inductive Leads (x : Entry) (d : Directory) : Prop
  | root (zero : x.dent.startClust l.fatsize = 0) (is : RootAt l d)
  | chain {chain : List UInt32} (is : DirAt l (x.dent.startClust l.fatsize) d chain)

def components (path : List UInt8) : List (List UInt8) :=
  (path.splitOnP isDirDelim).filter fun component => !component.isEmpty

inductive Resolves : Directory → List (List UInt8) → Option Entry → Prop
  | here {d : Directory} : Resolves d [] none
  | missing {d : Directory} {component : List UInt8} {rest : List (List UInt8)}
      (unnamed : ∀ x ∈ d.entries, ¬ x.Named component) : Resolves d (component :: rest) none
  | file {d : Directory} {x : Entry} {component : List UInt8} (entry : x ∈ d.entries)
      (named : x.Named component) (regular : ¬ x.IsDir) : Resolves d [component] (some x)
  | directory {d : Directory} {x : Entry} {component : List UInt8} (entry : x ∈ d.entries)
      (named : x.Named component) (is : x.IsDir) : Resolves d [component] none
  | through {d : Directory} {x : Entry} {component next : List UInt8} {rest : List (List UInt8)}
      (entry : x ∈ d.entries) (named : x.Named component) (regular : ¬ x.IsDir) :
      Resolves d (component :: next :: rest) none
  | into {d d' : Directory} {x : Entry} {component next : List UInt8} {rest : List (List UInt8)}
      {result : Option Entry} (entry : x ∈ d.entries) (named : x.Named component)
      (is : x.IsDir) (leads : Leads l x d') (onwards : Resolves d' (next :: rest) result) :
      Resolves d (component :: next :: rest) result

end FatDirectory
