import Mathlib.Logic.Function.Basic
import UBoot.Lib.ByteOrder
import UBoot.Lib.Dialogue

/-!
# Paths on an ext2 volume (fs/ext2/ext2fs.c)

`ext2fs_find_file` asks for the entry of a name in a directory and for the text of a symbolic link,
and keeps the nodes that it is given until it frees them. Texts are without the NUL.
-/

namespace Ext2Path

open Dialogue LittleEndian

abbrev Bytes := Nat → UInt8

abbrev Text := List UInt8

def slash : UInt8 := 47

inductive FileType where
  | unknown
  | reg
  | directory
  | symlink
  deriving DecidableEq

/-- The union `b` is the bytes of a short symbolic link, or the numbers of blocks. -/
structure Inode where
  mode : Nat
  size : UInt32
  b : Bytes

/-- What the search reads of a volume: `ext2fs_read_inode`, and `ext2fs_read_file` with what it
stores; whether there is memory; and the inode of `ext2fs_root->diropen`. -/
structure Source where
  readInode : Nat → Option Inode
  readFile : Inode → Nat → Nat → Int × Bytes
  malloc : Nat → Bool
  root : Inode

/-- `struct ext2fs_node`; the inode is there when `inode_read` is set. -/
structure Node where
  ino : Nat
  inode : Option Inode

def nodeSize : Nat := 140

def rootIno : Nat := 2

def Source.inode (src : Source) (node : Node) : Option Inode :=
  node.inode <|> src.readInode node.ino

structure Dirent where
  inode : Nat
  direntlen : Nat
  namelen : Nat
  filetype : Nat

def direntSize : Nat := 8

def dirent (data : Bytes) : Dirent where
  inode := word 4 data
  direntlen := word 2 fun i => data (4 + i)
  namelen := (data 6).toNat
  filetype := (data 7).toNat

/-- FILETYPE_DIRECTORY, FILETYPE_SYMLINK and FILETYPE_REG -/
def typeOfEntry (filetype : Nat) : FileType :=
  if filetype = 2 then .directory
  else if filetype = 7 then .symlink
  else if filetype = 1 then .reg
  else .unknown

/-- FILETYPE_INO_DIRECTORY, FILETYPE_INO_SYMLINK and FILETYPE_INO_REG, under FILETYPE_INO_MASK -/
def typeOfMode (mode : Nat) : FileType :=
  if mode &&& 0o170000 = 0o040000 then .directory
  else if mode &&& 0o170000 = 0o120000 then .symlink
  else if mode &&& 0o170000 = 0o100000 then .reg
  else .unknown

def string (n : Nat) (data : Bytes) : Text := ((List.range n).map data).takeWhile (· ≠ 0)

def entryNode (src : Source) (d : Dirent) : Option (Node × FileType) :=
  if d.filetype ≠ 0 then some (⟨d.inode, none⟩, typeOfEntry d.filetype)
  else (src.readInode d.inode).map fun inode => (⟨d.inode, some inode⟩, typeOfMode inode.mode)

inductive Turn where
  | stop
  | found (node : Node) (type : FileType)
  | on (fpos : Nat)

/-- The turn for the entry at `fpos`; the node of an entry with another name is freed at once. -/
def turn (src : Source) (inode : Inode) (name : Text) (fpos : Nat) : Turn :=
  let header := src.readFile inode fpos direntSize
  if header.1 < 1 then .stop
  else
    let d := dirent header.2
    let next := (fpos + d.direntlen) % 2 ^ 32
    if d.namelen ≠ 0 then
      let filename := src.readFile inode ((fpos + direntSize) % 2 ^ 32) d.namelen
      if filename.1 < 1 then .stop
      else if ¬ src.malloc nodeSize then .stop
      else
        match entryNode src d with
        | none => .stop
        | some (node, type) =>
          if string d.namelen filename.2 = name then .found node type else .on next
    else .on next

def walk (src : Source) (inode : Inode) (name : Text) :
    (turns fpos : Nat) → Option (Option (Node × FileType))
  | 0, _ => none
  | turns + 1, fpos =>
    if fpos < inode.size.toNat then
      match turn src inode name fpos with
      | .stop => some none
      | .found node type => some (some (node, type))
      | .on next => walk src inode name turns next
    else some none

def ext2fsIterateDir (src : Source) (turns : Nat) (dir : Node) (name : Text) :
    Option (Option (Node × FileType)) :=
  match src.inode dir with
  | none => some none
  | some inode => walk src inode name turns 0

def ext2fsReadSymlink (src : Source) (node : Node) : Option Text :=
  match src.inode node with
  | none => none
  | some inode =>
    if ¬ src.malloc ((inode.size.toNat + 1) % 2 ^ 32) then none
    else if inode.size.toNat ≤ 60 then some (string inode.size.toNat inode.b)
    else
      let symlink := src.readFile inode 0 inode.size.toNat
      if symlink.1 = 0 then none else some (string inode.size.toNat symlink.2)

/-- `&ext2fs_root->diropen`, or what has been allocated -/
inductive Ref where
  | diropen
  | heap (id : Nat)
  deriving DecidableEq

structure State where
  nodes : Nat → Option Node
  next : Nat
  symlinknest : Nat

def Source.node (src : Source) (s : State) : Ref → Option Node
  | .diropen => some ⟨rootIno, some src.root⟩
  | .heap id => s.nodes id

def State.alloc (s : State) (node : Node) : State :=
  { s with nodes := Function.update s.nodes s.next (some node), next := s.next + 1 }

def State.free (s : State) (id : Nat) : State :=
  { s with nodes := Function.update s.nodes id none }

inductive Query where
  | iterateDir (dir : Node) (name : Text)
  | readSymlink (node : Node)

structure Reply where
  entry : Option (Option (Node × FileType))
  symlink : Option Text

/-- A directory without end, or a node that has been freed is used or freed. -/
inductive Fault where
  | endless
  | freed

abbrev Find (α : Type) : Type := Prog Query Reply Fault α

/-- `currfound`, and `foundtype` when it is set; `none` for 0 -/
abbrev Found := Option (Ref × Option FileType) × State

def ext2fsFreeNode (node currroot : Ref) (s : State) (k : State → Find Found) : Find Found :=
  match node with
  | .diropen => k s
  | .heap id =>
    if node = currroot then k s
    else if (s.nodes id).isSome then k (s.free id)
    else .fault .freed

def components (path : Text) : List Text := (path.splitOn slash).filter (· ≠ [])

def lookupLink (self : Text → Ref → State → Find Found) (currroot oldnode : Ref) (symlink : Text)
    (s : State) (k : Ref → Ref → FileType → State → Find Found) : Find Found :=
  self symlink oldnode s >>= fun (found, s) =>
    match found with
    | none => ext2fsFreeNode oldnode currroot s fun s => .done (none, s)
    | some (currnode, foundtype) => k oldnode currnode (foundtype.getD .symlink) s

def followLink (src : Source) (self : Text → Ref → State → Find Found)
    (currroot oldnode currnode : Ref) (s : State)
    (k : Ref → Ref → FileType → State → Find Found) : Find Found :=
  let s := { s with symlinknest := s.symlinknest + 1 }
  if s.symlinknest = 8 then
    ext2fsFreeNode currnode currroot s fun s =>
      ext2fsFreeNode oldnode currroot s fun s => .done (none, s)
  else
    match src.node s currnode with
    | none => .fault .freed
    | some node => .ask (.readSymlink node) fun r =>
      ext2fsFreeNode currnode currroot s fun s =>
        match r.symlink with
        | none => ext2fsFreeNode oldnode currroot s fun s => .done (none, s)
        | some symlink =>
          if symlink.head? = some slash then
            ext2fsFreeNode oldnode currroot s fun s =>
              lookupLink self currroot .diropen symlink s k
          else lookupLink self currroot oldnode symlink s k

def follow (src : Source) (self : Text → Ref → State → Find Found) (currroot : Ref) :
    List Text → Ref → FileType → State → Find Found
  | [], currnode, type, s => .done (some (currnode, some type), s)
  | name :: next, currnode, type, s =>
    if type ≠ .directory then ext2fsFreeNode currnode currroot s fun s => .done (none, s)
    else
      match src.node s currnode with
      | none => .fault .freed
      | some dir => .ask (.iterateDir dir name) fun r =>
        match r.entry with
        | none => .fault .endless
        | some none => .done (none, s)
        | some (some (node, type)) =>
          if type = .symlink then
            followLink src self currroot currnode (.heap s.next) (s.alloc node)
              fun oldnode currnode type s => ext2fsFreeNode oldnode currroot s fun s =>
                follow src self currroot next currnode type s
          else
            ext2fsFreeNode currnode currroot (s.alloc node) fun s' =>
              follow src self currroot next (.heap s.next) type s'

/-- `ext2fs_find_file1`, as deep as symbolic links go. -/
def ext2fsFindFile1 (src : Source) : (depth : Nat) → Text → Ref → State → Find Found
  | 0, _, _, _ => .fault .endless
  | depth + 1, currpath, currroot, s =>
    match components currpath with
    | [] => .done (some (currroot, none), s)
    | names => follow src (ext2fsFindFile1 src depth) currroot names currroot .directory s

/-- FILETYPE_REG and FILETYPE_DIRECTORY, which are what the callers expect -/
inductive Expected where
  | reg
  | directory

def Expected.type : Expected → FileType
  | reg => .reg
  | directory => .directory

/-- `ext2fs_find_file` from the root: `foundnode`, or `none` for 0 -/
def ext2fsFindFile (src : Source) (path : Text) (expecttype : Expected) :
    Find (Option Ref × State) :=
  ext2fsFindFile1 src 9 path .diropen ⟨fun _ => none, 0, 0⟩ >>= fun (found, s) =>
    match found with
    | none => .done (none, s)
    | some (foundnode, foundtype) =>
      if foundtype.getD .directory ≠ expecttype.type then .done (none, s)
      else .done (some foundnode, s)

def Source.reply (src : Source) (turns : Nat) : Query → Reply
  | .iterateDir dir name => ⟨ext2fsIterateDir src turns dir name, none⟩
  | .readSymlink node => ⟨some none, ext2fsReadSymlink src node⟩

def Source.findFile (src : Source) (turns : Nat) (path : Text) (expecttype : Expected) :
    Except Fault (Option Ref × State) :=
  (ext2fsFindFile src path expecttype).outcome fun _ => src.reply turns

/-!
## Trees of directories (fs/ext2/ext2fs.c)

The tree that a volume holds, the resolution of paths in it, and how the volume is read when it is
well formed.
-/

structure Entry where
  ino : Nat
  direntlen : Nat
  name : Text
  filetype : Nat

structure Tree where
  kind : Nat → FileType
  entries : Nat → List Entry
  target : Nat → Text

def Tree.lookup (t : Tree) (dir : Nat) (name : Text) : Option Nat :=
  ((t.entries dir).find? fun e => e.ino ≠ 0 ∧ e.name = name).map Entry.ino

def from_ (dir : Nat) (text : Text) : Nat := if text.head? = some slash then rootIno else dir

/-- The parts of a path, with an empty one for slashes at its end, which stand behind a directory
only. -/
def parts (path : Text) : List Text :=
  components path ++ if path.getLast? = some slash then [[]] else []

/-- From a directory on, up to the first symbolic link; what it stands for is put in front of the
rest. -/
def Tree.steps (t : Tree) (left : Nat) (link : Nat → Nat → List Text → Option (Nat × Nat)) :
    Nat → List Text → Option (Nat × Nat)
  | ino, [] => some (ino, left)
  | ino, name :: rest =>
    if t.kind ino ≠ .directory then none
    else if name = [] then t.steps left link ino rest
    else
      match t.lookup ino name with
      | none => none
      | some i => if t.kind i = .symlink then link ino i rest else t.steps left link i rest

/-- The inode that the parts of a path lead to, with the symbolic links that are still allowed. -/
def Tree.resolve (t : Tree) (read : Text → List Text) :
    (links : Nat) → Nat → List Text → Option (Nat × Nat)
  | 0 => t.steps 0 fun _ _ _ => none
  | links + 1 => t.steps (links + 1) fun dir i rest =>
    t.resolve read links (from_ dir (t.target i)) (read (t.target i) ++ rest)

/-- POSIX resolution of a path from the root, with at most 7 symbolic links. -/
def Tree.posix (t : Tree) (path : Text) : Option Nat :=
  if path = [] then none else (t.resolve parts 7 rootIno (parts path)).map Prod.fst

/-- The same, but slashes at the end of a path or of a symbolic link say nothing, and the empty path
is the root. -/
def Tree.loose (t : Tree) (path : Text) : Option Nat :=
  (t.resolve components 7 rootIno (components path)).map Prod.fst

def Tree.expecting (t : Tree) (expecttype : Expected) (found : Option Nat) : Option Nat :=
  found.filter (t.kind · = expecttype.type)

inductive Laid (src : Source) (t : Tree) (inode : Inode) : Nat → List Entry → Prop where
  | nil {p : Nat} : p = inode.size.toNat → Laid src t inode p []
  | cons {p : Nat} {e : Entry} {es : List Entry} {data filename : Bytes} :
      p + e.direntlen ≤ inode.size.toNat →
      direntSize + e.name.length ≤ e.direntlen →
      src.readFile inode p direntSize = ((direntSize : Int), data) →
      dirent data = ⟨e.ino, e.direntlen, e.name.length, e.filetype⟩ →
      (e.name ≠ [] → src.readFile inode (p + direntSize) e.name.length =
        ((e.name.length : Int), filename)) →
      (∀ k (inside : k < e.name.length), filename k = e.name[k]) →
      (∀ c ∈ e.name, c ≠ 0 ∧ c ≠ slash) →
      (e.ino ≠ 0 → e.name ≠ [] → (∃ i, src.readInode e.ino = some i ∧
        typeOfMode i.mode = t.kind e.ino) ∧
        (e.filetype ≠ 0 → typeOfEntry e.filetype = t.kind e.ino)) →
      Laid src t inode (p + e.direntlen) es → Laid src t inode p (e :: es)

/-- A volume that holds the tree. A symbolic link of less than 60 bytes is in its inode. -/
structure WellFormed (src : Source) (t : Tree) : Prop where
  memory : ∀ n, src.malloc n
  root : src.readInode rootIno = some src.root
  rootKind : t.kind rootIno = .directory
  directories : ∀ i, t.kind i = .directory →
    ∃ inode, src.readInode i = some inode ∧ Laid src t inode 0 (t.entries i)
  links : ∀ i, t.kind i = .symlink → ∃ inode, src.readInode i = some inode ∧
    inode.size.toNat = (t.target i).length ∧ t.target i ≠ [] ∧ (∀ c ∈ t.target i, c ≠ 0) ∧
    ((t.target i).length < 60 → ∀ k (inside : k < (t.target i).length),
      inode.b k = (t.target i)[k]) ∧
    (60 ≤ (t.target i).length → ∃ data,
      src.readFile inode 0 (t.target i).length = (((t.target i).length : Int), data) ∧
        ∀ k (inside : k < (t.target i).length), data k = (t.target i)[k])

inductive Comes (src : Source) (inode : Inode) (name : Text) : Nat → Prop where
  | start : 0 < inode.size.toNat → Comes src inode name 0
  | next {p q : Nat} : Comes src inode name p → turn src inode name p = .on q →
      q < inode.size.toNat → Comes src inode name q

def Source.dirent (src : Source) (inode : Inode) (p : Nat) : Dirent :=
  Ext2Path.dirent (src.readFile inode p direntSize).2

def Source.filename (src : Source) (inode : Inode) (p : Nat) : Text :=
  string (src.dirent inode p).namelen
    (src.readFile inode ((p + direntSize) % 2 ^ 32) (src.dirent inode p).namelen).2

def Safe (src : Source) : Query → Prop
  | .iterateDir dir name => ∀ inode, src.inode dir = some inode → ∀ p q,
      Comes src inode name p → turn src inode name p = .on q → p < q
  | .readSymlink node => ext2fsReadSymlink src node ≠ some []

/-- An entry without an inode that the loop comes to has another name, and a type or an inode 0 that
can be read; a text is not made of slashes, and not of 60 bytes. -/
def Clear (src : Source) : Query → Prop
  | .iterateDir dir name => ∀ inode, src.inode dir = some inode → ∀ p, Comes src inode name p →
      (src.dirent inode p).inode = 0 → (src.dirent inode p).namelen ≠ 0 →
        src.filename inode p ≠ name ∧
          ((src.dirent inode p).filetype = 0 → (src.readInode 0).isSome)
  | .readSymlink node => (∀ inode, src.inode node = some inode → inode.size.toNat ≠ 60) ∧
      ∀ text, ext2fsReadSymlink src node = some text → ∃ c ∈ text, c ≠ slash

def Source.Asks (src : Source) (ok : Query → Prop) (path : Text) (expecttype : Expected) : Prop :=
  ∀ turns, (ext2fsFindFile src path expecttype).Obeys (fun q _ => ok q) fun _ => src.reply turns

/-- Everything the search asks for is safe; on a well-formed volume it is clear as well, and slashes
at an end and the empty path make no difference. -/
structure Meets (src : Source) (t : Tree) (path : Text) (expecttype : Expected) : Prop where
  safe : src.Asks (Safe src) path expecttype
  clear : WellFormed src t → src.Asks (Clear src) path expecttype
  ends : WellFormed src t →
    t.expecting expecttype (t.posix path) = t.expecting expecttype (t.loose path)

/-- The search ends, uses and frees no node that has been freed, and returns a node that has not;
on a well-formed volume it succeeds just when the path leads to an inode of the expected type, with
this inode. -/
def Right (src : Source) (t : Tree) (path : Text) (expecttype : Expected) : Prop :=
  ∃ enough, ∀ turns, enough ≤ turns → ∃ found s,
    src.findFile turns path expecttype = .ok (found, s) ∧
    (∀ ref, found = some ref → (src.node s ref).isSome) ∧
    (WellFormed src t →
      (found.bind (src.node s)).map Node.ino = t.expecting expecttype (t.posix path))

end Ext2Path
