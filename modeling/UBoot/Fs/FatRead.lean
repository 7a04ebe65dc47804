import UBoot.Fs.Fat

/-!
# Finding and reading a file (fs/fat/fat.c)

`get_dentfromdir` and `do_fat_read`, but for what they print of a directory: where they list one, no
entry is compared with a name. A loop gets fuel; there is no defined result where a buffer is left.
-/

namespace FatRead

open ByteMemory Fat FatNames

def attrVolume : UInt8 := 8
def attrDir : UInt8 := 16
def attrVfat : UInt8 := 15

/-- The attributes of the entry at place `i` of a block. -/
def attrOf (block : Mem) (i : Nat) : UInt8 := block (direntSize * i + 11)

def direntOf (block : Mem) (i : Nat) : DirEntry where
  name := slice block (direntSize * i) 11
  attr := attrOf block i
  starthi := UInt16.ofNat (fat2cpu16 block (direntSize * i + 20))
  start := UInt16.ofNat (fat2cpu16 block (direntSize * i + 26))
  size := UInt32.ofNat (fat2cpu32 block (direntSize * i + 28))

/-- The buffers that a search changes: that of the table, that of the directory, which is
`do_fat_read_block` or `get_dentfromdir_block`, and `get_vfatname_block`. -/
structure Walk where
  mydata : Fsdata
  block : Mem
  nameBlock : Mem

inductive Seen where
  | passed (w : Walk)
  | matched (dent : DirEntry) (w : Walk)
  | ended (w : Walk)
  | unread (w : Walk)
  | outside

def compareEntry (filename lName : List UInt8) (w : Walk) (i : Nat) : Seen :=
  let sName := getName w.block (direntSize * i)
  if filename ≠ sName ∧ filename ≠ lName then .passed w else .matched (direntOf w.block i) w

/-- The long name that starts in the slot at place `i`; the slot is the real entry then. -/
def longName (disk : Disk) (curclust : UInt32) (w : Walk) (i : Nat) :
    Option (List UInt8 × Walk) :=
  match getVfatname disk w.mydata curclust w.block i w.nameBlock with
  | none => none
  | some name => some (name.lName, ⟨name.mydata, name.cluster, name.block⟩)

def startsName (block : Mem) (i : Nat) : Prop :=
  attrOf block i &&& attrVfat ≠ 0 ∧ isLast block i = true

instance startsNameDecidable (block : Mem) (i : Nat) : Decidable (startsName block i) :=
  inferInstanceAs (Decidable (_ ∧ _))

def ordinaryEntry (dols : Bool) (filename lName : List UInt8) (w : Walk) (i : Nat) : Seen :=
  if slotId w.block i = 0 then .ended w
  else if dols then .passed w
  else compareEntry filename lName w i

def dirEntry (disk : Disk) (dols : Bool) (filename : List UInt8) (curclust : UInt32) (w : Walk)
    (i : Nat) : Seen :=
  if slotId w.block i = deletedFlag then .passed w
  else if attrOf w.block i &&& attrVolume ≠ 0 then
    if startsName w.block i then
      match longName disk curclust w i with
      | none => .outside
      | some (lName, w) => if dols then .passed w else ordinaryEntry dols filename lName w i
    else .passed w
  else ordinaryEntry dols filename [] w i

/-- The body of the loop of `do_fat_read`; `listing` is dols == LS_ROOT. -/
def rootEntry (disk : Disk) (listing : Bool) (fnamecopy : List UInt8) (w : Walk) (i : Nat) : Seen :=
  if attrOf w.block i &&& attrVolume ≠ 0 then
    if startsName w.block i then
      match longName disk 0 w i with
      | none => .outside
      | some (lName, w) => if listing then .passed w else compareEntry fnamecopy lName w i
    else .passed w
  else if slotId w.block i = 0 then .ended w
  else if listing then .passed w
  else compareEntry fnamecopy [] w i

def scan (entry : Walk → Nat → Seen) : Nat → Nat → Walk → Seen
  | 0, _, w => .passed w
  | left + 1, i, w =>
    match entry w i with
    | .passed w => scan entry left (i + 1) w
    | seen => seen

/-- `get_dentfromdir` from a cluster on; `.ended` is NULL. -/
def getDentfromdir (disk : Disk) (dols : Bool) (filename : List UInt8) :
    Nat → UInt32 → Walk → Option Seen
  | 0, _, _ => none
  | fuel + 1, curclust, w =>
    let g := w.mydata.toGeometry
    if maxClustsize < g.clustSize.toNat * sectorSize then some .outside
    else
      match getCluster disk g curclust w.block 0 (bytesperclust g) with
      | (false, block) => some (.unread { w with block := block })
      | (true, block) =>
        match scan (dirEntry disk dols filename curclust) (direntsPerClust g) 0
            { w with block := block } with
        | .passed w =>
          let (mydata, next) := getFatent disk w.mydata curclust
          let w := { w with mydata := mydata }
          if checkClust next mydata.fatsize then some (.ended w)
          else getDentfromdir disk dols filename fuel next w
        | seen => some seen

def direntsPerBlock : Nat := sectorSize / direntSize

/-- The loop of `do_fat_read` over the root directory, from a sector on. -/
def rootSearch (disk : Disk) (listing : Bool) (fnamecopy : List UInt8) :
    Nat → UInt32 → Walk → Option Seen
  | 0, _, _ => none
  | fuel + 1, cursect, w =>
    if maxClustsize < w.mydata.clustSize.toNat * sectorSize then some .outside
    else
      let (ret, block) := diskRead disk cursect w.mydata.clustSize.toUInt32 w.block 0
      if ret < 0 then some (.unread { w with block := block })
      else
        match scan (rootEntry disk listing fnamecopy) direntsPerBlock 0
            { w with block := block } with
        | .passed w => rootSearch disk listing fnamecopy fuel (cursect + 1) w
        | seen => some seen

def isDirDelim (c : UInt8) : Bool := c = 47 ∨ c = 92

/-- "Get the first occurence of a directory delimiter", none for -1. -/
def dirdelim (str : List UInt8) : Option Nat := str.findIdx? isDirDelim

def skipDelims (str : List UInt8) : List UInt8 := str.dropWhile isDirDelim

/-- What `do_fat_read` returns, and the memory that it leaves. -/
inductive Outcome where
  | returned (ret : Int) (m : Mem)
  | outside

structure Request where
  m : Mem
  buffer : Nat
  maxsize : UInt32
  dols : Bool

def readContents (disk : Disk) (req : Request) (fuel : Nat) (dent : DirEntry) (mydata : Fsdata) :
    Option Outcome :=
  match getContents disk mydata dent req.m req.buffer req.maxsize fuel with
  | none => none
  | some contents => some (.returned contents.ret contents.mem)

/-- What is made of a search: NULL gives `null`, and with an entry it goes on. A search that has
come to its end has not just passed a block. -/
def afterSearch (seen : Option Seen) (null : Option Outcome)
    (go : DirEntry → Walk → Option Outcome) : Option Outcome :=
  match seen with
  | none => none
  | some (.passed _) => none
  | some .outside => some .outside
  | some (.matched dent w) => go dent w
  | some (.ended _) => null
  | some (.unread _) => null

/-- "while (isdir)", with as many turns as `turns`: the directory `dent` is searched for the first
part of `subname`. -/
def walkPath (disk : Disk) (req : Request) (fuel : Nat) :
    Nat → Bool → List UInt8 → DirEntry → Walk → Option Outcome
  | 0, _, _, _, _ => none
  | turns + 1, firsttime, subname, dent, w =>
    let start := dent.startClust w.mydata.fatsize
    match dirdelim subname with
    | some idx =>
      let nextname := skipDelims (subname.drop (idx + 1))
      let firsttime := firsttime && !(req.dols && nextname.isEmpty)
      afterSearch (getDentfromdir disk false (subname.take idx) fuel start w)
        (some (.returned (-1) req.m)) fun dent w =>
          if dent.attr &&& attrDir = 0 then some (.returned (-1) req.m)
          else walkPath disk req fuel turns firsttime nextname dent w
    | none =>
      if req.dols && firsttime then
        afterSearch (getDentfromdir disk false subname fuel start w) (some (.returned (-1) req.m))
          fun dent w => walkPath disk req fuel turns false subname dent w
      else
        afterSearch (getDentfromdir disk req.dols subname fuel start w)
          (some (.returned (if req.dols then 0 else -1) req.m))
          fun dent w => readContents disk req fuel dent w.mydata

/-- The static buffers, and what `fatbuf` holds as a local variable. -/
structure Buffers where
  fatbuf : Mem
  rootBlock : Mem          -- do_fat_read_block
  dirBlock : Mem           -- get_dentfromdir_block
  nameBlock : Mem          -- get_vfatname_block

def fnamecopySize : Nat := 2048

/-- `do_fat_read` behind the search of the root directory: `subname` is what is left of the path
if it goes on. -/
def readFound (disk : Disk) (req : Request) (buffers : Buffers) (fuel : Nat)
    (subname : Option (List UInt8)) (dent : DirEntry) (w : Walk) : Option Outcome :=
  match subname with
  | some subname =>
    if dent.attr &&& attrDir = 0 then some (.returned (-1) req.m)
    else walkPath disk req fuel fuel true subname dent { w with block := buffers.dirBlock }
  | none => readContents disk req fuel dent w.mydata

def lsRoot : Int := 2

/-- The name in the root directory, and the rest of the path: `isdir` and `subname`. A name alone is
a directory where it is to be listed. -/
def splitPath (fnamecopy : List UInt8) (dols : Int) : List UInt8 × Option (List UInt8) :=
  if fnamecopy = [] then ([], none)
  else
    match dirdelim fnamecopy with
    | some idx => (fnamecopy.take idx, some (skipDelims (fnamecopy.drop (idx + 1))))
    | none => (fnamecopy, if dols = 0 then none else some [])

/-- `do_fat_read` with the volume mounted and the path split. -/
def readMounted (disk : Disk) (buffers : Buffers) (mydata : Fsdata)
    (path : List UInt8 × Option (List UInt8)) (m : Mem) (buffer : Nat) (maxsize : UInt32)
    (dols : Int) (fuel : Nat) : Option Outcome :=
  match rootSearch disk (dols = lsRoot) path.1 fuel mydata.rootdirSect.toUInt32
      ⟨mydata, buffers.rootBlock, buffers.nameBlock⟩ with
  | some (.unread _) => some (.returned (-1) m)
  | seen =>
    afterSearch seen (some (.returned (if dols = lsRoot then 0 else -1) m)) fun dent w =>
      readFound disk ⟨m, buffer, maxsize, dols ≠ 0⟩ buffers fuel path.2 dent w

/-- `do_fat_read`. An empty path lists the root directory. -/
def doFatRead (disk : Disk) (buffers : Buffers) (filename : List UInt8) (m : Mem) (buffer : Nat)
    (maxsize : UInt32) (dols : Int) (fuel : Nat) : Option Outcome :=
  match readBootsectandvi disk with
  | none => some (.returned (-1) m)
  | some (bs, fatsize) =>
    let filename := skipDelims filename
    if fnamecopySize ≤ filename.length then some .outside
    else
      let fnamecopy := downcase filename
      if fnamecopy = [] ∧ dols = 0 then some (.returned (-1) m)
      else
        let dols := if fnamecopy = [] then lsRoot else dols
        readMounted disk buffers (mount bs fatsize buffers.fatbuf) (splitPath fnamecopy dols) m
          buffer maxsize dols fuel

end FatRead
