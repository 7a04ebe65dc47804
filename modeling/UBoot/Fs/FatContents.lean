import UBoot.Fs.FatTable

/-!
# The contents of a file (fs/fat/fat.c)

`get_contents` reads runs of clusters whose numbers follow one another. What it reads is the chain,
cluster by cluster, up to the first entry that it misreads: one with reserved bits, or one that
leads to a cluster whose number is taken for an end mark.
-/

namespace FatContents

open ByteMemory Fat FatTable

variable {medium : Medium} {partOffset : UInt32} {stack : Mem} {g : Geometry}

def delivering (medium : Medium) (partOffset : UInt32) (stack : Mem) : Disk where
  blockRead := some fun start n => ⟨n.toNat, slice (view medium start) 0 (512 * n.toNat)⟩
  partOffset := partOffset
  stack := stack

/-! ## Clusters -/

def clusterSize (g : Geometry) : Nat := g.clustSize.toNat * 512

/-- The bytes from a cluster on, where `data_begin` puts it. -/
def clusterView (medium : Medium) (partOffset : UInt32) (g : Geometry) (n : UInt32) : Mem :=
  view medium (startSect g n + partOffset)

lemma diskRead_delivering (start n : UInt32) (m : Mem) (buffer : Nat) :
    diskRead (delivering medium partOffset stack) start n m buffer =
      ((n.toNat : Int),
        blit m buffer (slice (view medium (start + partOffset)) 0 (512 * n.toNat))) := rfl

lemma slice_blit (m m' : Mem) {n k : Nat} (inside : n ≤ k) :
    slice (blit m 0 (slice m' 0 k)) 0 n = slice m' 0 n := by
  refine slice_congr fun i _ low => ?_
  rw [blit_slice _ _ (Nat.zero_le i) (by omega)]
  congr 1
  omega

lemma slice_view (medium : Medium) (start : UInt32) (j n : Nat) :
    slice (view medium (start + UInt32.ofNat j)) 0 n = slice (view medium start) (512 * j) n := by
  apply List.ext_getElem
  · rw [slice_length, slice_length]
  · intro k low low'
    rw [slice_get, slice_get, view_add, zero_add]

lemma blit_append (m : Mem) (a : Nat) (bs cs : List UInt8) :
    blit (blit m a bs) (a + bs.length) cs = blit m a (bs ++ cs) := by
  funext i
  by_cases below : i < a + bs.length
  · rw [blit_before _ _ below]
    by_cases before : i < a
    · rw [blit_before _ _ before, blit_before _ _ before]
    obtain ⟨j, rfl⟩ := Nat.exists_eq_add_of_le (Nat.not_lt.mp before)
    have inside : j < bs.length := by omega
    rw [blit_inside _ _ inside, blit_inside _ _ (by rw [List.length_append]; omega),
      List.getElem_append_left inside]
  · obtain ⟨j, rfl⟩ := Nat.exists_eq_add_of_le (Nat.not_lt.mp below)
    by_cases inside : j < cs.length
    · rw [blit_inside _ _ inside, add_assoc,
        blit_inside _ _ (by rw [List.length_append]; omega),
        List.getElem_append_right (Nat.le_add_right _ _)]
      congr 1
      omega
    · rw [blit_after _ _ (by omega), blit_after _ _ (by omega),
        blit_after _ _ (by rw [List.length_append]; omega)]

lemma getCluster_delivering (n : UInt32) (m : Mem) (buffer : Nat) (size : UInt32) :
    getCluster (delivering medium partOffset stack) g n m buffer size =
      (true, blit m buffer (slice (clusterView medium partOffset g n) 0 size.toNat)) := by
  have whole : (size / 512).toNat = size.toNat / 512 := UInt32.toNat_div size 512
  have rest : (size % 512).toNat = size.toNat % 512 := UInt32.toNat_mod size 512
  have counted (k : Nat) : ¬ (k : Int) < 0 := Int.not_lt.mpr (Int.natCast_nonneg k)
  rw [getCluster]
  dsimp only
  rw [diskRead_delivering, whole]
  rw [if_neg (counted _)]
  by_cases even : size % 512 = 0
  · have zero : size.toNat % 512 = 0 := by
      rw [← rest, even]
      rfl
    rw [if_pos even, clusterView, Nat.mul_div_cancel' (Nat.dvd_of_mod_eq_zero zero)]
  have sector : startSect g n + size / 512 + partOffset =
      startSect g n + partOffset + UInt32.ofNat (size.toNat / 512) := by
    rw [← whole, UInt32.ofNat_toNat, UInt32.add_assoc, UInt32.add_comm (size / 512),
      ← UInt32.add_assoc]
  have split : size.toNat = 512 * (size.toNat / 512) + size.toNat % 512 :=
    (Nat.div_add_mod _ _).symm
  rw [if_neg even, diskRead_delivering]
  rw [if_neg (counted _), rest, sector]
  have part : size.toNat % 512 ≤ 512 * (1 : UInt32).toNat :=
    Nat.le_of_lt (Nat.mod_lt size.toNat (Nat.succ_pos 511))
  rw [slice_blit _ _ part, slice_view, mul_comm (size.toNat / 512)]
  have joined := blit_append m buffer
    (slice (view medium (startSect g n + partOffset)) 0 (512 * (size.toNat / 512)))
    (slice (view medium (startSect g n + partOffset)) (512 * (size.toNat / 512))
      (size.toNat % 512))
  rw [slice_length] at joined
  rw [joined, clusterView]
  conv_rhs => rw [split, slice_append, zero_add]

/-! ## Entries -/

variable {mydata : Fsdata}

def tableOf (medium : Medium) (partOffset : UInt32) (g : Geometry) : Mem :=
  view medium (tableStart g partOffset)

def always (medium : Medium) (partOffset : UInt32) (stack : Mem) (entry : UInt32) :
    Lookup medium partOffset where
  entry := entry
  disk := delivering medium partOffset stack
  readable _ := True
  part := rfl
  absent missing := by cases missing
  whole blockRead device start n _ := by
    cases device
    rfl
  short _ _ _ _ _ _ _ := trivial

lemma getFatent_delivering (stack : Mem) (sound : Sound medium partOffset mydata)
    (length : mydata.fatlength ≠ 0) (entry : UInt32) :
    ∃ mydata', getFatent (delivering medium partOffset stack) mydata entry =
        (mydata', UInt32.ofNat
          (rawEntry (tableOf medium partOffset mydata.toGeometry) mydata.fatsize entry.toNat)) ∧
      mydata'.toGeometry = mydata.toGeometry ∧ Sound medium partOffset mydata' := by
  have all : BlockReadable mydata (always medium partOffset stack entry) := fun _ _ => trivial
  have geometry := lookup_geometry mydata (always medium partOffset stack entry)
  have kept := cached_lookup sound (Clean.whole length all)
  rw [← lookup_geometry mydata (always medium partOffset stack entry)] at kept
  have value : (getFatent (delivering medium partOffset stack) mydata entry).2 = UInt32.ofNat
      (rawEntry (tableOf medium partOffset mydata.toGeometry) mydata.fatsize entry.toNat) := by
    by_cases there : bufnumOf mydata.fatsize entry = mydata.fatbufnum
    · exact congrArg Prod.snd
        (getFatent_there (l := always medium partOffset stack entry) sound there)
    · exact congrArg Prod.snd
        (getFatent_whole (l := always medium partOffset stack entry) there length all)
  exact ⟨_, Prod.ext rfl value, geometry, kept⟩

/-! ## Files -/

def lastCluster : FatSize → Nat
  | .fat12 => 0xff5
  | .fat16 => 0xfff5
  | .fat32 => 0xffffff5

def endMark (fatsize : FatSize) : Nat := if fatsize = .fat32 then 0xffffff0 else 0xfff0

/-- The clusters of a file, from its first on: valid ones, each with the number of the next in its
entry, and as many as its size needs. -/
structure FileChain (medium : Medium) (partOffset : UInt32) (g : Geometry) (dent : DirEntry)
    (chain : List UInt32) : Prop where
  start : ∀ n ∈ chain.head?, dent.startClust g.fatsize = n
  linked : ∀ t, t + 1 < chain.length → tableEntry (tableOf medium partOffset g) g.fatsize
    (chain.getD t 0).toNat = (chain.getD (t + 1) 0).toNat
  valid : ∀ n ∈ chain, 2 ≤ n.toNat ∧ n.toNat ≤ lastCluster g.fatsize
  long : dent.size.toNat ≤ chain.length * clusterSize g

def count (dent : DirEntry) (maxsize : UInt32) : Nat :=
  if maxsize = 0 then dent.size.toNat else min dent.size.toNat maxsize.toNat

def clusters (g : Geometry) (n : Nat) : Nat := (n + clusterSize g - 1) / clusterSize g

def chainBytes (medium : Medium) (partOffset : UInt32) (g : Geometry) (chain : List UInt32) :
    List UInt8 :=
  chain.flatMap fun n => slice (clusterView medium partOffset g n) 0 (clusterSize g)

def ReadsFile (medium : Medium) (partOffset : UInt32) (g : Geometry) (dent : DirEntry)
    (chain : List UInt32) (maxsize : UInt32) : Prop :=
  ∀ mydata : Fsdata, mydata.toGeometry = g → Sound medium partOffset mydata →
    ∀ stack m buffer, ∃ fuel contents,
      getContents (delivering medium partOffset stack) mydata dent m buffer maxsize fuel =
        some contents ∧
      contents.ret = count dent maxsize ∧
      contents.mem =
        blit m buffer ((chainBytes medium partOffset g chain).take (count dent maxsize))

structure LinkRead (medium : Medium) (partOffset : UInt32) (g : Geometry) (chain : List UInt32)
    (t : Nat) : Prop where
  bits : rawEntry (tableOf medium partOffset g) g.fatsize (chain.getD t 0).toNat < 2 ^ 28
  low : (chain.getD (t + 1) 0).toNat < endMark g.fatsize

/-- What must be so for `n` bytes to be read: a count that a long holds, a table, and good links
between the clusters that hold the bytes. -/
structure Followed (medium : Medium) (partOffset : UInt32) (g : Geometry) (chain : List UInt32)
    (n : Nat) : Prop where
  long : n < 2 ^ 31
  links : ∀ t, t + 1 < clusters g n → LinkRead medium partOffset g chain t
  table : clusters g n ≤ 1 ∨ g.fatlength ≠ 0

/-! ## Runs of clusters -/

variable {t : Nat}

/-- The bytes of the clusters `c 0`, `c 1`, ... one behind the other. -/
def fileBytes (medium : Medium) (partOffset : UInt32) (g : Geometry) (c : Nat → UInt32) : Mem :=
  fun k => clusterView medium partOffset g (c (k / clusterSize g)) (k % clusterSize g)

lemma bytesperclust_toNat (g : Geometry) : (bytesperclust g).toNat = clusterSize g := by
  have word := g.clustSize.toNat_lt
  rw [bytesperclust, clusterSize, UInt32.toNat_mul, UInt16.toNat_toUInt32]
  exact Nat.mod_eq_of_lt (show g.clustSize.toNat * 512 < 2 ^ 32 by omega)

lemma clusterSize_lt (g : Geometry) : clusterSize g < 2 ^ 25 := by
  have word := g.clustSize.toNat_lt
  rw [clusterSize]
  omega

lemma clusterView_add {n : UInt32} (first : 0 < n) (later : 0 < n + UInt32.ofNat t) (k : Nat) :
    clusterView medium partOffset g (n + UInt32.ofNat t) k =
      clusterView medium partOffset g n (t * clusterSize g + k) := by
  have sectors : startSect g (n + UInt32.ofNat t) =
      startSect g n + UInt32.ofNat (t * g.clustSize.toNat) := by
    rw [startSect, startSect, if_pos first, if_pos later, UInt32.add_mul, UInt32.add_assoc,
      UInt32.ofNat_mul]
    congr 2
    rw [← UInt16.toNat_toUInt32, UInt32.ofNat_toNat]
  have bytes : 512 * (t * g.clustSize.toNat) = t * clusterSize g := by
    rw [clusterSize, Nat.mul_left_comm, mul_comm 512]
  rw [clusterView, clusterView, sectors, UInt32.add_assoc, UInt32.add_comm (UInt32.ofNat _),
    ← UInt32.add_assoc, view_add, bytes]

/-- `c` has a run of `j` clusters from place `i` on. -/
def IsRun (c : Nat → UInt32) (i j : Nat) : Prop := ∀ t < j, c (i + t) = c i + UInt32.ofNat t

lemma run_bytes {c : Nat → UInt32} {i j : Nat} (size : 0 < clusterSize g) (run : IsRun c i j)
    (positive : ∀ t < j, 0 < c (i + t)) :
    slice (clusterView medium partOffset g (c i)) 0 (j * clusterSize g) =
      slice (fileBytes medium partOffset g c) (i * clusterSize g) (j * clusterSize g) := by
  apply List.ext_getElem
  · rw [slice_length, slice_length]
  · intro k low low'
    rw [slice_length] at low
    have turn : k / clusterSize g < j := Nat.div_lt_of_lt_mul (by rwa [mul_comm])
    have place : (i * clusterSize g + k) / clusterSize g = i + k / clusterSize g := by
      rw [add_comm, Nat.add_mul_div_right _ _ size, add_comm]
    have rest : (i * clusterSize g + k) % clusterSize g = k % clusterSize g := by
      rw [add_comm, Nat.add_mul_mod_self_right]
    have first : 0 < c i := by
      have here := positive 0 (Nat.zero_lt_of_lt turn)
      rwa [add_zero] at here
    have later := positive _ turn
    rw [run _ turn] at later
    rw [slice_get, slice_get, fileBytes, place, rest, run _ turn, clusterView_add first later]
    congr 1
    rw [zero_add, mul_comm, Nat.div_add_mod]

/-! ## Turns of the loop -/

variable {contents : Contents}

/-- The loop in the midst of a file of `n` bytes: the clusters before place `i` have been read, and
a run of `j` clusters from there on is known. -/
structure At (medium : Medium) (partOffset : UInt32) (g : Geometry) (c : Nat → UInt32) (n : Nat)
    (m : Mem) (buffer i j : Nat) (r : Reading) : Prop where
  geometry : r.mydata.toGeometry = g
  sound : Sound medium partOffset r.mydata
  positive : 0 < j
  run : IsRun c i j
  needed : (i + j - 1) * clusterSize g < n ∨ i + j = 1
  first : r.curclust = c i
  last : r.endclust = c (i + j - 1)
  act : r.actsize.toNat = j * clusterSize g
  file : r.filesize.toNat + i * clusterSize g = n
  got : r.gotsize.toNat = i * clusterSize g
  place : r.buffer = buffer + i * clusterSize g
  mem : r.mem = blit m buffer (slice (fileBytes medium partOffset g c) 0 (i * clusterSize g))

/-- The link behind place `t` is read as it is. -/
structure GoodLink (medium : Medium) (partOffset : UInt32) (g : Geometry) (c : Nat → UInt32)
    (t : Nat) : Prop where
  value : UInt32.ofNat (rawEntry (tableOf medium partOffset g) g.fatsize (c t).toNat) = c (t + 1)
  check : checkClust (c (t + 1)) g.fatsize = false

section
variable {c : Nat → UInt32} {n : Nat} {m : Mem} {buffer i j : Nat} {r : Reading}

lemma lookup_at (stack : Mem) (at_ : At medium partOffset g c n m buffer i j r)
    (length : g.fatlength ≠ 0) :
    ∃ mydata, getFatent (delivering medium partOffset stack) r.mydata r.endclust =
        (mydata, UInt32.ofNat
          (rawEntry (tableOf medium partOffset g) g.fatsize (c (i + j - 1)).toNat)) ∧
      mydata.toGeometry = g ∧ Sound medium partOffset mydata := by
  have geometry := at_.geometry
  obtain ⟨mydata, found, same, sound⟩ := getFatent_delivering stack at_.sound
    (show r.mydata.fatlength ≠ 0 from by rw [geometry]; exact length) r.endclust
  refine ⟨mydata, ?_, same.trans geometry, sound⟩
  rw [found, geometry, at_.last]

lemma read_run (size : 0 < clusterSize g) (run : IsRun c i j) (positive : ∀ t < j, 0 < c (i + t)) :
    blit (blit m buffer (slice (fileBytes medium partOffset g c) 0 (i * clusterSize g)))
        (buffer + i * clusterSize g)
        (slice (clusterView medium partOffset g (c i)) 0 (j * clusterSize g)) =
      blit m buffer (slice (fileBytes medium partOffset g c) 0 ((i + j) * clusterSize g)) := by
  have joined := blit_append m buffer
    (slice (fileBytes medium partOffset g c) 0 (i * clusterSize g))
    (slice (fileBytes medium partOffset g c) (i * clusterSize g) (j * clusterSize g))
  rw [slice_length] at joined
  rw [run_bytes size run positive, joined, Nat.add_mul, slice_append, Nat.zero_add]

lemma lookup_good (stack : Mem) (at_ : At medium partOffset g c n m buffer i j r)
    (length : g.fatlength ≠ 0)
    (good : GoodLink medium partOffset g c (i + j - 1)) :
    ∃ mydata, getFatent (delivering medium partOffset stack) r.mydata r.endclust =
        (mydata, c (i + j)) ∧ mydata.toGeometry = g ∧ Sound medium partOffset mydata := by
  obtain ⟨mydata, found, same, sound⟩ := lookup_at stack at_ length
  have positive := at_.positive
  rw [good.value, Nat.sub_add_cancel (by omega)] at found
  exact ⟨mydata, found, same, sound⟩

lemma at_extended (at_ : At medium partOffset g c n m buffer i j r) (short : n < 2 ^ 31)
    (more : (i + j) * clusterSize g < n) (follows : c (i + j) - 1 = c (i + j - 1))
    (same : mydata.toGeometry = g) (sound : Sound medium partOffset mydata) :
    At medium partOffset g c n m buffer i (j + 1)
      { r with mydata := mydata, endclust := c (i + j),
               actsize := r.actsize + bytesperclust mydata.toGeometry } where
  geometry := same
  sound := sound
  positive := Nat.succ_pos j
  run t low := by
    rcases Nat.lt_succ_iff_lt_or_eq.mp low with low | rfl
    · exact at_.run t low
    have positive := at_.positive
    have before := at_.run (t - 1) (by omega)
    have index : i + (t - 1) = i + t - 1 := by omega
    have number : UInt32.ofNat t = UInt32.ofNat (t - 1) + 1 := by
      rw [← UInt32.ofNat_one, ← UInt32.ofNat_add, Nat.sub_add_cancel positive]
    rw [number, ← UInt32.add_assoc, ← before, index, ← follows, UInt32.sub_add_cancel]
  needed := .inl more
  first := at_.first
  last := rfl
  act := by
    have small := clusterSize_lt g
    have split : (i + j) * clusterSize g = i * clusterSize g + j * clusterSize g := Nat.add_mul ..
    rw [same, UInt32.toNat_add, bytesperclust_toNat, at_.act, Nat.mod_eq_of_lt (by omega),
      Nat.succ_mul]
  file := at_.file
  got := at_.got
  place := at_.place
  mem := at_.mem

lemma at_next (size : 0 < clusterSize g) (at_ : At medium partOffset g c n m buffer i j r)
    (short : n < 2 ^ 31) (more : (i + j) * clusterSize g < n)
    (numbers : ∀ t, t * clusterSize g < n → 0 < c t) (same : mydata.toGeometry = g)
    (sound : Sound medium partOffset mydata) :
    At medium partOffset g c n m buffer (i + j) 1
      { mydata := mydata,
        mem := blit r.mem r.buffer
          (slice (clusterView medium partOffset g r.curclust) 0 r.actsize.toNat),
        buffer := r.buffer + r.actsize.toNat, curclust := c (i + j), endclust := c (i + j),
        actsize := bytesperclust mydata.toGeometry, filesize := r.filesize - r.actsize,
        gotsize := r.gotsize + r.actsize } where
  geometry := same
  sound := sound
  positive := Nat.one_pos
  run t low := by
    obtain rfl : t = 0 := by omega
    exact (UInt32.add_zero _).symm
  needed := .inl more
  first := rfl
  last := rfl
  act := by rw [same, bytesperclust_toNat, one_mul]
  file := by
    have split : (i + j) * clusterSize g = i * clusterSize g + j * clusterSize g := Nat.add_mul ..
    have file := at_.file
    have act := at_.act
    rw [UInt32.toNat_sub_of_le _ _ (by rw [UInt32.le_iff_toNat_le]; omega)]
    omega
  got := by
    have split : (i + j) * clusterSize g = i * clusterSize g + j * clusterSize g := Nat.add_mul ..
    rw [UInt32.toNat_add, at_.got, at_.act, split, Nat.mod_eq_of_lt (by omega)]
  place := by
    rw [at_.place, at_.act, Nat.add_mul, Nat.add_assoc]
  mem := by
    have before (t : Nat) (low : t < j) : 0 < c (i + t) := by
      refine numbers _ (Nat.lt_of_le_of_lt (Nat.mul_le_mul_right _ ?_) more)
      omega
    rw [at_.mem, at_.place, at_.first, at_.act]
    exact read_run size at_.run before

lemma turn_good (stack : Mem) (size : 0 < clusterSize g)
    (at_ : At medium partOffset g c n m buffer i j r)
    (short : n < 2 ^ 31) (more : (i + j) * clusterSize g < n)
    (numbers : ∀ t, t * clusterSize g < n → 0 < c t) (length : g.fatlength ≠ 0)
    (good : GoodLink medium partOffset g c (i + j - 1)) :
    ∃ i' j' r', readTurn (delivering medium partOffset stack) r = .inl r' ∧
      At medium partOffset g c n m buffer i' j' r' ∧ i' + j' = i + j + 1 := by
  obtain ⟨mydata, found, same, sound⟩ := lookup_good stack at_ length good
  have width : mydata.fatsize = g.fatsize := congrArg Geometry.fatsize same
  have check : checkClust (c (i + j)) g.fatsize = false := by
    have next := good.check
    rwa [Nat.sub_add_cancel (Nat.le_add_left_of_le at_.positive)] at next
  have going : r.actsize < r.filesize := by
    have file := at_.file
    have act := at_.act
    rw [UInt32.lt_iff_toNat_lt]
    rw [Nat.add_mul] at more
    omega
  rw [readTurn, if_pos going, found]
  dsimp only
  by_cases follows : c (i + j) - 1 = r.endclust
  · rw [if_neg (not_not.mpr follows), width, check]
    exact ⟨i, j + 1, _, rfl, at_extended at_ short more (follows.trans at_.last) same sound, rfl⟩
  have again : At medium partOffset g c n m buffer i j { r with mydata := mydata } :=
    { at_ with geometry := same, sound := sound }
  obtain ⟨mydata', found', same', sound'⟩ := lookup_good stack again length good
  have width' : mydata'.fatsize = g.fatsize := congrArg Geometry.fatsize same'
  rw [if_pos follows, getRun, same, getCluster_delivering]
  dsimp only at found' ⊢
  rw [found']
  rw [width', check]
  exact ⟨i + j, 1, _, rfl, at_next size at_ short more numbers same' sound', rfl⟩

lemma toLong_of_short {x : UInt32} (short : x.toNat < 2 ^ 31) : toLong x = x.toNat :=
  BitVec.toInt_eq_toNat_of_lt (show 2 * x.toNat < 2 ^ 32 by omega)

lemma last_bytes (size : 0 < clusterSize g) (p : Nat) {k : Nat} (inside : k ≤ clusterSize g) :
    slice (clusterView medium partOffset g (c p)) 0 k =
      slice (fileBytes medium partOffset g c) (p * clusterSize g) k := by
  apply List.ext_getElem
  · rw [slice_length, slice_length]
  · intro t low low'
    rw [slice_length] at low
    have place : (p * clusterSize g + t) / clusterSize g = p := by
      rw [add_comm, Nat.add_mul_div_right _ _ size, Nat.div_eq_of_lt (by omega), zero_add]
    have rest : (p * clusterSize g + t) % clusterSize g = t := by
      rw [add_comm, Nat.add_mul_mod_self_right, Nat.mod_eq_of_lt (by omega)]
    rw [slice_get, slice_get, fileBytes, place, rest, zero_add]

/-- The last run is read in whole clusters, and what is left of the file from the cluster behind
them. -/
structure LastRun (g : Geometry) (n i j : Nat) (r : Reading) : Prop where
  split : (i + j - 1) * clusterSize g = i * clusterSize g + (j - 1) * clusterSize g
  before : (i + j - 1) * clusterSize g ≤ n
  whole : (r.actsize - bytesperclust g).toNat = (j - 1) * clusterSize g
  rest : (r.filesize - (r.actsize - bytesperclust g)).toNat = n - (i + j - 1) * clusterSize g
  inside : n - (i + j - 1) * clusterSize g ≤ clusterSize g

lemma At.lastRun (at_ : At medium partOffset g c n m buffer i j r)
    (done : n ≤ (i + j) * clusterSize g) : LastRun g n i j r := by
  have positive := at_.positive
  have file := at_.file
  have act := at_.act
  have before : (i + j - 1) * clusterSize g ≤ n := by
    rcases at_.needed with needed | one
    · exact Nat.le_of_lt needed
    · rw [one, Nat.sub_self, zero_mul]
      exact Nat.zero_le n
  have splitLast : (i + j) * clusterSize g = (i + j - 1) * clusterSize g + clusterSize g := by
    rw [← Nat.succ_mul]
    congr 1
    omega
  have split : (i + j - 1) * clusterSize g =
      i * clusterSize g + (j - 1) * clusterSize g := by
    rw [← Nat.add_mul]
    congr 1
    omega
  have splitRun : j * clusterSize g = (j - 1) * clusterSize g + clusterSize g := by
    rw [← Nat.succ_mul]
    congr 1
    omega
  have whole : (r.actsize - bytesperclust g).toNat = (j - 1) * clusterSize g := by
    rw [UInt32.toNat_sub_of_le _ _ (by rw [UInt32.le_iff_toNat_le, bytesperclust_toNat]; omega),
      bytesperclust_toNat]
    omega
  have rest : (r.filesize - (r.actsize - bytesperclust g)).toNat =
      n - (i + j - 1) * clusterSize g := by
    rw [UInt32.toNat_sub_of_le _ _ (by rw [UInt32.le_iff_toNat_le, whole]; omega), whole]
    omega
  exact ⟨split, before, whole, rest, by omega⟩

lemma turn_last (stack : Mem) (size : 0 < clusterSize g)
    (at_ : At medium partOffset g c n m buffer i j r)
    (short : n < 2 ^ 31) (done : n ≤ (i + j) * clusterSize g)
    (numbers : ∀ t, t * clusterSize g < n → 0 < c t) :
    readTurn (delivering medium partOffset stack) r =
      .inr ⟨n, blit m buffer (slice (fileBytes medium partOffset g c) 0 n), r.mydata⟩ := by
  obtain ⟨split, before, whole, rest, inside⟩ := at_.lastRun done
  have positive := at_.positive
  have index : i + (j - 1) = i + j - 1 := by omega
  have stopped : ¬ r.actsize < r.filesize := by
    have file := at_.file
    have act := at_.act
    rw [Nat.add_mul] at done
    rw [UInt32.lt_iff_toNat_lt]
    omega
  have run : IsRun c i (j - 1) := fun t low => at_.run t (by omega)
  have runNumbers (t : Nat) (low : t < j - 1) : 0 < c (i + t) := by
    rcases at_.needed with needed | one
    · refine numbers _ (Nat.lt_of_le_of_lt (Nat.mul_le_mul_right _ ?_) needed)
      omega
    · omega
  have joined := blit_append m buffer
    (slice (fileBytes medium partOffset g c) 0 ((i + j - 1) * clusterSize g))
    (slice (fileBytes medium partOffset g c) ((i + j - 1) * clusterSize g)
      (n - (i + j - 1) * clusterSize g))
  rw [slice_length] at joined
  rw [readTurn, if_neg stopped, getRest, at_.geometry, getCluster_delivering]
  dsimp only
  rw [getCluster_delivering, whole, rest, at_.mem, at_.place, at_.first, at_.last,
    read_run size run runNumbers, index, add_assoc, ← split, last_bytes size _ inside, joined]
  have value : (r.gotsize + (r.actsize - bytesperclust g) +
      (r.filesize - (r.actsize - bytesperclust g))).toNat = n := by
    rw [UInt32.toNat_add, UInt32.toNat_add, whole, rest, at_.got]
    omega
  have slices := slice_append (fileBytes medium partOffset g c) 0
    ((i + j - 1) * clusterSize g) (n - (i + j - 1) * clusterSize g)
  rw [zero_add, Nat.add_sub_cancel' before] at slices
  rw [toLong_of_short (by omega), value, slices]

lemma turn_bad (stack : Mem)
    (at_ : At medium partOffset g c n m buffer i j r)
    (short : n < 2 ^ 31) (more : (i + j) * clusterSize g < n) (length : g.fatlength ≠ 0)
    (bad : checkClust (UInt32.ofNat (rawEntry (tableOf medium partOffset g) g.fatsize
      (c (i + j - 1)).toNat)) g.fatsize = true) :
    ∃ contents, readTurn (delivering medium partOffset stack) r = .inr contents ∧
      contents.ret ≠ n := by
  obtain ⟨mydata, found, same, sound⟩ := lookup_at stack at_ length
  have width : mydata.fatsize = g.fatsize := congrArg Geometry.fatsize same
  have file := at_.file
  have act := at_.act
  have got := at_.got
  rw [Nat.add_mul] at more
  have going : r.actsize < r.filesize := by
    rw [UInt32.lt_iff_toNat_lt]
    omega
  rw [readTurn, if_pos going, found]
  dsimp only
  by_cases follows : UInt32.ofNat (rawEntry (tableOf medium partOffset g) g.fatsize
      (c (i + j - 1)).toNat) - 1 = r.endclust
  · rw [if_neg (not_not.mpr follows), width, bad]
    refine ⟨_, rfl, ?_⟩
    dsimp only
    rw [toLong_of_short (by omega)]
    omega
  have again : At medium partOffset g c n m buffer i j { r with mydata := mydata } :=
    { at_ with geometry := same, sound := sound }
  obtain ⟨mydata', found', same', sound'⟩ := lookup_at stack again length
  have width' : mydata'.fatsize = g.fatsize := congrArg Geometry.fatsize same'
  rw [if_pos follows, getRun, same, getCluster_delivering]
  dsimp only at found' ⊢
  rw [found']
  rw [width', bad]
  refine ⟨_, rfl, ?_⟩
  have sum : (r.gotsize + r.actsize).toNat = r.gotsize.toNat + r.actsize.toNat := by
    rw [UInt32.toNat_add, Nat.mod_eq_of_lt (by omega)]
  dsimp only
  rw [toLong_of_short (by omega), sum]
  omega

/-! ## The loop -/

lemma loop_good (stack : Mem) (size : 0 < clusterSize g)
    (at_ : At medium partOffset g c n m buffer i j r)
    (short : n < 2 ^ 31) (numbers : ∀ t, t * clusterSize g < n → 0 < c t)
    (length : clusterSize g < n → g.fatlength ≠ 0)
    (links : ∀ t, (t + 1) * clusterSize g < n → GoodLink medium partOffset g c t) :
    ∃ fuel contents, readLoop (delivering medium partOffset stack) fuel r = some contents ∧
      contents.ret = n ∧
      contents.mem = blit m buffer (slice (fileBytes medium partOffset g c) 0 n) := by
  obtain ⟨d, enough⟩ : ∃ d, n ≤ (i + j + d) * clusterSize g :=
    ⟨n, Nat.le_trans (Nat.le_mul_of_pos_right n size)
      (Nat.mul_le_mul_right _ (Nat.le_add_left n (i + j)))⟩
  induction d generalizing i j r with
  | zero =>
    have last := turn_last stack size at_ short enough numbers
    exact ⟨1, _, by rw [readLoop, last], rfl, rfl⟩
  | succ d ih =>
    by_cases more : (i + j) * clusterSize g < n
    · have positive := at_.positive
      have good : GoodLink medium partOffset g c (i + j - 1) := by
        refine links _ ?_
        rwa [Nat.sub_add_cancel (by omega)]
      have long : clusterSize g < n := by
        refine Nat.lt_of_le_of_lt ?_ more
        exact Nat.le_mul_of_pos_left _ (by omega)
      obtain ⟨i', j', r', turn, next, sum⟩ :=
        turn_good stack size at_ short more numbers (length long) good
      have closer : n ≤ (i' + j' + d) * clusterSize g := by
        rwa [sum, Nat.add_right_comm, Nat.add_assoc]
      obtain ⟨fuel, contents, result, value⟩ := ih next closer
      refine ⟨fuel + 1, contents, ?_, value⟩
      rw [readLoop, turn]
      exact result
    · have last := turn_last stack size at_ short (Nat.not_lt.mp more) numbers
      exact ⟨1, _, by rw [readLoop, last], rfl, rfl⟩

lemma loop_bad (stack : Mem) (size : 0 < clusterSize g)
    (at_ : At medium partOffset g c n m buffer i j r) (short : n < 2 ^ 31)
    (numbers : ∀ t, t * clusterSize g < n → 0 < c t) (length : g.fatlength ≠ 0)
    (links : ∀ t, (t + 1) * clusterSize g < n → GoodLink medium partOffset g c t ∨
      checkClust (UInt32.ofNat (rawEntry (tableOf medium partOffset g) g.fatsize (c t).toNat))
        g.fatsize = true) {d : Nat} (more : (i + j + d) * clusterSize g < n)
    (bad : checkClust (UInt32.ofNat (rawEntry (tableOf medium partOffset g) g.fatsize
      (c (i + j - 1 + d)).toNat)) g.fatsize = true) {fuel : Nat}
    (result : readLoop (delivering medium partOffset stack) fuel r = some contents) :
    contents.ret ≠ n := by
  induction d generalizing i j r fuel with
  | zero =>
    cases fuel with
    | zero => cases result
    | succ fuel =>
      obtain ⟨contents', turn, other⟩ := turn_bad stack at_ short more length bad
      rw [readLoop, turn] at result
      cases result
      exact other
  | succ d ih =>
    have positive := at_.positive
    have here : (i + j) * clusterSize g < n := by
      refine Nat.lt_of_le_of_lt (Nat.mul_le_mul_right _ ?_) more
      omega
    have link := links (i + j - 1) (by rwa [Nat.sub_add_cancel (by omega)])
    cases fuel with
    | zero => cases result
    | succ fuel =>
      rcases link with good | stop
      · obtain ⟨i', j', r', turn, next, sum⟩ :=
          turn_good stack size at_ short here numbers length good
        rw [readLoop, turn] at result
        refine ih next ?_ ?_ result
        · rwa [sum, Nat.add_right_comm, Nat.add_assoc]
        · have index : i' + j' - 1 + d = i + j - 1 + (d + 1) := by omega
          rwa [index]
      · obtain ⟨contents', turn, other⟩ :=
          turn_bad stack at_ short here length stop
        rw [readLoop, turn] at result
        cases result
        exact other

end

/-! ## The chain of a file -/

section
variable {dent : DirEntry} {chain : List UInt32} {maxsize : UInt32}

def clusterAt (g : Geometry) (dent : DirEntry) (chain : List UInt32) (t : Nat) : UInt32 :=
  chain.getD t (dent.startClust g.fatsize)

lemma count_le (dent : DirEntry) (maxsize : UInt32) : count dent maxsize ≤ dent.size.toNat := by
  rw [count]
  split_ifs
  · exact Nat.le_refl _
  · exact Nat.min_le_left ..

lemma place_lt (chained : FileChain medium partOffset g dent chain)
    (before : t * clusterSize g < count dent maxsize) : t < chain.length := by
  have most := count_le dent maxsize
  have long := chained.long
  refine Nat.lt_of_mul_lt_mul_right (a := clusterSize g) ?_
  omega

lemma getD_inside {n : UInt32} (inside : t < chain.length) :
    chain.getD t n = chain[t] := by
  rw [List.getD_eq_getElem?_getD, List.getElem?_eq_getElem inside, Option.getD_some]

lemma clusterAt_eq (inside : t < chain.length) :
    clusterAt g dent chain t = chain.getD t 0 := by
  rw [clusterAt, getD_inside inside, getD_inside inside]

lemma clusterAt_valid (chained : FileChain medium partOffset g dent chain)
    (inside : t < chain.length) :
    2 ≤ (clusterAt g dent chain t).toNat ∧
      (clusterAt g dent chain t).toNat ≤ lastCluster g.fatsize := by
  rw [clusterAt, getD_inside inside]
  exact chained.valid _ (List.getElem_mem inside)

lemma clusterAt_zero (chained : FileChain medium partOffset g dent chain) :
    clusterAt g dent chain 0 = dent.startClust g.fatsize := by
  cases chain with
  | nil => rfl
  | cons first rest => exact (chained.start first rfl).symm

lemma rawEntry_narrow {table : Mem} {fatsize : FatSize} (narrow : fatsize ≠ .fat32) (k : Nat) :
    rawEntry table fatsize k < 65536 := by
  cases fatsize with
  | fat32 => exact absurd rfl narrow
  | fat16 => exact fat2cpu16_lt table (2 * k)
  | fat12 =>
    have word := fat2cpu16_lt table (k * 3 / 2)
    rw [rawEntry]
    split_ifs
    · omega
    · omega

lemma rawEntry_lt (table : Mem) (fatsize : FatSize) (k : Nat) :
    rawEntry table fatsize k < 2 ^ 32 := by
  by_cases wide : fatsize = .fat32
  · rw [wide]
    exact fat2cpu32_lt table (4 * k)
  · have word : rawEntry table fatsize k < 65536 := rawEntry_narrow wide k
    omega

lemma tableEntry_of_bits {table : Mem} {fatsize : FatSize} {k : Nat}
    (bits : rawEntry table fatsize k < 2 ^ 28) :
    tableEntry table fatsize k = rawEntry table fatsize k := by
  rw [tableEntry]
  split_ifs
  · exact Nat.mod_eq_of_lt bits
  · rfl

lemma checkClust_iff (x : UInt32) (fatsize : FatSize) :
    checkClust x fatsize = true ↔ x.toNat ≤ 1 ∨ endMark fatsize ≤ x.toNat := by
  rw [checkClust, decide_eq_true_iff, UInt32.le_iff_toNat_le, ge_iff_le, UInt32.le_iff_toNat_le,
    endMark]
  split_ifs
  · exact Iff.rfl
  · exact Iff.rfl

lemma goodLink (chained : FileChain medium partOffset g dent chain) (inside : t + 1 < chain.length)
    (link : LinkRead medium partOffset g chain t) :
    GoodLink medium partOffset g (clusterAt g dent chain) t where
  value := by
    have next := chained.linked t inside
    rw [tableEntry_of_bits link.bits] at next
    rw [clusterAt_eq (Nat.lt_of_succ_lt inside), clusterAt_eq inside, next, UInt32.ofNat_toNat]
  check := by
    have low := link.low
    have valid := clusterAt_valid chained inside
    rw [← Bool.not_eq_true, checkClust_iff]
    rw [clusterAt_eq inside] at valid ⊢
    omega

lemma badLink (chained : FileChain medium partOffset g dent chain) (inside : t + 1 < chain.length)
    (link : ¬ LinkRead medium partOffset g chain t) :
    checkClust (UInt32.ofNat (rawEntry (tableOf medium partOffset g) g.fatsize
      (clusterAt g dent chain t).toNat)) g.fatsize = true := by
  have word := rawEntry_lt (tableOf medium partOffset g) g.fatsize (chain.getD t 0).toNat
  have highest : endMark g.fatsize ≤ 2 ^ 28 := by
    cases g.fatsize <;> decide
  rw [clusterAt_eq (Nat.lt_of_succ_lt inside), checkClust_iff, UInt32.toNat_ofNat_of_lt' word]
  by_cases bits : rawEntry (tableOf medium partOffset g) g.fatsize (chain.getD t 0).toNat < 2 ^ 28
  · have next := chained.linked t inside
    rw [tableEntry_of_bits bits] at next
    have high : ¬ (chain.getD (t + 1) 0).toNat < endMark g.fatsize := fun low => link ⟨bits, low⟩
    omega
  · omega

lemma lt_clusters (size : 0 < clusterSize g) (n t : Nat) :
    t + 1 < clusters g n ↔ (t + 1) * clusterSize g < n := by
  rw [clusters, Nat.lt_iff_add_one_le, Nat.le_div_iff_mul_le size, Nat.succ_mul (t + 1)]
  omega

lemma flatMap_slice {s : Nat} (positive : 0 < s) (views : UInt32 → Mem) (n : UInt32)
    (chain : List UInt32) :
    (chain.flatMap fun k => slice (views k) 0 s) =
      slice (fun k => views (chain.getD (k / s) n) (k % s)) 0 (chain.length * s) := by
  induction chain with
  | nil => rw [List.length_nil, zero_mul]; rfl
  | cons first rest ih =>
    have head : slice (fun k => views ((first :: rest).getD (k / s) n) (k % s)) 0 s =
        slice (views first) 0 s := by
      refine slice_congr fun k _ low => ?_
      rw [zero_add] at low
      rw [Nat.div_eq_of_lt low, Nat.mod_eq_of_lt low]
      rfl
    have tail : slice (fun k => views ((first :: rest).getD (k / s) n) (k % s)) s
          (rest.length * s) =
        slice (fun k => views (rest.getD (k / s) n) (k % s)) 0 (rest.length * s) := by
      apply List.ext_getElem
      · rw [slice_length, slice_length]
      · intro k low low'
        rw [slice_get, slice_get, Nat.add_div_left _ positive, Nat.add_mod_left, zero_add]
        rfl
    rw [List.flatMap_cons, ih, List.length_cons, Nat.succ_mul, add_comm (rest.length * s),
      slice_append, zero_add, head, tail]

lemma slice_take (m : Mem) {n k : Nat} (inside : n ≤ k) : (slice m 0 k).take n = slice m 0 n := by
  obtain ⟨rest, rfl⟩ := Nat.exists_eq_add_of_le inside
  rw [slice_append, List.take_left' (slice_length m 0 n)]

lemma chainBytes_take (size : 0 < clusterSize g)
    (chained : FileChain medium partOffset g dent chain) :
    (chainBytes medium partOffset g chain).take (count dent maxsize) =
      slice (fileBytes medium partOffset g (clusterAt g dent chain)) 0 (count dent maxsize) := by
  have joined := flatMap_slice size (clusterView medium partOffset g) (dent.startClust g.fatsize)
    chain
  have inside := Nat.le_trans (count_le dent maxsize) chained.long
  rw [chainBytes, joined, slice_take _ inside]
  rfl

lemma filesize_toNat (dent : DirEntry) (maxsize : UInt32) :
    (if maxsize > 0 ∧ dent.size > maxsize then maxsize else dent.size).toNat =
      if maxsize = 0 then dent.size.toNat else min dent.size.toNat maxsize.toNat := by
  by_cases zero : maxsize = 0
  · rw [if_pos zero, zero, if_neg fun positive => absurd positive.1 (by decide)]
  have positive : maxsize > 0 := UInt32.pos_iff_ne_zero.mpr zero
  rw [if_neg zero]
  by_cases larger : dent.size > maxsize
  · rw [if_pos ⟨positive, larger⟩, Nat.min_eq_right]
    exact Nat.le_of_lt (UInt32.lt_iff_toNat_lt.mp larger)
  · rw [if_neg fun both => larger both.2, Nat.min_eq_left]
    exact Nat.not_lt.mp fun less => larger (UInt32.lt_iff_toNat_lt.mpr less)

lemma at_start (chained : FileChain medium partOffset g dent chain)
    (geometry : mydata.toGeometry = g) (sound : Sound medium partOffset mydata) (m : Mem)
    (buffer : Nat) :
    At medium partOffset g (clusterAt g dent chain) (count dent maxsize) m buffer 0 1
      (startReading mydata dent m buffer maxsize) where
  geometry := geometry
  sound := sound
  positive := Nat.one_pos
  run t low := by
    obtain rfl : t = 0 := by omega
    exact (UInt32.add_zero _).symm
  needed := .inr rfl
  first := by
    rw [clusterAt_zero chained, ← geometry]
    rfl
  last := by
    rw [clusterAt_zero chained, ← geometry]
    rfl
  act := by
    rw [one_mul, ← geometry, ← bytesperclust_toNat]
    rfl
  file := by
    rw [zero_mul, add_zero, count]
    exact filesize_toNat dent maxsize
  got := (zero_mul _).symm
  place := by rw [zero_mul]; rfl
  mem := by
    rw [zero_mul]
    exact (blit_nil m buffer).symm

/-! ## What cannot be read -/

variable {r : Reading}

lemma rest_ret_lt (disk : Disk) (r : Reading) : (getRest disk r).ret < 2147483648 := by
  have failed : (-1 : Int) < 2147483648 := by decide
  rw [getRest]
  obtain ⟨ok, mem⟩ := getCluster disk r.mydata.toGeometry r.curclust r.mem r.buffer
    (r.actsize - bytesperclust r.mydata.toGeometry)
  cases ok with
  | false => exact failed
  | true =>
    dsimp only
    obtain ⟨ok', mem'⟩ := getCluster disk r.mydata.toGeometry r.endclust mem
      (r.buffer + (r.actsize - bytesperclust r.mydata.toGeometry).toNat)
      (r.filesize - (r.actsize - bytesperclust r.mydata.toGeometry))
    cases ok' with
    | false => exact failed
    | true => exact Int32.toInt_lt _

lemma run_ret_lt {disk : Disk} (turn : getRun disk r = .inr contents) :
    contents.ret < 2147483648 := by
  rw [getRun] at turn
  cases read : getCluster disk r.mydata.toGeometry r.curclust r.mem r.buffer r.actsize with
  | mk ok mem =>
    rw [read] at turn
    cases ok with
    | false =>
      cases turn
      exact show (-1 : Int) < 2147483648 by decide
    | true =>
      dsimp only at turn
      split_ifs at turn
      cases turn
      exact Int32.toInt_lt _

lemma turn_ret_lt {disk : Disk} (turn : readTurn disk r = .inr contents) :
    contents.ret < 2147483648 := by
  rw [readTurn] at turn
  by_cases going : r.actsize < r.filesize
  · rw [if_pos going] at turn
    dsimp only at turn
    split_ifs at turn
    · exact run_ret_lt turn
    · cases turn
      exact Int32.toInt_lt _
  · rw [if_neg going] at turn
    cases turn
    exact rest_ret_lt disk r

lemma loop_ret_lt {disk : Disk} {fuel : Nat} (result : readLoop disk fuel r = some contents) :
    contents.ret < 2147483648 := by
  induction fuel generalizing r with
  | zero => cases result
  | succ fuel ih =>
    rw [readLoop] at result
    cases turn : readTurn disk r with
    | inl next =>
      rw [turn] at result
      exact ih result
    | inr other =>
      rw [turn] at result
      cases result
      exact turn_ret_lt turn

lemma getFatent_blank (medium : Medium) (partOffset : UInt32) (stack : Mem)
    (length : mydata.fatlength = 0) (blank : mydata.fatbuf = fun _ => 0) (entry : UInt32) :
    ∃ mydata', getFatent (delivering medium partOffset stack) mydata entry = (mydata', 0) ∧
      mydata'.toGeometry = mydata.toGeometry ∧ mydata'.fatbuf = fun _ => 0 := by
  have zero (fatsize : FatSize) (offset : Nat) :
      UInt32.ofNat (bufferedEntry (fun _ => 0) fatsize offset) = 0 := by
    cases fatsize with
    | fat32 => rfl
    | fat16 => rfl
    | fat12 =>
      have word (a : Nat) : fat2cpu16 (fun _ => 0) a = 0 := rfl
      simp only [bufferedEntry, word]
      split_ifs <;> rfl
  by_cases there : bufnumOf mydata.fatsize entry = mydata.fatbufnum
  · have kept : cacheBlock (delivering medium partOffset stack) mydata
        (bufnumOf mydata.fatsize entry) = (true, mydata) := by rw [cacheBlock, if_pos there]
    refine ⟨mydata, ?_, rfl, blank⟩
    rw [getFatent, kept]
    dsimp only
    rw [blank, zero]
  have none : min fatbufblocks (mydata.fatlength.toUInt32 * 512) = 0 := by
    rw [length]
    decide
  have kept : cacheBlock (delivering medium partOffset stack) mydata
      (bufnumOf mydata.fatsize entry) =
      (true, { mydata with fatbuf := blit mydata.fatbuf 0 [],
                           fatbufnum := bufnumOf mydata.fatsize entry }) := by
    rw [cacheBlock, if_neg there, none]
    rfl
  refine ⟨{ mydata with fatbuf := fun _ => 0, fatbufnum := bufnumOf mydata.fatsize entry },
    ?_, rfl, rfl⟩
  rw [getFatent, kept]
  dsimp only
  rw [blit_nil, blank, zero]

lemma turn_blank (stack : Mem) {c : Nat → UInt32} {n : Nat} {m : Mem} {buffer : Nat}
    (at_ : At medium partOffset g c n m buffer 0 1 r) (length : g.fatlength = 0)
    (blank : r.mydata.fatbuf = fun _ => 0) (more : clusterSize g < n) (first : c 0 ≠ 0xFFFFFFFF) :
    ∃ contents, readTurn (delivering medium partOffset stack) r = .inr contents ∧
      contents.ret = clusterSize g := by
  have small := clusterSize_lt g
  have geometry := at_.geometry
  have file := at_.file
  have act := at_.act
  have got := at_.got
  rw [one_mul] at act
  rw [zero_mul] at file got
  have none : r.mydata.fatlength = 0 := (congrArg Geometry.fatlength geometry).trans length
  obtain ⟨mydata, found, same, still⟩ :=
    getFatent_blank medium partOffset stack none blank r.endclust
  obtain ⟨mydata', found', same', -⟩ :=
    getFatent_blank medium partOffset stack (same ▸ none) still r.endclust
  have going : r.actsize < r.filesize := by
    rw [UInt32.lt_iff_toNat_lt]
    omega
  have apart : (0 : UInt32) - 1 ≠ r.endclust := by
    rw [at_.last]
    exact first.symm
  have stop : checkClust 0 mydata'.fatsize = true := by
    rw [checkClust_iff]
    exact .inl (Nat.zero_le 1)
  have sum : (r.gotsize + r.actsize).toNat = clusterSize g := by
    rw [UInt32.toNat_add, got, act, zero_add, Nat.mod_eq_of_lt (by omega)]
  rw [readTurn, if_pos going, found]
  dsimp only
  rw [if_pos apart, getRun, same, geometry, getCluster_delivering]
  dsimp only
  rw [found']
  rw [stop]
  refine ⟨_, rfl, ?_⟩
  rw [toLong_of_short (by omega), sum]

end

/-! ## Files that are read -/

section
variable {dent : DirEntry} {chain : List UInt32} {maxsize : UInt32}

def blankFsdata (g : Geometry) : Fsdata := { g with fatbuf := fun _ => 0, fatbufnum := 0xFFFFFFFF }

lemma blank_sound (medium : Medium) (partOffset : UInt32) (g : Geometry) :
    Sound medium partOffset (blankFsdata g) := .inl rfl

lemma clusters_le_one (size : 0 < clusterSize g) (n : Nat) :
    clusters g n ≤ 1 ↔ n ≤ clusterSize g := by
  have more := lt_clusters size n 0
  rw [zero_add, one_mul] at more
  omega

lemma number_positive (chained : FileChain medium partOffset g dent chain)
    (before : t * clusterSize g < count dent maxsize) : 0 < clusterAt g dent chain t := by
  have valid := clusterAt_valid chained (place_lt chained before)
  rw [UInt32.lt_iff_toNat_lt, UInt32.toNat_zero]
  omega

lemma reads_of_followed (size : 0 < clusterSize g)
    (chained : FileChain medium partOffset g dent chain)
    (followed : Followed medium partOffset g chain (count dent maxsize)) :
    ReadsFile medium partOffset g dent chain maxsize := by
  intro mydata geometry sound stack m buffer
  rw [chainBytes_take size chained]
  refine loop_good stack size (at_start chained geometry sound m buffer) followed.long
    (fun t before => number_positive chained before) (fun more => ?_) (fun t before => ?_)
  · have two := (lt_clusters size (count dent maxsize) 0).mpr (by rwa [zero_add, one_mul])
    exact followed.table.resolve_left (by omega)
  · exact goodLink chained (place_lt chained before)
      (followed.links t ((lt_clusters size _ t).mpr before))

lemma long_of_reads (read : ReadsFile medium partOffset g dent chain maxsize) :
    count dent maxsize < 2 ^ 31 := by
  obtain ⟨fuel, contents, result, value, -⟩ :=
    read (blankFsdata g) rfl (blank_sound medium partOffset g) (fun _ => 0) (fun _ => 0) 0
  have fits := loop_ret_lt result
  omega

lemma table_of_reads (size : 0 < clusterSize g)
    (chained : FileChain medium partOffset g dent chain)
    (read : ReadsFile medium partOffset g dent chain maxsize) :
    clusters g (count dent maxsize) ≤ 1 ∨ g.fatlength ≠ 0 := by
  rw [clusters_le_one size, or_iff_not_imp_left, Nat.not_le]
  intro more length
  obtain ⟨fuel, contents, result, value, -⟩ :=
    read (blankFsdata g) rfl (blank_sound medium partOffset g) (fun _ => 0) (fun _ => 0) 0
  have first : clusterAt g dent chain 0 ≠ 0xFFFFFFFF := by
    have before : 0 * clusterSize g < count dent maxsize := by omega
    have valid := clusterAt_valid chained (place_lt chained before)
    have top : lastCluster g.fatsize < 0xFFFFFFFF := by
      cases g.fatsize <;> decide
    intro same
    rw [same] at valid
    exact absurd (Nat.lt_of_le_of_lt valid.2 top) (by decide)
  obtain ⟨other, turn, less⟩ := turn_blank (fun _ => 0)
    (at_start chained rfl (blank_sound medium partOffset g) (fun _ => 0) 0) length rfl more first
  cases fuel with
  | zero => cases result
  | succ fuel =>
    rw [getContents, readLoop, turn] at result
    cases result
    omega

lemma links_of_reads (size : 0 < clusterSize g)
    (chained : FileChain medium partOffset g dent chain)
    (read : ReadsFile medium partOffset g dent chain maxsize) (t : Nat)
    (inside : t + 1 < clusters g (count dent maxsize)) :
    LinkRead medium partOffset g chain t := by
  refine Classical.byContradiction fun misread => ?_
  obtain ⟨fuel, contents, result, value, -⟩ :=
    read (blankFsdata g) rfl (blank_sound medium partOffset g) (fun _ => 0) (fun _ => 0) 0
  have before := (lt_clusters size _ t).mp inside
  have length := (table_of_reads size chained read).resolve_left (by omega)
  refine loop_bad (fun _ => 0) size
    (at_start chained rfl (blank_sound medium partOffset g) (fun _ => 0) 0) (long_of_reads read)
    (fun t before => number_positive chained before) length (fun t before => ?_) (d := t) ?_ ?_
    result value
  · by_cases link : LinkRead medium partOffset g chain t
    · exact .inl (goodLink chained (place_lt chained before) link)
    · exact .inr (badLink chained (place_lt chained before) link)
  · rwa [zero_add, add_comm 1]
  · rw [Nat.zero_add]
    exact badLink chained (place_lt chained before) misread

/-- A file is read as its chain if and only if its length fits in a long, all its links are read as
they are meant, and there is a table to read them from. -/
theorem read_iff (size : 0 < g.clustSize) (chained : FileChain medium partOffset g dent chain) :
    ReadsFile medium partOffset g dent chain maxsize ↔
      Followed medium partOffset g chain (count dent maxsize) := by
  have bytes : 0 < clusterSize g := Nat.mul_pos (UInt16.lt_iff_toNat_lt.mp size) (by decide)
  refine ⟨fun read => ?_, reads_of_followed bytes chained⟩
  exact ⟨long_of_reads read, links_of_reads bytes chained read, table_of_reads bytes chained read⟩

end

/-- A FAT16 volume with clusters of a sector, of which the first is sector 20. -/
def volume : Geometry where
  fatsize := .fat16
  fatlength := 256
  fatSect := 1
  rootdirSect := 18
  clustSize := 1
  dataBegin := 18

/-- A disk on which the entry of cluster 2 is `next`. -/
def linkedDisk (next : UInt16) : Medium := fun sector k =>
  if sector = 1 ∧ k = 4 then next.toUInt8
  else if sector = 1 ∧ k = 5 then (next >>> 8).toUInt8
  else 0

def twoClusters : DirEntry := ⟨[], 0, 0, 2, 600⟩

lemma volume_chain (next : UInt16)
    (linked : rawEntry (tableOf (linkedDisk next) 0 volume) .fat16 2 = next.toNat)
    (low : 2 ≤ next.toNat) (high : next.toNat ≤ 0xfff5) :
    FileChain (linkedDisk next) 0 volume twoClusters [2, next.toUInt32] where
  start n first := by
    cases first
    rfl
  linked t inside := by
    obtain rfl : t = 0 := by
      have two : t + 1 < 2 := inside
      omega
    exact linked
  valid n member := by
    rcases List.mem_pair.mp member with rfl | rfl
    · decide
    · rw [UInt16.toNat_toUInt32]
      exact ⟨low, high⟩
  long := show 600 ≤ 2 * 512 by decide

theorem two_read : ReadsFile (linkedDisk 3) 0 volume twoClusters [2, 3] 0 := by
  refine (read_iff (by decide) (volume_chain 3 rfl (by decide) (by decide))).mpr ⟨by decide, ?_, ?_⟩
  · intro t inside
    obtain rfl : t = 0 := by
      have two : t + 1 < 2 := inside
      omega
    exact ⟨by decide, by decide⟩
  · exact Or.inr (by decide)

/-- 0xfff0 is the number of a cluster, but it is taken for an end mark. -/
theorem high_cluster_lost :
    FileChain (linkedDisk 0xfff0) 0 volume twoClusters [2, 0xfff0] ∧
      ¬ ReadsFile (linkedDisk 0xfff0) 0 volume twoClusters [2, 0xfff0] 0 := by
  have chained := volume_chain 0xfff0 rfl (by decide) (by decide)
  refine ⟨chained, fun read => ?_⟩
  have followed := (read_iff (by decide) chained).mp read
  exact absurd (followed.links 0 (by decide)).low (by decide)

end FatContents
