import UBoot.Fs.FatPath

/-!
# Files are read by their names (fs/fat/fat.c)

Where the directories on its way are seen as they are, `do_fat_read` reads the file that a path
names or returns -1 if it names none.
-/

namespace FatNamed

open ByteMemory Fat FatTable FatLayout FatNames FatContents FatRead FatAlike FatSearch FatEnds
  FatDirectory FatSlots FatLookup FatPath

/-! ## The volume that is mounted -/

def volumeOf (l : Layout) (stack : Mem) (buffers : Buffers) : Volume :=
  mounted l.medium l.partOffset stack l.bs l.fatsize buffers

def InReach (l : Layout) : Prop :=
  rootStart l.bs l.fatsize + rootdirSectors l.bs l.fatsize ≤ 32767 + 2 * l.bs.clusterSize.toNat

variable {l : Layout} {stack : Mem} {buffers : Buffers}

lemma clusterSize_bounds (l : Layout) :
    0 < l.bs.clusterSize.toNat ∧ l.bs.clusterSize.toNat ≤ 128 := by
  obtain ⟨k, small, size⟩ := l.valid.cluster
  rw [size]
  exact ⟨Nat.two_pow_pos k, Nat.pow_le_pow_right (by decide) small⟩

lemma volumeOf_clustSize : (volumeOf l stack buffers).start.clustSize.toNat =
    l.bs.clusterSize.toNat := UInt8.toNat_toUInt16 _

lemma volumeOf_slots : (volumeOf l stack buffers).slots = l.clusterSlots := by
  have size : (volumeOf l stack buffers).start.clustSize.toNat = l.bs.clusterSize.toNat :=
    volumeOf_clustSize
  change (volumeOf l stack buffers).start.clustSize.toNat * 512 / 32 = l.bs.clusterSize.toNat * 16
  omega

lemma clusterSize_eq : clusterSize (volumeOf l stack buffers).start.toGeometry = l.clusterSize :=
  congrArg (· * 512) volumeOf_clustSize

lemma volumeOf_fits :
    (volumeOf l stack buffers).start.clustSize.toNat * sectorSize ≤ maxClustsize := by
  have bounds := clusterSize_bounds l
  rw [volumeOf_clustSize]
  change l.bs.clusterSize.toNat * 512 ≤ 65536
  omega

lemma volumeOf_block : direntsPerBlock ≤ (volumeOf l stack buffers).slots := by
  have bounds := clusterSize_bounds l
  rw [volumeOf_slots]
  change 16 ≤ l.bs.clusterSize.toNat * 16
  omega

lemma volumeOf_table :
    tableOf l.medium l.partOffset (volumeOf l stack buffers).start.toGeometry = l.table := by
  have start : (volumeOf l stack buffers).start.fatSect.toUInt32 =
      UInt32.ofNat l.bs.reserved.toNat := (UInt32.ofNat_uInt16ToNat _).symm
  rw [tableOf, tableStart, start]
  rfl

section
variable (reach : InReach l)
include reach

lemma volumeOf_length : (volumeOf l stack buffers).start.fatlength ≠ 0 := by
  have length := l.valid.length
  have fats := l.valid.fats
  have bounds := clusterSize_bounds l
  have sectors : fatSectors l.bs l.fatsize ≤ l.bs.fats.toNat * fatSectors l.bs l.fatsize :=
    Nat.le_mul_of_pos_left _ fats
  rw [InReach, rootStart] at reach
  intro zero
  have value : (volumeOf l stack buffers).start.fatlength.toNat = fatSectors l.bs l.fatsize := by
    rw [fatSectors] at sectors length ⊢
    change (if l.fatsize = .fat32 then UInt16.ofNat l.bs.fat32Length.toNat
      else l.bs.fatLength).toNat = _
    split_ifs at sectors length ⊢
    · rw [UInt16.toNat_ofNat']
      exact Nat.mod_eq_of_lt (by rw [fatSectors] at reach; split_ifs at reach; omega)
    · rfl
  rw [zero] at value
  have none : (0 : UInt16).toNat = 0 := rfl
  omega

lemma volumeOf_root : (volumeOf l stack buffers).start.rootdirSect.toUInt32 =
    UInt32.ofNat (rootStart l.bs l.fatsize) := by
  have root := (exact_of_fits l.valid reach).root
  have word := (startSect (geometry l.bs l.fatsize) 0).toNat_lt
  rw [startSect_zero] at root word
  apply UInt32.toNat_inj.mp
  rw [UInt16.toNat_toUInt32, ← root]
  exact (UInt32.toNat_ofNat_of_lt' word).symm

lemma volumeOf_cluster {n : UInt32} (is : IsCluster l n) :
    clusterView l.medium l.partOffset (volumeOf l stack buffers).start.toGeometry n =
      l.cluster n := by
  have sector := (exact_of_fits l.valid reach).clusters n.toNat is.inside
  rw [UInt32.ofNat_toNat] at sector
  have same : startSect (volumeOf l stack buffers).start.toGeometry n =
      UInt32.ofNat (clusterSector l.bs l.fatsize n.toNat) := by
    rw [← sector]
    exact UInt32.ofNat_toNat.symm
  rw [clusterView, same]
  rfl

lemma volumeOf_link (n : UInt32) : link (volumeOf l stack buffers) n =
    UInt32.ofNat (rawEntry l.table l.fatsize n.toNat) := by
  rw [link, if_neg (volumeOf_length reach)]
  exact congrArg (fun t => UInt32.ofNat (rawEntry t l.fatsize n.toNat)) volumeOf_table

end

/-! ## Chains -/

/-- A link is taken for what it is: there are no reserved bits in the entry, and the cluster that it
leads to is none whose number is taken for an end mark. -/
structure PlainLink (l : Layout) (chain : List UInt32) (t : Nat) : Prop where
  bits : rawEntry l.table l.fatsize (chain.getD t 0).toNat < 2 ^ 28
  low : (chain.getD (t + 1) 0).toNat < endMark l.fatsize

section
variable {chain : List UInt32} {first : UInt32} {d : Directory} {t : Nat}

lemma cluster_of_chain (linked : Linked l chain) (inside : t < chain.length) :
    IsCluster l (chain.getD t 0) := by
  rw [getD_inside inside]
  exact linked.clusters _ (List.getElem_mem inside)

lemma linkSeen (reach : InReach l) (linked : Linked l chain) (inside : t + 1 < chain.length)
    (plain : PlainLink l chain t) : LinkSeen (volumeOf l stack buffers) chain t where
  leads := by
    have next := linked.next t inside
    rw [tableEntry_of_bits plain.bits] at next
    rw [volumeOf_link reach, next, UInt32.ofNat_toNat]
  on := by
    have valid := (cluster_of_chain linked inside).inside.low
    have low := plain.low
    rw [← Bool.not_eq_true]
    intro stop
    rcases (checkClust_iff _ _).mp stop with small | high
    · omega
    · exact absurd low (not_lt.mpr high)

lemma end_seen (reach : InReach l) (wide : l.fatsize ≠ .fat12) {n : UInt32}
    (ended : endOfChain l.fatsize ≤ tableEntry l.table l.fatsize n.toNat) :
    checkClust (link (volumeOf l stack buffers) n) l.fatsize = true := by
  have word := rawEntry_lt l.table l.fatsize n.toNat
  have less : tableEntry l.table l.fatsize n.toNat ≤ rawEntry l.table l.fatsize n.toNat := by
    rw [tableEntry]
    split_ifs
    · exact Nat.mod_le _ _
    · exact le_rfl
  have mark : endMark l.fatsize ≤ endOfChain l.fatsize := by
    cases same : l.fatsize with
    | fat12 => exact absurd same wide
    | fat16 => decide
    | fat32 => decide
  rw [volumeOf_link reach, checkClust_iff, UInt32.toNat_ofNat_of_lt' word]
  exact .inr (le_trans mark (le_trans ended less))

lemma spans_of_dirAt (reach : InReach l) (at_ : DirAt l first d chain) :
    Spans (volumeOf l stack buffers) d chain where
  some := lt_of_lt_of_le (by decide) volumeOf_block
  total := by rw [volumeOf_slots, at_.total]
  same t inside k low j small := by
    have positive : 0 < l.clusterSize := Nat.mul_pos (clusterSize_bounds l).1 (by decide)
    have size : l.clusterSize = 32 * l.clusterSlots := by
      rw [Layout.clusterSize, Layout.clusterSlots]
      omega
    rw [volumeOf_slots] at low ⊢
    have short : 32 * k + j < l.clusterSize := by
      change j < 32 at small
      omega
    have index : 32 * (l.clusterSlots * t + k) + j = l.clusterSize * t + (32 * k + j) := by
      rw [size, Nat.mul_add, Nat.mul_assoc, Nat.add_assoc]
    have within : 32 * (l.clusterSlots * t + k) + j < 32 * d.total := by
      have whole : l.clusterSlots * (t + 1) ≤ d.total := by
        rw [at_.total, mul_comm chain.length]
        exact Nat.mul_le_mul_left _ inside
      rw [Nat.mul_succ] at whole
      change j < 32 at small
      omega
    change clusterView l.medium l.partOffset _ _ (32 * k + j) = d.slots _
    rw [volumeOf_cluster reach (cluster_of_chain at_.linked inside)]
    refine Eq.symm ((at_.slots _ within).trans ?_)
    rw [Layout.chainView, index, Nat.mul_add_div positive, Nat.div_eq_of_lt short, add_zero,
      Nat.mul_add_mod, Nat.mod_eq_of_lt short]

end

/-! ## Searches -/

variable {e top : Nat} {result : Option DirEntry}

/-- A search passes all slots in front of slot `n`. -/
def Passed (d : Directory) (component : List UInt8) (n : Nat) : Prop :=
  n ≤ d.last ∧ ∀ x ∈ d.entries, x.Named component → n ≤ x.place

/-- A search of a directory in a chain sees its slots and its links as they are. Where no entry has
the name and no slot is free it must see the end of the chain, which that of FAT12 is not. -/
structure PlainChain (l : Layout) (d : Directory) (chain : List UInt32) (component : List UInt8) :
    Prop where
  slots : PlainSlots d false l.clusterSlots l.clusterSlots component
  links : ∀ t, t + 1 < chain.length → Passed d component (l.clusterSlots * (t + 1)) →
    PlainLink l chain t
  ended : Unnamed d component → d.last = d.total → l.fatsize ≠ .fat12

/-- The clusters of FAT32's root directory follow one another from the first cluster on, as far as a
search looks. -/
def Straight (l : Layout) (d : Directory) (component : List UInt8) : Prop :=
  ∀ chain, l.fatsize = .fat32 → DirAt l l.rootCluster d chain → ∀ e top result,
    EndsAt d component e top result → ∀ t, l.clusterSlots * t ≤ top → (chain.getD t 0).toNat = 2 + t

/-- A search of the root directory sees its slots as they are, in the sectors from its first on, and
finds a free slot if no entry has the name. -/
structure PlainRoot (l : Layout) (d : Directory) (component : List UInt8) : Prop where
  slots : PlainSlots d true direntsPerBlock l.clusterSlots component
  free : Unnamed d component → d.last < d.total
  straight : Straight l d component

/-- A search that comes to the root directory by an entry sees no more than a cluster of it. -/
structure PlainFirst (l : Layout) (d : Directory) (component : List UInt8) : Prop where
  slots : PlainSlots d false l.clusterSlots l.clusterSlots component
  free : Unnamed d component → d.last < d.total
  straight : Straight l d component
  inside : ∀ e top result, EndsAt d component e top result → top < l.clusterSlots

/-- Where a directory is searched: from the start of the root directory on, in a chain, or in what
is read for cluster 0, which is the start of the root directory. -/
inductive Site where
  | root
  | chain (chain : List UInt32)
  | first

def PlainSearch (l : Layout) (site : Site) (d : Directory) (component : List UInt8) : Prop :=
  match site with
  | .root => PlainRoot l d component
  | .chain chain => PlainChain l d chain component
  | .first => PlainFirst l d component

def SiteOf (l : Layout) (site : Site) (d : Directory) : Prop :=
  match site with
  | .root => RootAt l d
  | .chain chain => DirAt l (chain.getD 0 0) d chain
  | .first => RootAt l d

def firstOf : Site → Option UInt32
  | .root => none
  | .chain chain => some (chain.getD 0 0)
  | .first => some 0

section
variable {chain : List UInt32} {d : Directory} {component : List UInt8}

lemma passed_of_ends {n : Nat} (ends : EndsAt d component e top result) (before : n ≤ e) :
    Passed d component n := by
  cases ends with
  | @found x entry named =>
    refine ⟨le_trans before (le_of_lt (reached_named entry named le_rfl).1), ?_⟩
    intro y entry' named'
    rw [d.distinct y entry' x entry component named' named]
    exact before
  | free unnamed _ => exact ⟨before, fun y entry named => absurd named (unnamed y entry)⟩

lemma chain_finds (reach : InReach l) (at_ : DirAt l (chain.getD 0 0) d chain)
    (plain : PlainChain l d chain component) (some : component ≠ [])
    (ends : EndsAt d component e top result) :
    DirFinds (volumeOf l stack buffers) false (downcase component) (chain.getD 0 0) result := by
  have slots : (volumeOf l stack buffers).slots = l.clusterSlots := volumeOf_slots
  refine (spans_of_dirAt reach at_).finds (slots ▸ plain.slots) some ends (fun t before => ?_)
    (Nat.zero_le e)
  have inside : t + 1 < chain.length := by
    have total := ends.lt_total
    refine Nat.lt_of_mul_lt_mul_left (a := l.clusterSlots) ?_
    rw [at_.total, mul_comm] at total
    rw [slots] at before
    exact lt_of_le_of_lt before total
  rw [slots] at before
  exact linkSeen reach at_.linked inside (plain.links t inside (passed_of_ends ends before))

lemma chain_finds_none (reach : InReach l) (at_ : DirAt l (chain.getD 0 0) d chain)
    (plain : PlainChain l d chain component) (some : component ≠ [])
    (unnamed : Unnamed d component) :
    DirFinds (volumeOf l stack buffers) false (downcase component) (chain.getD 0 0) none := by
  have slots : (volumeOf l stack buffers).slots = l.clusterSlots := volumeOf_slots
  rcases eq_or_lt_of_le d.inside with full | more
  · refine (spans_of_dirAt reach at_).finds_none (slots ▸ plain.slots) some unnamed full
      (fun t inside => ?_) (end_seen reach (plain.ended unnamed full) at_.ended) ?_
    · refine linkSeen reach at_.linked inside (plain.links t inside ⟨?_, ?_⟩)
      · rw [full, at_.total, mul_comm chain.length]
        exact Nat.mul_le_mul_left _ (le_of_lt inside)
      · exact fun x entry named => absurd named (unnamed x entry)
    · refine Nat.pos_of_ne_zero fun none => ?_
      have head := at_.head
      rw [List.length_eq_zero_iff.mp none] at head
      cases head
  · exact chain_finds reach at_ plain some (.free unnamed more)

lemma top_lt_total (ends : EndsAt d component e top result) : top < d.total := by
  cases ends with
  | found entry _ => exact lt_of_lt_of_le (d.laid.lies _ entry).2 d.inside
  | free _ more => exact more

lemma bytesFrom_add (l : Layout) (s j k : Nat) :
    l.bytesFrom (s + j) k = l.bytesFrom s (512 * j + k) := by
  have sector : UInt32.ofNat (s + j) + l.partOffset =
      UInt32.ofNat s + l.partOffset + UInt32.ofNat j := by
    rw [UInt32.ofNat_add, UInt32.add_assoc, UInt32.add_comm (UInt32.ofNat j), ← UInt32.add_assoc]
  rw [Layout.bytesFrom, sector, view_add]
  rfl

lemma root_same (at_ : RootAt l d) (ends : EndsAt d component e top result)
    (straight : Straight l d component) :
    ∀ k ≤ top, SameSlot (l.bytesFrom (rootStart l.bs l.fatsize)) k d.slots k := by
  intro k low j small
  have total := top_lt_total ends
  change j < 32 at small
  have within : 32 * k + j < 32 * d.total := by omega
  cases at_ with
  | sectors _ slots _ => exact (slots _ within).symm
  | @clusters wide chain at_ =>
    have size : l.clusterSize = 32 * l.clusterSlots := by
      rw [Layout.clusterSize, Layout.clusterSlots]
      omega
    have split := Nat.div_add_mod (32 * k + j) l.clusterSize
    have before : l.clusterSlots * ((32 * k + j) / l.clusterSize) ≤ top := by
      have whole := Nat.mul_div_le (32 * k + j) l.clusterSize
      generalize (32 * k + j) / l.clusterSize = t at whole ⊢
      rw [size, mul_assoc] at whole
      omega
    have number := straight chain wide at_ e top result ends _ before
    have sector : clusterSector l.bs l.fatsize (2 + (32 * k + j) / l.clusterSize) =
        rootStart l.bs l.fatsize + (32 * k + j) / l.clusterSize * l.bs.clusterSize.toNat := by
      rw [clusterSector, rootdirSectors, if_pos wide, add_zero, Nat.add_sub_cancel_left]
    have bytes : 512 * ((32 * k + j) / l.clusterSize * l.bs.clusterSize.toNat) =
        l.clusterSize * ((32 * k + j) / l.clusterSize) := by
      rw [Layout.clusterSize, mul_comm, mul_assoc, mul_comm]
    have slots := at_.slots _ within
    rw [Layout.chainView, Layout.cluster, number, sector, bytesFrom_add, bytes, split] at slots
    exact slots.symm

lemma root_finds_named (reach : InReach l) (at_ : RootAt l d) (plain : PlainRoot l d component)
    (some : component ≠ []) (ends : EndsAt d component e top result) :
    RootFinds (volumeOf l stack buffers) false (downcase component)
      (volumeOf l stack buffers).start.rootdirSect.toUInt32 result := by
  have slots : (volumeOf l stack buffers).slots = l.clusterSlots := volumeOf_slots
  have finds := root_finds (v := volumeOf l stack buffers) (t := 0)
    (s := UInt32.ofNat (rootStart l.bs l.fatsize)) (root_same at_ ends plain.straight)
    volumeOf_block (slots ▸ plain.slots) some ends (Nat.zero_le e)
  have sector : (volumeOf l stack buffers).start.rootdirSect.toUInt32 =
      UInt32.ofNat (rootStart l.bs l.fatsize) + UInt32.ofNat 0 :=
    (volumeOf_root reach).trans (UInt32.add_zero _).symm
  rwa [← sector] at finds

end

variable {d : Directory} {component : List UInt8}

lemma first_finds_named (reach : InReach l) (at_ : RootAt l d) (plain : PlainFirst l d component)
    (some : component ≠ []) (ends : EndsAt d component e top result) :
    DirFinds (volumeOf l stack buffers) false (downcase component) 0 result := by
  have slots : (volumeOf l stack buffers).slots = l.clusterSlots := volumeOf_slots
  have same := root_same at_ ends plain.straight
  have inside := plain.inside e top result ends
  have upto := ends.upto
  have block : clusterView l.medium l.partOffset (volumeOf l stack buffers).start.toGeometry 0 =
      l.bytesFrom (rootStart l.bs l.fatsize) := by
    rw [Layout.bytesFrom, ← @volumeOf_root l stack buffers reach]
    rfl
  have covers : Over (volumeOf l stack buffers) d top 0 0 (opened (volumeOf l stack buffers)
      (clusterView l.medium l.partOffset (volumeOf l stack buffers).start.toGeometry 0)) := by
    refine ⟨rfl, fun j _ _ before => ?_⟩
    rw [zero_add] at before ⊢
    rw [block]
    exact same j before
  refine .here (scan_stops (looks_dir _ (downcase component) 0) (slots ▸ plain.slots) some ends
    (Nat.zero_le e) (by omega) covers (le_of_eq (zero_add _)) fun j low => ?_)
  rw [zero_add, slots, ← slots]
  exact Nat.mod_eq_of_lt (by omega)

lemma finds_named (reach : InReach l) {site : Site} (at_ : SiteOf l site d)
    (plain : PlainSearch l site d component) (some : component ≠ []) {x : Entry}
    (entry : x ∈ d.entries) (named : x.Named component) :
    Finds (volumeOf l stack buffers) (firstOf site) (downcase component) (.some x.dent) := by
  cases site with
  | root => exact root_finds_named reach at_ plain some (.found entry named)
  | chain chain => exact chain_finds reach at_ plain some (.found entry named)
  | first => exact first_finds_named reach at_ plain some (.found entry named)

lemma finds_unnamed (reach : InReach l) {site : Site} (at_ : SiteOf l site d)
    (plain : PlainSearch l site d component) (some : component ≠ []) (unnamed : Unnamed d component)
    :
    Finds (volumeOf l stack buffers) (firstOf site) (downcase component) none := by
  cases site with
  | root => exact root_finds_named reach at_ plain some (.free unnamed (plain.free unnamed))
  | chain chain => exact chain_finds_none reach at_ plain some unnamed
  | first => exact first_finds_named reach at_ plain some (.free unnamed (plain.free unnamed))

/-! ## Paths -/

def LeadsTo (l : Layout) (x : Entry) (site : Site) (d : Directory) : Prop :=
  match site with
  | .root => False
  | .chain chain => DirAt l (x.dent.startClust l.fatsize) d chain
  | .first => x.dent.startClust l.fatsize = 0 ∧ RootAt l d

lemma leadsTo_of_leads {x : Entry} (leads : Leads l x d) :
    ∃ site, LeadsTo l x site d := by
  cases leads with
  | root zero at_ => exact ⟨.first, zero, at_⟩
  | @chain chain at_ => exact ⟨.chain chain, at_⟩

lemma LeadsTo.site {x : Entry} {site : Site} (leads : LeadsTo l x site d) :
    SiteOf l site d ∧ firstOf site = some (x.dent.startClust l.fatsize) := by
  cases site with
  | root => exact leads.elim
  | chain chain =>
    have at_ : DirAt l (x.dent.startClust l.fatsize) d chain := leads
    have first : chain.getD 0 0 = x.dent.startClust l.fatsize := by
      have head := at_.head
      rw [List.head?_eq_getElem?] at head
      rw [List.getD_eq_getElem?_getD, head]
      rfl
    constructor
    · rw [SiteOf, first]
      exact at_
    · rw [firstOf, first]
  | first =>
    obtain ⟨zero, at_⟩ : x.dent.startClust l.fatsize = 0 ∧ RootAt l d := leads
    exact ⟨at_, by rw [firstOf, zero]⟩

/-- Everything that a path leads over is seen as it is: the searches for its components see their
directories as they are, and its last component is no directory. Where the path is `closed`, by a
delimiter behind that, there is no entry with the name. -/
inductive PlainPath (l : Layout) (closed : Prop) : Site → Directory → List (List UInt8) → Prop
  | here {site : Site} {d : Directory} : PlainPath l closed site d []
  | last {site : Site} {d : Directory} {component : List UInt8}
      (search : PlainSearch l site d component)
      (regular : ∀ x ∈ d.entries, x.Named component → ¬ x.IsDir ∧ ¬ closed) :
      PlainPath l closed site d [component]
  | onwards {site : Site} {d : Directory} {component next : List UInt8}
      {rest : List (List UInt8)} (search : PlainSearch l site d component)
      (onwards : ∀ x ∈ d.entries, x.Named component → x.IsDir → ∀ site' d',
        LeadsTo l x site' d' → PlainPath l closed site' d' (next :: rest)) :
      PlainPath l closed site d (component :: next :: rest)

lemma PlainPath.search {closed : Prop} {site : Site} {rest : List (List UInt8)}
    (plain : PlainPath l closed site d (component :: rest)) :
    PlainSearch l site d component := by
  cases plain with
  | last search _ => exact search
  | onwards search _ => exact search

section
variable {site : Site} {path : List UInt8} {result : Option DirEntry}

lemma pathFinds_single (single : dirdelim path = none)
    (finds : Finds (volumeOf l stack buffers) (firstOf site) (downcase path) result) :
    PathFinds (volumeOf l stack buffers) (firstOf site) (downcase path) result :=
  .last (by rw [dirdelim_downcase, single]) finds

lemma first_finds {idx : Nat}
    (finds : Finds (volumeOf l stack buffers) (firstOf site) (downcase (path.take idx)) result) :
    Finds (volumeOf l stack buffers) (firstOf site) ((downcase path).take idx) result := by
  rwa [downcase, ← List.map_take]

lemma rest_downcase (path : List UInt8) (idx : Nat) :
    skipDelims ((downcase path).drop idx) = downcase (skipDelims (path.drop idx)) := by
  rw [← skipDelims_downcase, downcase, downcase, List.map_drop]

end

lemma pathFinds_of_resolves (reach : InReach l) {d : Directory} {names : List (List UInt8)}
    {result : Option Entry} (resolves : Resolves l d names result) {closed : Prop} {site : Site}
    (at_ : SiteOf l site d) (plain : PlainPath l closed site d names) {path : List UInt8}
    (tidy : Tidy path) (same : components path = names) (ends : Closed path → closed) :
    PathFinds (volumeOf l stack buffers) (firstOf site) (downcase path)
      (result.map Entry.dent) := by
  induction resolves generalizing site path with
  | here => exact absurd same (components_ne_nil tidy)
  | @missing d component rest unnamed =>
    obtain ⟨some, ⟨single, rfl, -⟩ | ⟨idx, more, rfl, -⟩⟩ := components_cases tidy same
    · exact pathFinds_single single (finds_unnamed reach at_ plain.search some unnamed)
    · exact .lost (by rw [dirdelim_downcase, more])
        (first_finds (finds_unnamed reach at_ plain.search some unnamed))
  | @file d x component entry named regular =>
    obtain ⟨some, ⟨single, rfl, -⟩ | ⟨idx, -, -, follows⟩⟩ := components_cases tidy same
    · exact pathFinds_single single (finds_named reach at_ plain.search some entry named)
    cases follows with
    | ended _ isClosed =>
      cases plain with
      | last _ regular => exact absurd (ends isClosed) (regular x entry named).2
    | more tidy' none _ => exact absurd none (components_ne_nil tidy')
  | @directory d x component entry named is =>
    cases plain with
    | last _ regular => exact absurd is (regular x entry named).1
  | @through d x component next rest entry named regular =>
    obtain ⟨some, ⟨-, -, none⟩ | ⟨idx, more, rfl, -⟩⟩ := components_cases tidy same
    · cases none
    · exact .through (by rw [dirdelim_downcase, more])
        (first_finds (finds_named reach at_ plain.search some entry named))
        (not_not.mp regular)
  | @into d d' x component next rest result entry named is leads _ ih =>
    obtain ⟨some, ⟨-, -, none⟩ | ⟨idx, more, rfl, follows⟩⟩ := components_cases tidy same
    · cases none
    have search := plain.search
    cases follows with
    | ended none _ => cases none
    | more tidy' parts isClosed =>
      cases plain with
      | onwards _ onwards =>
        obtain ⟨site', leadsTo⟩ := leadsTo_of_leads leads
        obtain ⟨there, first⟩ := leadsTo.site
        have rest := ih there (onwards x entry named is site' d' leadsTo) tidy' parts
          fun other => ends (isClosed.mp other)
        rw [first, ← rest_downcase] at rest
        exact .into (by rw [dirdelim_downcase, more])
          (first_finds (finds_named reach at_ search some entry named)) is rest

/-! ## Files -/

/-- The links of a file between the clusters that hold its first `n` bytes are taken for what they
are, and a long holds `n`. -/
structure PlainFile (l : Layout) (chain : List UInt32) (n : Nat) : Prop where
  long : n < 2 ^ 31
  links : ∀ t, (t + 1) * l.clusterSize < n → PlainLink l chain t

section
variable {dent : DirEntry} {chain : List UInt32} {maxsize : UInt32}

lemma fileChain_of_fileAt (at_ : FileAt l dent chain) :
    FileChain l.medium l.partOffset (volumeOf l stack buffers).start.toGeometry dent chain where
  start := at_.start
  linked t inside := by
    rw [volumeOf_table]
    exact at_.linked.next t inside
  valid n member := ⟨(at_.linked.clusters n member).inside.low, (at_.linked.clusters n member).high⟩
  long := by
    rw [clusterSize_eq]
    exact at_.long

lemma chainBytes_eq (reach : InReach l) (linked : Linked l chain) :
    chainBytes l.medium l.partOffset (volumeOf l stack buffers).start.toGeometry chain =
      l.chainBytes chain := by
  rw [chainBytes, Layout.chainBytes, clusterSize_eq]
  refine List.flatMap_congr fun n member => ?_
  rw [volumeOf_cluster reach (linked.clusters n member)]

lemma reads_of_plain (reach : InReach l) (at_ : FileAt l dent chain)
    (plain : PlainFile l chain (count dent maxsize)) :
    ReadsFile l.medium l.partOffset (volumeOf l stack buffers).start.toGeometry dent chain
      maxsize := by
  have positive : 0 < clusterSize (volumeOf l stack buffers).start.toGeometry := by
    rw [clusterSize_eq]
    exact Nat.mul_pos (clusterSize_bounds l).1 (by decide)
  refine reads_of_followed positive (fileChain_of_fileAt at_)
    ⟨plain.long, fun t more => ?_, .inr (volumeOf_length reach)⟩
  have link := plain.links t (clusterSize_eq (l := l) ▸ (lt_clusters positive _ t).mp more)
  refine ⟨?_, link.low⟩
  rw [volumeOf_table]
  exact link.bits

end

/-! ## do_fat_read -/

/-- `do_fat_read` returns `ret` and leaves the memory `mem`. -/
def Returns (disk : Disk) (buffers : Buffers) (path : List UInt8) (m : Mem) (buffer : Nat)
    (maxsize : UInt32) (ret : Int) (mem : Mem) : Prop :=
  ∃ enough, ∀ fuel, enough ≤ fuel →
    doFatRead disk buffers path m buffer maxsize 0 fuel = some (.returned ret mem)

section
variable {path : List UInt8} {m : Mem} {buffer : Nat} {maxsize : UInt32}

lemma doFatRead_mounted (accepted : readBootsectandvi (delivering l.medium l.partOffset stack) =
      some (l.bs, l.fatsize)) (short : (skipDelims path).length < fnamecopySize)
    (some : skipDelims path ≠ []) (fuel : Nat) :
    doFatRead (delivering l.medium l.partOffset stack) buffers path m buffer maxsize 0 fuel =
      readMounted (volumeOf l stack buffers).disk buffers (volumeOf l stack buffers).start
        (splitPath (downcase (skipDelims path)) 0) m buffer maxsize 0 fuel := by
  have nonempty := downcase_ne_nil some
  rw [doFatRead, accepted]
  dsimp only
  rw [if_neg (not_le.mpr short), if_neg fun both => nonempty both.1, if_neg nonempty]
  rfl

lemma returns_none (accepted : readBootsectandvi (delivering l.medium l.partOffset stack) =
      some (l.bs, l.fatsize)) (short : (skipDelims path).length < fnamecopySize)
    (some : skipDelims path ≠ [])
    (finds : PathFinds (volumeOf l stack buffers) none (downcase (skipDelims path)) none) :
    Returns (delivering l.medium l.partOffset stack) buffers path m buffer maxsize (-1) m := by
  have start := mounted_steady l.medium l.partOffset stack l.bs l.fatsize buffers
  obtain ⟨enough, finished⟩ :=
    readMounted_finishes volumeOf_fits volumeOf_block start (downcase_ne_nil some) finds
  refine ⟨enough, fun fuel more => ?_⟩
  obtain ⟨mydata, -, outcome⟩ := finished fuel more buffers rfl m buffer maxsize
  rw [doFatRead_mounted accepted short some, outcome]
  rfl

lemma returns_some (accepted : readBootsectandvi (delivering l.medium l.partOffset stack) =
      some (l.bs, l.fatsize)) (reach : InReach l)
    (short : (skipDelims path).length < fnamecopySize) (some : skipDelims path ≠ [])
    {dent : DirEntry} (finds : PathFinds (volumeOf l stack buffers) none
      (downcase (skipDelims path)) (.some dent)) {chain : List UInt32} (file : FileAt l dent chain)
    (plain : PlainFile l chain (count dent maxsize)) :
    Returns (delivering l.medium l.partOffset stack) buffers path m buffer maxsize
      (count dent maxsize)
      (blit m buffer ((l.chainBytes chain).take (count dent maxsize))) := by
  have start := mounted_steady l.medium l.partOffset stack l.bs l.fatsize buffers
  obtain ⟨enough, finished⟩ :=
    readMounted_finishes volumeOf_fits volumeOf_block start (downcase_ne_nil some) finds
  obtain ⟨later, read⟩ :=
    readContents_of_reads start (volumeOf_length reach) (reads_of_plain reach file plain)
  refine ⟨enough + later, fun fuel more => ?_⟩
  obtain ⟨mydata, steady, outcome⟩ := finished fuel (by omega) buffers rfl m buffer maxsize
  rw [doFatRead_mounted accepted short some, outcome,
    ← @chainBytes_eq l stack buffers _ reach file.linked]
  exact read fuel (by omega) mydata steady m buffer

end

def ReadsNamed (l : Layout) (stack : Mem) (buffers : Buffers) (path : List UInt8) (m : Mem)
    (buffer : Nat) (maxsize : UInt32) : Option Entry → Prop
  | none => Returns (delivering l.medium l.partOffset stack) buffers path m buffer maxsize (-1) m
  | some x => ∃ chain, FileAt l x.dent chain ∧
    Returns (delivering l.medium l.partOffset stack) buffers path m buffer maxsize
      (count x.dent maxsize) (blit m buffer ((l.chainBytes chain).take (count x.dent maxsize)))

/-- What a path leads over is seen as it is: the clusters start where the code finds them, the path
fits in its copy, and its directories and its file are plain. -/
structure PlainRead (l : Layout) (root : Directory) (path : List UInt8) (maxsize : UInt32)
    (named : Option Entry) : Prop where
  reach : InReach l
  short : (skipDelims path).length < fnamecopySize
  names : PlainPath l (Closed path) .root root (components path)
  file : ∀ x, named = some x → ∃ chain, FileAt l x.dent chain ∧
    PlainFile l chain (count x.dent maxsize)

/-- `do_fat_read` reads the file that a path names, and returns -1 if it names none, where what the
path leads over is seen as it is. -/
theorem reads_named {l : Layout} {stack : Mem} {buffers : Buffers} {root : Directory}
    {path : List UInt8} {maxsize : UInt32} {named : Option Entry}
    (accepted : readBootsectandvi (delivering l.medium l.partOffset stack) =
      some (l.bs, l.fatsize)) (at_ : RootAt l root)
    (resolves : Resolves l root (components path) named)
    (plain : PlainRead l root path maxsize named) (m : Mem) (buffer : Nat) :
    ReadsNamed l stack buffers path m buffer maxsize named := by
  by_cases nothing : skipDelims path = []
  · have none : named = none := by
      rw [← components_skip, nothing] at resolves
      cases resolves
      rfl
    rw [none]
    refine ⟨0, fun fuel _ => ?_⟩
    rw [doFatRead, accepted]
    dsimp only
    rw [if_neg (Nat.not_le.mpr plain.short), nothing]
    rfl
  · have site : SiteOf l .root root := at_
    have finds := @pathFinds_of_resolves l stack buffers plain.reach _ _ _ resolves _ _ site
      plain.names _ (tidy_skip nothing) (components_skip path) (closed_skip nothing).mp
    cases named with
    | none => exact returns_none accepted plain.short nothing finds
    | some x =>
      obtain ⟨chain, file, contents⟩ := plain.file x rfl
      exact ⟨chain, file,
        returns_some accepted plain.reach plain.short nothing finds file contents⟩

/-! ## A stick with a label -/

/-- The boot sector of a FAT16 volume with clusters of one sector and 16 entries in its root
directory. -/
def stickBoot (k : Nat) : UInt8 :=
  if k = 13 ∨ k = 14 then 1
  else if k = 16 then 2
  else if k = 17 then 16
  else if k = 22 then 9
  else if 54 ≤ k ∧ k < 62 then fat16Sign.getD (k - 54) 0
  else 0

/-- The label MYDISK, and the file A of ten bytes in cluster 2. -/
def stickRoot (k : Nat) : UInt8 :=
  if k < 11 then [77, 89, 68, 73, 83, 75, 32, 32, 32, 32, 32].getD k 0
  else if k = 11 then 8
  else if k = 32 then 65
  else if 32 < k ∧ k < 43 then 32
  else if k = 43 then 0x20
  else if k = 58 then 2
  else if k = 60 then 10
  else 0

def stick : Layout where
  medium := fun s k => if s = 0 then stickBoot k else if s = 19 then stickRoot k else 0
  partOffset := 0
  bs := ⟨1, 1, 2, 16, 9, 0⟩
  fatsize := .fat16
  total := 100
  valid := ⟨by decide, by decide, ⟨0, by decide, rfl⟩, by decide, rfl, by decide, by decide,
    ⟨by decide, by decide⟩⟩

def stickFile : Entry := ⟨1, [], direntOf (stick.bytesFrom 19) 1⟩

def stickDirectory : Directory where
  slots := stick.bytesFrom 19
  total := 16
  last := 2
  entries := [stickFile]
  laid := .label ⟨by decide, by decide, by decide, by decide⟩
    (.short ⟨by decide, by decide, by decide⟩ .done)
  inside := by decide
  ended := Or.inr (by decide)
  distinct x member y member' _ _ _ := by
    rw [List.mem_singleton.mp member, List.mem_singleton.mp member']

lemma stick_accepted (stack : Mem) :
    readBootsectandvi (delivering stick.medium stick.partOffset stack) =
      some (stick.bs, stick.fatsize) := by
  rw [readBootsectandvi_delivering]
  rfl

lemma stick_reach : InReach stick := by
  rw [InReach]
  decide

lemma stick_root : RootAt stick stickDirectory :=
  .sectors (by decide) (fun _ _ => rfl) rfl

lemma stick_named (component : List UInt8) :
    stickFile.Named component ↔ downcase component = [97] := by
  have name : downcase (shortName stickFile.dent.name) = [97] := by decide
  rw [Entry.Named, name, eq_comm]
  exact or_iff_left fun long => long.1 rfl

lemma stick_plain : PlainRoot stick stickDirectory [97] where
  slots := {
    labels := fun k reached is => by
      rcases (show k = 0 ∨ k = 1 by have low : k < 2 := reached.1; omega) with rfl | rfl
      · exact .inr ⟨by decide, by decide, by decide, by decide⟩
      · exact absurd (show attrOf stickDirectory.slots 1 &&& attrVolume = 0 by decide) is.volume
    deleted := fun k reached flag => by
      rcases (show k = 0 ∨ k = 1 by have low : k < 2 := reached.1; omega) with rfl | rfl
      · exact absurd flag (by decide)
      · exact absurd flag (by decide)
    names := fun x member _ => by
      rw [List.mem_singleton.mp member, stick_named]
      exact ⟨fun _ => by decide, fun _ => .inl (by decide)⟩
    groups := fun x member _ long => absurd (List.mem_singleton.mp member ▸ rfl) long
    free := fun unnamed _ => by
      exact absurd ((stick_named [97]).mpr (by decide)) (unnamed _ List.mem_cons_self) }
  free unnamed := absurd ((stick_named [97]).mpr (by decide)) (unnamed _ List.mem_cons_self)
  straight _ wide := by cases wide

lemma stick_chain : FileAt stick stickFile.dent [2] where
  start n first := by
    cases first
    decide
  linked := by
    refine ⟨fun n member => ?_, fun t inside => ?_⟩
    · rw [List.mem_singleton.mp member]
      exact ⟨⟨by decide, by decide⟩, by decide⟩
    · exact absurd inside (not_lt.mpr (Nat.le_add_left 1 t))
  long := by decide

/-- The file /a is read. -/
theorem stick_read :
    ReadsNamed stick (fun _ => 0) noBuffers [47, 97] (fun _ => 0) 0 0 (some stickFile) := by
  have name : components [47, 97] = [[97]] := rfl
  have named : stickFile.Named [97] := (stick_named [97]).mpr (by decide)
  have regular : ¬ stickFile.IsDir := not_not.mpr (by decide)
  have resolves : Resolves stick stickDirectory (components [47, 97]) (some stickFile) := by
    rw [name]
    exact .file List.mem_cons_self named regular
  refine reads_named (stick_accepted _) stick_root resolves
    ⟨stick_reach, by decide, ?_, fun x same => ?_⟩ _ 0
  · rw [name]
    refine .last stick_plain fun x member _ => ⟨?_, ?_⟩
    · rw [List.mem_singleton.mp member]
      exact regular
    · rintro ⟨c, last, delim⟩
      cases last
      cases delim
  · cases same
    refine ⟨[2], stick_chain, by decide, fun t inside => ?_⟩
    have size : (t + 1) * 512 < 10 := inside
    omega

def mydisk : List UInt8 := [109, 121, 100, 105, 115, 107]

lemma mydisk_components : components mydisk = [mydisk] :=
  components_single ⟨List.cons_ne_nil _ _, fun _ first => Option.some.inj first ▸ rfl⟩ (by decide)

lemma mydisk_missing : Resolves stick stickDirectory (components mydisk) none := by
  rw [mydisk_components]
  refine .missing fun x member => ?_
  rw [List.mem_singleton.mp member, stick_named]
  decide

lemma mydisk_finds : PathFinds (volumeOf stick (fun _ => 0) noBuffers) none (downcase mydisk)
    (some (direntOf (stick.bytesFrom 19) 0)) := by
  refine .last (by decide) (.here ?_)
  rfl

/-- The label of a volume is opened, as a file of no bytes. -/
theorem label_opened :
    RootAt stick stickDirectory ∧ Resolves stick stickDirectory (components mydisk) none ∧
      ¬ ReadsNamed stick (fun _ => 0) noBuffers mydisk (fun _ => 0) 0 0 none := by
  refine ⟨stick_root, mydisk_missing, fun missed => ?_⟩
  have empty : FileAt stick (direntOf (stick.bytesFrom 19) 0) [] := by
    refine ⟨?_, ⟨?_, ?_⟩, ?_⟩
    · intro n first
      cases first
    · intro n member
      cases member
    · intro t inside
      cases inside
    · decide
  have plain : PlainFile stick [] (count (direntOf (stick.bytesFrom 19) 0) 0) :=
    ⟨by decide, fun t inside => absurd inside (Nat.not_lt_zero _)⟩
  have opened := @returns_some _ _ _ mydisk (fun _ => 0) 0 0 (stick_accepted fun _ => 0) stick_reach
    (by decide) (by decide) _ mydisk_finds _ empty plain
  obtain ⟨enough, returns⟩ := missed
  obtain ⟨later, returns'⟩ := opened
  have first := returns (enough + later) (Nat.le_add_right _ _)
  rw [returns' (enough + later) (Nat.le_add_left _ _)] at first
  cases first

end FatNamed
