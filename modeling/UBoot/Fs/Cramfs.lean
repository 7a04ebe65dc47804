import Mathlib.Data.List.DropRight
import UBoot.Fs.Jffs2Lookup
import UBoot.Lib.ByteOrder

/-!
# The search of a file in a cramfs image (fs/cramfs/cramfs.c)

An image is a function from the distance to its begin to the byte there. Offsets have 28 bits and
sizes 24, so that no sum of them leaves an `unsigned long`.
-/

namespace Cramfs

open Jffs2 (strncmp)

abbrev Image := Nat → UInt8
abbrev Name := List UInt8

def slash : UInt8 := 47

def word (img : Image) (place : Nat) : Nat := LittleEndian.word 4 fun i => img (place + i)

/-- The fields of `struct cramfs_inode` that the search reads. -/
structure Inode where
  mode : Nat
  size : Nat
  namelen : Nat
  offset : Nat
deriving DecidableEq

def inodeAt (img : Image) (place : Nat) : Inode where
  mode := word img place % 0x10000
  size := word img (place + 4) % 0x1000000
  namelen := word img (place + 8) % 0x40
  offset := word img (place + 8) / 0x40

def Inode.isDir (inode : Inode) : Bool := inode.mode / 0x1000 == 4

def Inode.isReg (inode : Inode) : Bool := inode.mode / 0x1000 == 8

/-- `namelen` without the zeros at the end, or `none` if there is nothing else. -/
def trimmed (img : Image) (name : Nat) : (namelen : Nat) → Option Nat
  | 0 => none
  | namelen + 1 => if img (name + namelen) ≠ 0 then some (namelen + 1) else trimmed img name namelen

def nameAt (img : Image) (name namelen : Nat) : Name :=
  (List.range namelen).map fun i => img (name + i)

/-- `strtok (NULL, "/")`: the token, and `___strtok` behind it. -/
def strtok : (saved : Option (List UInt8)) → Option Name × Option (List UInt8)
  | none => (none, none)
  | some s =>
    let sbegin := s.dropWhile (· = slash)
    if sbegin = [] then (none, none)
    else
      let send := sbegin.dropWhile (· ≠ slash)
      (some (sbegin.takeWhile (· ≠ slash)), if send = [] then none else some send.tail)

inductive Search where
  | entry (inodeoffset : Nat)
  | absent
  | noName                              -- "if (!namelen) return -1"
  | nullComponent                       -- `strncmp` of NULL
deriving DecidableEq

/-- "while (inodeoffset < size)" up to the first entry that compares equal. -/
def search (img : Image) (offset size : Nat) (filename : Option Name) :
    (fuel : Nat) → (inodeoffset : Nat) → Search
  | 0, _ => .absent
  | fuel + 1, inodeoffset =>
    if inodeoffset < size then
      let inode := inodeAt img (offset + inodeoffset)
      let name := offset + inodeoffset + 12
      match trimmed img name (inode.namelen * 4) with
      | none => .noName
      | some namelen => match filename with
        | none => .nullComponent
        | some filename =>
          if strncmp filename (nameAt img name namelen) namelen = 0 then .entry inodeoffset
          else search img offset size (some filename) fuel (inodeoffset + 12 + inode.namelen * 4)
    else .absent

inductive Outcome where
  | returns (offset : Nat)
  | nullComponent
deriving DecidableEq

/-- `cramfs_resolve`; every call but the last takes a token. -/
def resolve (img : Image) (raw : Bool) : (fuel : Nat) → (offset size : Nat) →
    (filename : Option Name) → (saved : Option (List UInt8)) → Outcome
  | 0, _, _, _, _ => .returns 0
  | fuel + 1, offset, size, filename, saved =>
    match search img offset size filename size 0 with
    | .noName => .returns 0xffffffff
    | .nullComponent => .nullComponent
    | .absent => .returns 0
    | .entry inodeoffset =>
      let inode := inodeAt img (offset + inodeoffset)
      let p := strtok saved
      if raw ∧ p.1 = none then .returns (offset + inodeoffset)
      else if inode.isDir then resolve img raw fuel (inode.offset * 4) inode.size p.1 p.2
      else if inode.isReg then .returns (offset + inodeoffset)
      else .returns 0

/-- `cramfs_read_super`: the root inode of a superblock that passes the checks. -/
def readSuper (img : Image) : Option Inode :=
  let magic := 0x28cd3d45
  if word img 0 ≠ magic ∧ word img 512 ≠ magic then none
  else
    let super := if word img 0 = magic then 0 else 512
    let flags := word img (super + 8)
    let root := inodeAt img (super + 64)
    if flags / 0x800 ≠ 0 then none      -- ~CRAMFS_SUPPORTED_FLAGS
    else if ¬ root.isDir then none
    else if root.offset ≠ 0 ∧ flags / 0x400 % 2 = 0 ∧ root.offset * 4 ≠ 76 ∧
      root.offset * 4 ≠ 512 + 76 then none
    else some root

inductive Load where
  | returns (value : Int)
  | uncompresses (offset : Nat)
  | nullComponent

/-- `cramfs_load`, up to the call of `cramfs_uncompress`. -/
def load (img : Image) (filename : List UInt8) : Load :=
  match readSuper img with
  | none => .returns (-1)
  | some root =>
    let p := strtok (some filename)
    match resolve img false (filename.length + 2) (root.offset * 4) root.size p.1 p.2 with
    | .nullComponent => .nullComponent
    | .returns offset => if offset ≤ 0 then .returns offset else .uncompresses offset

/-! ## What an image holds -/

structure Dir where
  offset : Nat
  size : Nat

structure Entry where
  place : Nat
  name : Name
  inode : Inode
deriving DecidableEq

def Inode.dir (inode : Inode) : Dir := ⟨inode.offset * 4, inode.size⟩

/-- The entries from a place to the end of a directory, each with a name that is padded with
zeros. -/
def listing (img : Image) : (fuel : Nat) → (place stop : Nat) → Option (List Entry)
  | 0, place, stop => if place = stop then some [] else none
  | fuel + 1, place, stop =>
    if place = stop then some []
    else
      let inode := inodeAt img place
      let next := place + 12 + inode.namelen * 4
      let name := (nameAt img (place + 12) (inode.namelen * 4)).rdropWhile (· = 0)
      if next ≤ stop ∧ name ≠ [] ∧ 0 ∉ name ∧ slash ∉ name then
        (listing img fuel next stop).map (⟨place, name, inode⟩ :: ·)
      else none

def Dir.listing? (img : Image) (dir : Dir) : Option (List Entry) :=
  listing img dir.size dir.offset (dir.offset + dir.size)

def Dir.entries (img : Image) (dir : Dir) : List Entry := (dir.listing? img).getD []

inductive Leads (img : Image) (root : Dir) : List Name → Dir → Prop where
  | root : Leads img root [] root
  | step {path : List Name} {dir : Dir} {e : Entry} (leads : Leads img root path dir)
      (member : e ∈ dir.entries img) (isDir : e.inode.isDir) :
      Leads img root (path ++ [e.name]) e.inode.dir

structure Volume where
  img : Image
  root : Inode
  superblock : readSuper img = some root
  listed : ∀ {path dir}, Leads img root.dir path dir → (dir.listing? img).isSome
  distinct : ∀ {path dir}, Leads img root.dir path dir → ((dir.entries img).map Entry.name).Nodup
  behind : ∀ {path dir e}, Leads img root.dir path dir → e ∈ dir.entries img → 0 < e.place
  tree : ∀ {path dir e path' dir' e'}, Leads img root.dir path dir → e ∈ dir.entries img →
    Leads img root.dir path' dir' → e' ∈ dir'.entries img → e.place = e'.place →
      path ++ [e.name] = path' ++ [e'.name]

def components (filename : List UInt8) : List Name :=
  (filename.splitOn slash).filter (· ≠ [])

def lookup (img : Image) : Dir → List Name → Option Nat
  | _, [] => none
  | dir, name :: rest =>
    match (dir.entries img).find? (·.name = name) with
    | none => none
    | some e =>
      if e.inode.isDir then lookup img e.inode.dir rest
      else if e.inode.isReg ∧ rest = [] then some e.place else none

def Volume.file (v : Volume) (filename : List UInt8) : Option Nat :=
  lookup v.img v.root.dir (components filename)

/-- What `cramfs_resolve` returns to `cramfs_load`. -/
def Volume.resolved (v : Volume) (filename : List UInt8) : Outcome :=
  resolve v.img false (filename.length + 2) v.root.dir.offset v.root.dir.size
    (strtok (some filename)).1 (strtok (some filename)).2

structure Volume.Right (v : Volume) (filename : List UInt8) : Prop where
  component : v.resolved filename ≠ .nullComponent
  found : ∀ place, v.file filename = some place → v.resolved filename = .returns place
  absent : v.file filename = none → ∃ value ≤ 0, load v.img filename = .returns value

/-! ## When the search is right -/

/-- From a directory, the first entry for each component whose name the component begins with. -/
def trail (img : Image) : Dir → List Name → List Entry
  | _, [] => []
  | dir, name :: rest =>
    match (dir.entries img).find? (·.name <+: name) with
    | none => []
    | some e => e :: if e.inode.isDir then trail img e.inode.dir rest else []

def RunsOut (img : Image) : Dir → List Name → Prop
  | dir, [] => dir.entries img ≠ []
  | dir, name :: rest =>
    ∃ e, (dir.entries img).find? (·.name <+: name) = some e ∧ e.inode.isDir ∧
      RunsOut img e.inode.dir rest

/-- Where the trail ends at a regular file, its names are the components of the path; otherwise
there is no regular file of the path, and the components do not run out at a directory with
entries. -/
structure Volume.Meets (v : Volume) (filename : List UInt8) : Prop where
  exactly : ∀ e, (trail v.img v.root.dir (components filename)).getLast? = some e → e.inode.isReg →
    (trail v.img v.root.dir (components filename)).map Entry.name = components filename
  otherwise : (∀ e, (trail v.img v.root.dir (components filename)).getLast? = some e →
    ¬ e.inode.isReg) → v.file filename = none
  ends : ¬ RunsOut v.img v.root.dir (components filename)

/-! ## Tokens -/

def tokens (saved : Option (List UInt8)) : List Name := (saved.map components).getD []

lemma components_cons_slash (s : List UInt8) : components (slash :: s) = components s := by
  rw [components, components, List.splitOn_cons_eq_if_modifyHead, if_pos (beq_self_eq_true slash)]
  rfl

lemma components_dropWhile (s : List UInt8) :
    components (s.dropWhile (· = slash)) = components s := by
  induction s with
  | nil => rfl
  | cons a s ih =>
    by_cases isSlash : a = slash
    · subst isSlash
      rw [List.dropWhile_cons_of_pos (by simp), components_cons_slash, ih]
    · rw [List.dropWhile_cons_of_neg (by simp [isSlash])]

lemma splitOn_eq (s : List UInt8) :
    s.splitOn slash = s.takeWhile (· ≠ slash) ::
      if s.dropWhile (· ≠ slash) = [] then []
      else (s.dropWhile (· ≠ slash)).tail.splitOn slash := by
  induction s with
  | nil => rfl
  | cons a s ih =>
    rw [List.splitOn_cons_eq_if_modifyHead]
    by_cases isSlash : a = slash
    · subst isSlash
      rw [if_pos (beq_self_eq_true slash), List.takeWhile_cons_of_neg (by simp),
        List.dropWhile_cons_of_neg (by simp), if_neg (List.cons_ne_nil _ _), List.tail_cons]
    · rw [if_neg (by simp [isSlash]), List.takeWhile_cons_of_pos (by simp [isSlash]),
        List.dropWhile_cons_of_pos (by simp [isSlash]), ih, List.modifyHead_cons]

lemma strtok_spec (saved : Option (List UInt8)) :
    (strtok saved).1 = (tokens saved).head? ∧ tokens (strtok saved).2 = (tokens saved).tail := by
  cases saved with
  | none => exact ⟨rfl, rfl⟩
  | some s =>
    have same := components_dropWhile s
    rw [strtok]
    dsimp only [tokens, Option.map_some, Option.getD_some]
    rw [← same]
    generalize starts : s.dropWhile (· = slash) = sbegin
    by_cases empty : sbegin = []
    · rw [if_pos empty, empty]
      exact ⟨rfl, rfl⟩
    obtain ⟨a, t, rfl⟩ := List.exists_cons_of_ne_nil empty
    have first : a ≠ slash := by
      have := List.head_dropWhile_not (· = slash) (starts ▸ empty)
      simpa [starts] using this
    have token : (a :: t).takeWhile (· ≠ slash) ≠ [] := by
      rw [List.takeWhile_cons_of_pos (by simp [first])]
      exact List.cons_ne_nil _ _
    rw [if_neg empty, components, splitOn_eq, List.filter_cons_of_pos (by simpa using token)]
    refine ⟨rfl, ?_⟩
    rw [List.tail_cons]
    by_cases last : (a :: t).dropWhile (· ≠ slash) = []
    · dsimp only
      rw [if_pos last, if_pos last]
      rfl
    · dsimp only
      rw [if_neg last, if_neg last]
      rfl

lemma length_components (s : List UInt8) : (components s).length ≤ s.length + 1 := by
  refine le_trans (List.length_filter_le _ _) ?_
  induction s with
  | nil => exact le_rfl
  | cons a s ih =>
    rw [List.splitOn_cons_eq_if_modifyHead]
    split
    · exact Nat.succ_le_succ ih
    · rw [List.length_modifyHead]
      exact Nat.le_succ_of_le ih

/-! ## One directory -/

variable {img : Image} {es : List Entry} {e : Entry}

lemma strncmp_iff {cs ct : List UInt8} (clean : 0 ∉ ct) :
    strncmp cs ct ct.length = 0 ↔ ct <+: cs := by
  induction ct generalizing cs with
  | nil => exact iff_of_true rfl List.nil_prefix
  | cons b ct ih =>
    rw [List.mem_cons, not_or] at clean
    have nonzero : b ≠ 0 := fun zero => clean.1 zero.symm
    cases cs with
    | nil =>
      have differ : ([] : List UInt8).headD 0 - (b :: ct).headD 0 ≠ 0 :=
        fun zero => nonzero (by grind)
      rw [List.length_cons, strncmp, if_pos (.inl differ)]
      exact iff_of_false differ (by simp)
    | cons a cs =>
      simp only [List.length_cons, strncmp, List.headD_cons, List.tail_cons]
      by_cases equal : a = b
      · subst equal
        simp [nonzero, ih clean.2]
      · have differ : a - b ≠ 0 := fun zero => equal (by grind)
        simp [differ, List.cons_prefix_cons, Ne.symm equal]

lemma nameAt_succ (img : Image) (name namelen : Nat) :
    nameAt img name (namelen + 1) = nameAt img name namelen ++ [img (name + namelen)] := by
  rw [nameAt, nameAt, List.range_succ, List.map_append, List.map_singleton]

lemma trimmed_spec (img : Image) (name namelen : Nat) :
    ((nameAt img name namelen).rdropWhile (· = 0) ≠ [] →
      ∃ len, trimmed img name namelen = some len ∧ nameAt img name len =
        (nameAt img name namelen).rdropWhile (· = 0)) := by
  induction namelen with
  | zero => exact fun some_name => absurd rfl some_name
  | succ namelen ih =>
    rw [trimmed, nameAt_succ]
    by_cases zero : img (name + namelen) = 0
    · rw [if_neg (not_not.mpr zero), List.rdropWhile_concat_pos _ _ _ (by simp [zero])]
      exact ih
    · rw [if_pos zero, List.rdropWhile_concat_neg _ _ _ (by simp [zero]), ← nameAt_succ]
      exact fun _ => ⟨_, rfl, rfl⟩

@[simp] lemma length_nameAt (img : Image) (name namelen : Nat) :
    (nameAt img name namelen).length = namelen := by
  rw [nameAt, List.length_map, List.length_range]

structure Entry.Listed (img : Image) (place : Nat) (e : Entry) : Prop where
  at_or_behind : place ≤ e.place
  inode : e.inode = inodeAt img e.place

lemma listed_of_mem {fuel place stop : Nat} (list : listing img fuel place stop = some es)
    (member : e ∈ es) :
    e.Listed img place := by
  induction fuel generalizing place es with
  | zero =>
    rw [listing] at list
    split at list
    · cases list
      exact absurd member List.not_mem_nil
    · cases list
  | succ fuel ih =>
    rw [listing] at list
    split at list
    · cases list
      exact absurd member List.not_mem_nil
    dsimp only at list
    split at list
    · obtain ⟨rest, later, rfl⟩ := Option.map_eq_some_iff.mp list
      rcases List.mem_cons.mp member with rfl | inside
      · exact ⟨le_rfl, rfl⟩
      · have known := ih later inside
        exact ⟨by have := known.at_or_behind; omega, known.inode⟩
    · cases list

lemma search_some {offset size fuel i : Nat}
    (list : listing img fuel (offset + i) (offset + size) = some es) (filename : Name) :
    search img offset size (some filename) fuel i =
      match es.find? (·.name <+: filename) with
      | none => .absent
      | some e => .entry (e.place - offset) := by
  induction fuel generalizing i es with
  | zero =>
    rw [listing] at list
    split at list
    · cases list
      rfl
    · cases list
  | succ fuel ih =>
    rw [listing] at list
    rw [search]
    split at list
    · cases list
      rw [if_neg (by omega)]
      rfl
    dsimp only at list
    split at list
    · rename_i good
      obtain ⟨inside, some_name, clean, -⟩ := good
      obtain ⟨rest, later, rfl⟩ := Option.map_eq_some_iff.mp list
      obtain ⟨len, trims, same⟩ := trimmed_spec _ _ _ some_name
      have length : ((nameAt img (offset + i + 12)
          ((inodeAt img (offset + i)).namelen * 4)).rdropWhile (· = 0)).length = len := by
        rw [← same, length_nameAt]
      rw [if_pos (by omega)]
      dsimp only
      rw [trims]
      dsimp only
      rw [same, List.find?_cons]
      have compares := @strncmp_iff filename _ clean
      rw [length] at compares
      by_cases starts : (nameAt img (offset + i + 12)
          ((inodeAt img (offset + i)).namelen * 4)).rdropWhile (· = 0) <+: filename
      · rw [if_pos (compares.mpr starts)]
        simp [starts]
      · rw [if_neg fun equal => starts (compares.mp equal)]
        simp only [starts, decide_false]
        exact ih (by rw [← later]; congr 1; omega)
    · cases list

lemma search_none {offset size fuel i : Nat}
    (list : listing img fuel (offset + i) (offset + size) = some es) :
    search img offset size none fuel i = if es.isEmpty then .absent else .nullComponent := by
  cases fuel with
  | zero =>
    rw [listing] at list
    split at list
    · cases list
      rfl
    · cases list
  | succ fuel =>
    rw [listing] at list
    rw [search]
    split at list
    · cases list
      rw [if_neg (by omega)]
      rfl
    dsimp only at list
    split at list
    · rename_i good
      obtain ⟨rest, later, rfl⟩ := Option.map_eq_some_iff.mp list
      obtain ⟨len, trims, -⟩ := trimmed_spec _ _ _ good.2.1
      rw [if_pos (by omega)]
      dsimp only
      rw [trims]
      rfl
    · cases list

/-! ## The whole path -/

def ended (t : List Entry) : Nat :=
  match t.getLast? with
  | some e => if e.inode.isReg then e.place else 0
  | none => 0

lemma Inode.not_isReg {inode : Inode} (isDir : inode.isDir) : ¬ inode.isReg := by
  rw [Inode.isDir, beq_iff_eq] at isDir
  rw [Inode.isReg, beq_iff_eq, isDir]
  decide

lemma ended_cons_dir (isDir : e.inode.isDir) (t : List Entry) :
    ended (e :: t) = ended t := by
  cases t with
  | nil =>
    rw [ended, List.getLast?_singleton]
    exact if_neg (Inode.not_isReg isDir)
  | cons next t => rw [ended, ended, List.getLast?_cons_cons]

section
variable (v : Volume) {path : List Name} {dir : Dir}

variable {comps : List Name}

lemma Volume.listing_entries (leads : Leads v.img v.root.dir path dir) :
    listing v.img dir.size (dir.offset + 0) (dir.offset + dir.size) =
      some (dir.entries v.img) := by
  obtain ⟨es, list⟩ := Option.isSome_iff_exists.mp (v.listed leads)
  rw [Dir.entries, list]
  exact list

lemma Volume.resolve_spec (leads : Leads v.img v.root.dir path dir) {comps : List Name}
    {fuel : Nat} {saved : Option (List UInt8)} (enough : comps.length < fuel)
    (later : tokens saved = comps.tail) :
    (RunsOut v.img dir comps →
      resolve v.img false fuel dir.offset dir.size comps.head? saved = .nullComponent) ∧
      (¬ RunsOut v.img dir comps →
        resolve v.img false fuel dir.offset dir.size comps.head? saved =
          .returns (ended (trail v.img dir comps))) := by
  induction comps generalizing path dir fuel saved with
  | nil =>
    obtain ⟨fuel, rfl⟩ := Nat.exists_eq_succ_of_ne_zero (Nat.ne_of_gt enough)
    rw [resolve, List.head?_nil, search_none (v.listing_entries leads)]
    by_cases empty : dir.entries v.img = []
    · rw [if_pos (List.isEmpty_iff.mpr empty)]
      exact ⟨fun runs => absurd empty runs, fun _ => rfl⟩
    · rw [if_neg fun nil => empty (List.isEmpty_iff.mp nil)]
      exact ⟨fun _ => rfl, fun stays => absurd empty stays⟩
  | cons name rest ih =>
    obtain ⟨fuel, rfl⟩ := Nat.exists_eq_succ_of_ne_zero
      (Nat.ne_of_gt (Nat.zero_lt_of_lt enough))
    rw [List.length_cons, Nat.succ_lt_succ_iff] at enough
    rw [resolve, List.head?_cons, search_some (v.listing_entries leads), trail, RunsOut]
    cases first : (dir.entries v.img).find? (·.name <+: name) with
    | none => exact ⟨fun ⟨e, found, _⟩ => absurd found.symm (Option.some_ne_none e),
        fun _ => rfl⟩
    | some e =>
      have member := List.mem_of_find?_eq_some first
      have known := listed_of_mem (v.listing_entries leads) member
      have place : dir.offset + (e.place - dir.offset) = e.place := by
        have := known.at_or_behind
        omega
      obtain ⟨token, others⟩ := strtok_spec saved
      rw [List.tail_cons] at later
      rw [later] at token others
      dsimp only
      rw [place, ← known.inode, if_neg (by simp), token]
      by_cases isDir : e.inode.isDir
      · obtain ⟨stops, returns⟩ := ih (.step leads member isDir) enough others
        rw [if_pos isDir, if_pos isDir, ended_cons_dir isDir]
        refine ⟨fun ⟨e', found, _, runs⟩ => stops ?_, fun stays => returns fun runs => ?_⟩
        · cases found
          exact runs
        · exact stays ⟨e, rfl, isDir, runs⟩
      · have stays : ¬ ∃ e', some e = some e' ∧ e'.inode.isDir ∧
            RunsOut v.img e'.inode.dir rest := by
          rintro ⟨e', found, dir', -⟩
          cases found
          exact isDir dir'
        rw [if_neg isDir, if_neg isDir]
        refine ⟨fun runs => absurd runs stays, fun _ => ?_⟩
        rw [ended, List.getLast?_singleton]
        dsimp only
        split <;> rfl

lemma lookup_mem {root : Dir} (leads : Leads img root path dir) {place : Nat}
    (found : lookup img dir comps = some place) :
    ∃ path' dir' e, Leads img root path' dir' ∧ e ∈ dir'.entries img ∧ e.place = place ∧
      path' ++ [e.name] = path ++ comps := by
  induction comps generalizing path dir with
  | nil => cases found
  | cons name rest ih =>
    rw [lookup] at found
    cases first : (dir.entries img).find? (·.name = name) with
    | none =>
      rw [first] at found
      cases found
    | some e =>
      rw [first] at found
      dsimp only at found
      have member := List.mem_of_find?_eq_some first
      have named : e.name = name := by simpa using List.find?_some first
      by_cases isDir : e.inode.isDir
      · rw [if_pos isDir] at found
        obtain ⟨path', dir', e', leads', member', place', whole⟩ :=
          ih (.step leads member isDir) found
        exact ⟨path', dir', e', leads', member', place', by rw [whole, named]; simp⟩
      · rw [if_neg isDir] at found
        split at found
        · rename_i last
          cases found
          exact ⟨path, dir, e, leads, member, rfl, by rw [named, last.2]⟩
        · cases found

lemma trail_mem {root : Dir} (leads : Leads img root path dir)
    (last : (trail img dir comps).getLast? = some e) :
    ∃ path' dir', Leads img root path' dir' ∧ e ∈ dir'.entries img ∧
      path' ++ [e.name] = path ++ (trail img dir comps).map Entry.name := by
  induction comps generalizing path dir with
  | nil => cases last
  | cons name rest ih =>
    rw [trail] at last ⊢
    cases first : (dir.entries img).find? (·.name <+: name) with
    | none =>
      rw [first] at last
      cases last
    | some e' =>
      rw [first] at last
      dsimp only at last ⊢
      have member := List.mem_of_find?_eq_some first
      by_cases further : e'.inode.isDir ∧ trail img e'.inode.dir rest ≠ []
      · obtain ⟨isDir, more⟩ := further
        rw [if_pos isDir] at last ⊢
        rw [List.getLast?_cons_of_ne_nil more] at last
        obtain ⟨path', dir', leads', member', whole⟩ := ih (.step leads member isDir) last
        exact ⟨path', dir', leads', member', by rw [whole]; simp⟩
      · have ends : (if e'.inode.isDir then trail img e'.inode.dir rest else []) = [] := by
          split
          · exact not_not.mp fun more => further ⟨‹_›, more⟩
          · rfl
        rw [ends] at last ⊢
        cases last
        exact ⟨path, dir, leads, member, rfl⟩

lemma find?_name (distinct : (es.map Entry.name).Nodup) (member : e ∈ es) :
    es.find? (·.name = e.name) = some e := by
  induction es with
  | nil => exact absurd member List.not_mem_nil
  | cons first es ih =>
    rw [List.map_cons, List.nodup_cons] at distinct
    rcases List.mem_cons.mp member with rfl | later
    · exact List.find?_cons_of_pos (by simp)
    have other : first.name ≠ e.name :=
      fun same => distinct.1 (same ▸ List.mem_map_of_mem later)
    rw [List.find?_cons_of_neg (by simpa using other)]
    exact ih distinct.2 later

lemma Volume.lookup_of_trail (leads : Leads v.img v.root.dir path dir)
    (last : (trail v.img dir comps).getLast? = some e) (isReg : e.inode.isReg)
    (names : (trail v.img dir comps).map Entry.name = comps) :
    lookup v.img dir comps = some e.place := by
  induction comps generalizing path dir with
  | nil => cases last
  | cons name rest ih =>
    rw [trail] at last names
    rw [lookup]
    cases first : (dir.entries v.img).find? (·.name <+: name) with
    | none =>
      rw [first] at last
      cases last
    | some e' =>
      rw [first] at last names
      dsimp only at last names
      rw [List.map_cons] at names
      obtain ⟨rfl, others⟩ := List.cons.inj names
      have member := List.mem_of_find?_eq_some first
      rw [find?_name (v.distinct leads) member]
      dsimp only
      by_cases isDir : e'.inode.isDir
      · rw [if_pos isDir] at last others ⊢
        refine ih (.step leads member isDir) ?_ others
        cases t : trail v.img e'.inode.dir rest with
        | nil =>
          rw [t, List.getLast?_singleton] at last
          cases last
          exact absurd isReg (Inode.not_isReg isDir)
        | cons next t' =>
          rwa [t, List.getLast?_cons_cons] at last
      · rw [if_neg isDir] at last others ⊢
        cases last
        exact if_pos ⟨isReg, others.symm⟩

end

section
variable (v : Volume) {filename : List UInt8}

lemma Volume.load_resolved {offset : Nat} (resolved : v.resolved filename = .returns offset) :
    load v.img filename = if offset ≤ 0 then .returns offset else .uncompresses offset := by
  rw [load, v.superblock]
  dsimp only
  rw [show resolve v.img false (filename.length + 2) (v.root.offset * 4) v.root.size
    (strtok (some filename)).1 (strtok (some filename)).2 = .returns offset from resolved]

lemma Volume.right_iff_names
    (last : (trail v.img v.root.dir (components filename)).getLast? = some e)
    (isReg : e.inode.isReg) (resolved : v.resolved filename = .returns e.place) :
    v.Right filename ↔
      (trail v.img v.root.dir (components filename)).map Entry.name = components filename := by
  obtain ⟨path, dir, leads, member, names⟩ := trail_mem (.root : Leads v.img v.root.dir [] _) last
  have behind := v.behind leads member
  constructor
  · intro right
    cases there : v.file filename with
    | none =>
      obtain ⟨value, -, refused⟩ := right.absent there
      rw [v.load_resolved resolved, if_neg (not_le.mpr behind)] at refused
      cases refused
    | some place =>
      obtain ⟨path', dir', e', leads', member', place', whole⟩ :=
        lookup_mem (.root : Leads v.img v.root.dir [] _) there
      have taken := right.found place there
      rw [resolved, ← place'] at taken
      have same := v.tree leads member leads' member' (Outcome.returns.inj taken)
      rwa [names, whole] at same
  · intro same
    have there : v.file filename = some e.place := v.lookup_of_trail .root last isReg same
    refine ⟨?_, fun place found => ?_, fun absent => ?_⟩
    · rw [resolved]
      exact Outcome.noConfusion
    · rw [there] at found
      cases found
      exact resolved
    · rw [there] at absent
      cases absent

lemma Volume.right_iff_none (resolved : v.resolved filename = .returns 0) :
    v.Right filename ↔ v.file filename = none := by
  constructor
  · intro right
    by_contra there
    obtain ⟨place, found⟩ := Option.ne_none_iff_exists'.mp there
    obtain ⟨path, dir, e, leads, member, rfl, -⟩ :=
      lookup_mem (.root : Leads v.img v.root.dir [] _) found
    have taken := right.found _ found
    rw [resolved] at taken
    have behind := v.behind leads member
    rw [← Outcome.returns.inj taken] at behind
    exact absurd behind (lt_irrefl 0)
  · intro absent
    refine ⟨?_, fun place found => ?_, fun _ => ⟨0, Int.le_refl 0, ?_⟩⟩
    · rw [resolved]
      exact Outcome.noConfusion
    · rw [absent] at found
      cases found
    · rw [v.load_resolved resolved]
      rfl

end

/-- For every volume and path, the search is right if and only if the first entries whose names the
components begin with end at a regular file only under the exact names, pass over no file of the
path otherwise, and do not lead with the last component to a directory that has entries. -/
theorem cramfs_right_iff (v : Volume) (filename : List UInt8) :
    v.Right filename ↔ v.Meets filename := by
  have token := strtok_spec (some filename)
  have first : (components filename).head? = (strtok (some filename)).1 := token.1.symm
  obtain ⟨stops, returns⟩ := @Volume.resolve_spec v _ _ .root (components filename) _ _
    (Nat.lt_succ_of_le (length_components filename)) token.2
  rw [first] at stops returns
  by_cases runs : RunsOut v.img v.root.dir (components filename)
  · exact iff_of_false (fun right => right.component (stops runs)) fun meets => meets.ends runs
  · have resolved : v.resolved filename =
        .returns (ended (trail v.img v.root.dir (components filename))) := returns runs
    by_cases regular : ∃ e, (trail v.img v.root.dir (components filename)).getLast? = some e ∧
        e.inode.isReg
    · obtain ⟨e, last, isReg⟩ := regular
      rw [ended, last] at resolved
      rw [v.right_iff_names last isReg (resolved.trans (congrArg _ (if_pos isReg)))]
      refine ⟨fun names => ⟨fun _ _ _ => names, fun others => absurd isReg (others e last), runs⟩,
        fun meets => meets.exactly e last isReg⟩
    · have others : ∀ e, (trail v.img v.root.dir (components filename)).getLast? = some e →
          ¬ e.inode.isReg := fun e last isReg => regular ⟨e, last, isReg⟩
      have nothing : ended (trail v.img v.root.dir (components filename)) = 0 := by
        rw [ended]
        cases last : (trail v.img v.root.dir (components filename)).getLast? with
        | none => rfl
        | some e => exact if_neg (others e last)
      rw [nothing] at resolved
      rw [v.right_iff_none resolved]
      exact ⟨fun absent =>
          ⟨fun e last isReg => absurd isReg (others e last), fun _ => absent, runs⟩,
        fun meets => meets.otherwise others⟩

def oneFileBytes : List UInt8 :=
  [0x45, 0x3d, 0xcd, 0x28] ++ List.replicate 60 0 ++
    [0xed, 0x41, 0, 0, 16, 0, 0, 0, 0xc0, 4, 0, 0] ++
    [0xa4, 0x81, 0, 0, 0, 0, 0, 0, 1, 0, 0, 0, 97, 0, 0, 0]

def oneFile : Image := fun i => oneFileBytes.getD i 0

def oneFileRoot : Inode := ⟨0x41ed, 16, 0, 19⟩

lemma oneFile_listing : oneFileRoot.dir.listing? oneFile =
    some [⟨76, [97], ⟨0x81a4, 0, 1, 0⟩⟩] := by decide +kernel

lemma oneFile_entries : oneFileRoot.dir.entries oneFile = [⟨76, [97], ⟨0x81a4, 0, 1, 0⟩⟩] := by
  rw [Dir.entries, oneFile_listing]
  rfl

lemma oneFile_leads {path : List Name} {dir : Dir}
    (leads : Leads oneFile oneFileRoot.dir path dir) : path = [] ∧ dir = oneFileRoot.dir := by
  induction leads with
  | root => exact ⟨rfl, rfl⟩
  | step leads member isDir ih =>
    obtain ⟨-, rfl⟩ := ih
    rw [oneFile_entries] at member
    obtain rfl := List.mem_singleton.mp member
    exact absurd isDir (by decide)

def oneFileVolume : Volume where
  img := oneFile
  root := oneFileRoot
  superblock := by decide +kernel
  listed leads := by
    obtain ⟨-, rfl⟩ := oneFile_leads leads
    rw [oneFile_listing]
    rfl
  distinct leads := by
    obtain ⟨-, rfl⟩ := oneFile_leads leads
    rw [oneFile_entries]
    decide
  behind leads member := by
    obtain ⟨-, rfl⟩ := oneFile_leads leads
    rw [oneFile_entries] at member
    obtain rfl := List.mem_singleton.mp member
    decide
  tree leads member leads' member' _ := by
    obtain ⟨rfl, rfl⟩ := oneFile_leads leads
    obtain ⟨rfl, rfl⟩ := oneFile_leads leads'
    rw [oneFile_entries] at member member'
    obtain rfl := List.mem_singleton.mp member
    obtain rfl := List.mem_singleton.mp member'
    rfl

/-- "ab" and "a/b" are taken for "a", and "/" has no component to compare. -/
theorem other_names_taken :
    oneFileVolume.file [97, 98] = none ∧ oneFileVolume.resolved [97, 98] = .returns 76 ∧
      ¬ oneFileVolume.Right [97, 98] ∧
      oneFileVolume.file [97, 47, 98] = none ∧ oneFileVolume.resolved [97, 47, 98] = .returns 76 ∧
      ¬ oneFileVolume.Right [97, 47, 98] ∧ ¬ oneFileVolume.Right [47] := by
  have taken : oneFileVolume.resolved [97, 98] = .returns 76 := by decide +kernel
  have under : oneFileVolume.resolved [97, 47, 98] = .returns 76 := by decide +kernel
  have absent : oneFileVolume.file [97, 98] = none := by decide +kernel
  have nothing_under : oneFileVolume.file [97, 47, 98] = none := by decide +kernel
  have wrong {filename : List UInt8} (none_there : oneFileVolume.file filename = none)
      (resolved : oneFileVolume.resolved filename = .returns 76) :
      ¬ oneFileVolume.Right filename := by
    intro right
    obtain ⟨value, -, refused⟩ := right.absent none_there
    rw [oneFileVolume.load_resolved resolved] at refused
    cases refused
  exact ⟨absent, taken, wrong absent taken, nothing_under, under, wrong nothing_under under,
    fun right => right.component (by decide +kernel)⟩

end Cramfs
