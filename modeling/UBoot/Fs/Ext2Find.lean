import Mathlib.Data.List.TakeWhile
import UBoot.Fs.Ext2Path

/-!
# The search for a path (fs/ext2/ext2fs.c)

One directory, then one symbolic link, then the loop over the parts of a path: what each does to the
nodes, and what it finds on a well-formed volume.
-/

namespace Ext2Path

open Dialogue

/-! ## One directory -/

variable {turns : Nat}

section
variable {src : Source} {inode : Inode} {name : Text}

lemma walk_ends (later : ∀ p q, Comes src inode name p → turn src inode name p = .on q → p < q)
    {p : Nat} (enough : inode.size.toNat - p < turns)
    (reached : p < inode.size.toNat → Comes src inode name p) :
    (walk src inode name turns p).isSome := by
  induction turns generalizing p with
  | zero => exact absurd enough (Nat.not_lt_zero _)
  | succ turns ih =>
    rw [walk]
    by_cases inside : p < inode.size.toNat
    · rw [if_pos inside]
      have here := reached inside
      cases next : turn src inode name p with
      | stop => rfl
      | found node type => rfl
      | on q =>
        have less := later p q here next
        exact ih (by omega) fun within => here.next next within
    · rw [if_neg inside]
      rfl

end

def Proper (src : Source) (node : Node) : Prop :=
  ∀ inode, node.inode = some inode → src.readInode node.ino = some inode

lemma Proper.inode {src : Source} {node : Node} (proper : Proper src node) {inode : Inode}
    (read : src.readInode node.ino = some inode) : src.inode node = some inode := by
  rw [Source.inode]
  cases held : node.inode with
  | none => exact read
  | some other => exact (proper other held).symm.trans read

lemma string_eq {name : Text} {data : Bytes}
    (same : ∀ k (inside : k < name.length), data k = name[k]) (clean : ∀ c ∈ name, c ≠ 0) :
    string name.length data = name := by
  have read : (List.range name.length).map data = name := by
    apply List.ext_getElem
    · rw [List.length_map, List.length_range]
    · intro k _ inside
      rw [List.getElem_map, List.getElem_range]
      exact same k inside
  rw [string, read, List.takeWhile_eq_self_iff]
  exact fun c member => decide_eq_true (clean c member)

def Finds (src : Source) (t : Tree) (entry : Option Entry) (found : Option (Node × FileType)) :
    Prop :=
  match entry with
  | none => found = none
  | some e => ∃ node, found = some (node, t.kind e.ino) ∧ node.ino = e.ino ∧ Proper src node

section
variable {src : Source} {t : Tree} {inode : Inode} {name : Text}

def wanted (name : Text) (e : Entry) : Bool := e.ino ≠ 0 ∧ e.name = name

lemma entryNode_proper {e : Entry} {d : Dirent} (ino : d.inode = e.ino)
    (type : d.filetype = e.filetype)
    (alive : e.ino ≠ 0 → (∃ i, src.readInode e.ino = some i ∧ typeOfMode i.mode = t.kind e.ino) ∧
      (e.filetype ≠ 0 → typeOfEntry e.filetype = t.kind e.ino))
    (deleted : e.ino = 0 → e.filetype = 0 → (src.readInode 0).isSome) :
    ∃ node type, entryNode src d = some (node, type) ∧ node.ino = e.ino ∧ Proper src node ∧
      (e.ino ≠ 0 → type = t.kind e.ino) := by
  rw [entryNode, ino, type]
  by_cases known : e.filetype ≠ 0
  · rw [if_pos known]
    refine ⟨_, _, rfl, rfl, fun inode held => ?_, fun live => (alive live).2 known⟩
    cases held
  rw [if_neg known]
  rw [not_not] at known
  by_cases live : e.ino ≠ 0
  · obtain ⟨⟨i, read, kind⟩, -⟩ := alive live
    rw [read]
    refine ⟨_, _, rfl, rfl, fun inode held => ?_, fun _ => kind⟩
    cases held
    exact read
  · rw [not_not] at live
    obtain ⟨i, read⟩ := Option.isSome_iff_exists.mp (deleted live known)
    rw [live, read]
    refine ⟨_, _, rfl, rfl, fun inode held => ?_, fun alive => absurd rfl alive⟩
    cases held
    exact read

end

section
variable {src : Source} {t : Tree} {inode : Inode} {name : Text}

variable {found : Option (Node × FileType)}

lemma turn_laid {p : Nat} {e : Entry} {es : List Entry} (memory : ∀ n, src.malloc n)
    (laid : Laid src t inode p (e :: es)) (wants : name ≠ [])
    (clear : (src.dirent inode p).inode = 0 → (src.dirent inode p).namelen ≠ 0 →
      src.filename inode p ≠ name ∧
        ((src.dirent inode p).filetype = 0 → (src.readInode 0).isSome)) :
    (wanted name e = true ∧ ∃ node, turn src inode name p = .found node (t.kind e.ino) ∧
      node.ino = e.ino ∧ Proper src node) ∨
    wanted name e = false ∧ turn src inode name p = .on (p + e.direntlen) := by
  cases laid with
  | @cons _ _ _ data filename fits room header head named same clean alive rest =>
    have small : p + e.direntlen < 2 ^ 32 :=
      lt_of_le_of_lt fits (UInt32.toNat_lt inode.size)
    have dirent_eq : src.dirent inode p = ⟨e.ino, e.direntlen, e.name.length, e.filetype⟩ := by
      rw [Source.dirent, header]
      exact head
    have next_eq : (p + e.direntlen) % 2 ^ 32 = p + e.direntlen := Nat.mod_eq_of_lt small
    rw [turn, header]
    dsimp only
    rw [if_neg (by decide : ¬ ((direntSize : Int) < 1)), head]
    rw [next_eq]
    by_cases unnamed : e.name = []
    · right
      rw [unnamed, List.length_nil, if_neg (not_not.mpr rfl)]
      exact ⟨decide_eq_false fun both => wants (both.2.symm.trans unnamed), rfl⟩
    have some_name : 0 < e.name.length := List.length_pos_iff.mpr unnamed
    have place : (p + direntSize) % 2 ^ 32 = p + direntSize := Nat.mod_eq_of_lt (by omega)
    have text : string e.name.length filename = e.name :=
      string_eq same fun c member => (clean c member).1
    have status : ¬ ((e.name.length : Int) < 1) := by omega
    have name_eq : src.filename inode p = e.name := by
      rw [Source.filename, dirent_eq, place, named unnamed]
      exact text
    rw [dirent_eq, name_eq] at clear
    rw [if_pos (Nat.ne_of_gt some_name), place, named unnamed]
    rw [if_neg status, if_neg (not_not.mpr (memory _)), text]
    obtain ⟨node, type, entry, ino, proper, kind⟩ := @entryNode_proper src t e
      ⟨e.ino, e.direntlen, e.name.length, e.filetype⟩ rfl rfl (fun live => alive live unnamed)
      fun dead known => (clear dead (Nat.ne_of_gt some_name)).2 known
    rw [entry]
    dsimp only
    by_cases same_name : e.name = name
    · have live : e.ino ≠ 0 := fun dead => (clear dead (Nat.ne_of_gt some_name)).1 same_name
      rw [if_pos same_name, kind live]
      exact .inl ⟨decide_eq_true ⟨live, same_name⟩, node, rfl, ino, proper⟩
    · rw [if_neg same_name]
      exact .inr ⟨decide_eq_false fun both => same_name both.2, rfl⟩

lemma walk_laid {p : Nat} {es : List Entry} (memory : ∀ n, src.malloc n)
    (laid : Laid src t inode p es) (wants : name ≠ [])
    (clear : ∀ p, Comes src inode name p → (src.dirent inode p).inode = 0 →
      (src.dirent inode p).namelen ≠ 0 → src.filename inode p ≠ name ∧
        ((src.dirent inode p).filetype = 0 → (src.readInode 0).isSome))
    (reached : p < inode.size.toNat → Comes src inode name p)
    (ends : walk src inode name turns p = some found) :
    Finds src t (es.find? (wanted name)) found := by
  induction es generalizing p turns with
  | nil =>
    cases laid with
    | nil last =>
      cases turns with
      | zero => cases ends
      | succ turns =>
        rw [walk, if_neg (not_lt.mpr (le_of_eq last.symm))] at ends
        exact (Option.some.inj ends).symm
  | cons e es ih =>
    have inside : p < inode.size.toNat := by
      cases laid with
      | cons fits room =>
        have size : direntSize = 8 := rfl
        omega
    cases turns with
    | zero => cases ends
    | succ turns =>
      rw [walk, if_pos inside] at ends
      rcases turn_laid memory laid wants (clear p (reached inside)) with
        ⟨is_wanted, node, turned, ino, proper⟩ | ⟨other, turned⟩
      · rw [turned] at ends
        rw [List.find?_cons_of_pos is_wanted]
        exact ⟨node, (Option.some.inj ends).symm, ino, proper⟩
      · rw [turned] at ends
        rw [List.find?_cons_of_neg (by rw [other]; exact Bool.false_ne_true)]
        cases laid with
        | cons fits room header head named same clean alive rest =>
          exact ih rest (fun within => (reached inside).next turned within) ends

lemma iterateDir_finds (formed : WellFormed src t) {dir : Node} (proper : Proper src dir)
    (kind : t.kind dir.ino = .directory) (wants : name ≠ [])
    (clear : Clear src (.iterateDir dir name))
    (ends : ext2fsIterateDir src turns dir name = some found) :
    Finds src t ((t.entries dir.ino).find? (wanted name)) found := by
  obtain ⟨inode, read, laid⟩ := formed.directories dir.ino kind
  have held := proper.inode read
  rw [ext2fsIterateDir, held] at ends
  exact walk_laid formed.memory laid wants (clear inode held) Comes.start ends

lemma iterateDir_ends {dir : Node} (safe : Safe src (.iterateDir dir name))
    (enough : 2 ^ 32 ≤ turns) : (ext2fsIterateDir src turns dir name).isSome := by
  rw [ext2fsIterateDir]
  cases held : src.inode dir with
  | none => rfl
  | some inode =>
    have small := UInt32.toNat_lt inode.size
    exact walk_ends (safe inode held) (by omega) Comes.start

lemma readSymlink_eq (formed : WellFormed src t) {node : Node} (proper : Proper src node)
    (kind : t.kind node.ino = .symlink) (clear : Clear src (.readSymlink node)) :
    ext2fsReadSymlink src node = some (t.target node.ino) := by
  obtain ⟨inode, read, size, some_text, clean, short, long⟩ := formed.links node.ino kind
  have held := proper.inode read
  have other := clear.1 inode held
  rw [ext2fsReadSymlink, held]
  dsimp only
  rw [if_neg (not_not.mpr (formed.memory _)), size]
  by_cases inside : (t.target node.ino).length ≤ 60
  · rw [if_pos inside, string_eq (short (by omega)) clean]
  rw [if_neg inside]
  obtain ⟨data, stored, same⟩ := long (by omega)
  have status : ¬ ((t.target node.ino).length : Int) = 0 := by omega
  rw [stored]
  rw [if_neg status, string_eq same clean]

end

/-! ## Resolution -/

section
variable {t : Tree} {read : Text → List Text}

lemma resolve_nil (left ino : Nat) : t.resolve read left ino [] = some (ino, left) := by
  cases left with
  | zero => rfl
  | succ left => rfl

lemma resolve_cons (left ino : Nat) {name : Text} (named : name ≠ []) (rest : List Text) :
    t.resolve read left ino (name :: rest) =
      if t.kind ino ≠ .directory then none
      else
        match t.lookup ino name with
        | none => none
        | some i =>
          if t.kind i = .symlink then
            match left with
            | 0 => none
            | left + 1 =>
              t.resolve read left (from_ ino (t.target i)) (read (t.target i) ++ rest)
          else t.resolve read left i rest := by
  cases left with
  | zero => exact congrArg (if t.kind ino ≠ .directory then none else ·) (if_neg named)
  | succ left => exact congrArg (if t.kind ino ≠ .directory then none else ·) (if_neg named)

lemma resolve_append (left ino : Nat) (front : List Text) (named : ∀ name ∈ front, name ≠ [])
    (links : ∀ text, ∀ name ∈ read text, name ≠ []) (rest : List Text) :
    t.resolve read left ino (front ++ rest) =
      (t.resolve read left ino front).bind fun found => t.resolve read found.2 found.1 rest := by
  induction left using Nat.strong_induction_on generalizing ino front with
  | _ left lower =>
    induction front generalizing ino with
    | nil => rw [resolve_nil]; rfl
    | cons name front ih =>
      obtain ⟨name_ne, others⟩ := List.forall_mem_cons.mp named
      rw [List.cons_append, resolve_cons _ _ name_ne, resolve_cons _ _ name_ne]
      by_cases kind : t.kind ino ≠ .directory
      · rw [if_pos kind, if_pos kind]
        rfl
      rw [if_neg kind, if_neg kind]
      cases t.lookup ino name with
      | none => rfl
      | some i =>
        dsimp only
        by_cases link : t.kind i = .symlink
        · rw [if_pos link, if_pos link]
          cases left with
          | zero => rfl
          | succ left =>
            dsimp only
            rw [← List.append_assoc]
            refine lower left left.lt_succ_self _ _ fun name' member => ?_
            rcases List.mem_append.mp member with inside | behind
            · exact links _ name' inside
            · exact others name' behind
        · rw [if_neg link, if_neg link]
          exact ih i others

end

lemma components_ne_nil (path : Text) : ∀ name ∈ components path, name ≠ [] := by
  intro name member
  exact of_decide_eq_true (List.mem_filter.mp member).2

/-! ## Nodes -/

/-- Nothing below a number has changed, no number is given twice, and links are counted. -/
structure Since (bound : Nat) (s s' : State) : Prop where
  next : s.next ≤ s'.next
  kept : ∀ id < bound, s'.nodes id = s.nodes id
  links : s.symlinknest ≤ s'.symlinknest

/-- The root of the volume, or a node that has been allocated from a number on and not freed. -/
def Own (bound : Nat) (s : State) (ref : Ref) : Prop :=
  ref = .diropen ∨ ∃ id, ref = .heap id ∧ bound ≤ id ∧ id < s.next ∧ (s.nodes id).isSome

section
variable {src : Source} {bound : Nat} {s s' s'' : State} {ref currroot : Ref}

lemma Since.refl (bound : Nat) (s : State) : Since bound s s :=
  ⟨le_rfl, fun _ _ => rfl, le_rfl⟩

lemma Since.trans (one : Since bound s s') (other : Since bound s' s'') : Since bound s s'' :=
  ⟨le_trans one.next other.next, fun id low => (other.kept id low).trans (one.kept id low),
    le_trans one.links other.links⟩

lemma Since.mono {bound' : Nat} (since : Since bound s s') (less : bound' ≤ bound) :
    Since bound' s s' :=
  ⟨since.next, fun id low => since.kept id (lt_of_lt_of_le low less), since.links⟩

lemma Own.node (own : Own bound s ref) : (src.node s ref).isSome := by
  rcases own with rfl | ⟨id, rfl, -, -, live⟩
  · rfl
  · exact live

lemma Since.node (since : Since bound s s') (below : ∀ id, ref = .heap id → id < bound) :
    src.node s' ref = src.node s ref := by
  cases ref with
  | diropen => rfl
  | heap id => exact since.kept id (below id rfl)

lemma alloc_since (s : State) (n : Node) (low : bound ≤ s.next) : Since bound s (s.alloc n) :=
  ⟨Nat.le_succ _, fun _ less =>
    Function.update_of_ne (ne_of_lt (lt_of_lt_of_le less low)) _ _, le_rfl⟩

lemma alloc_own (s : State) (n : Node) (low : bound ≤ s.next) :
    Own bound (s.alloc n) (.heap s.next) := by
  refine .inr ⟨s.next, rfl, low, Nat.lt_succ_self _, ?_⟩
  exact Option.isSome_iff_exists.mpr ⟨n, Function.update_self _ _ _⟩

/-- What is left when a node is freed: all others, and the root that was passed. -/
structure Freed (ref currroot : Ref) (s s' : State) : Prop where
  next : s'.next = s.next
  links : s'.symlinknest = s.symlinknest
  others : ∀ id, ref ≠ .heap id ∨ ref = currroot → s'.nodes id = s.nodes id

lemma Freed.node (freed : Freed ref currroot s s') {other : Ref} (different : ref ≠ other) :
    src.node s' other = src.node s other := by
  cases other with
  | diropen => rfl
  | heap id => exact freed.others id (.inl different)

lemma Freed.since (freed : Freed ref currroot s s') (known : ref = currroot ∨ Own bound s ref) :
    Since bound s s' := by
  refine ⟨le_of_eq freed.next.symm, fun id low => freed.others id ?_,
    le_of_eq freed.links.symm⟩
  refine known.symm.imp (fun own same => ?_) fun same => same
  rcases own with rfl | ⟨id', rfl, high, -⟩
  · cases same
  · obtain rfl := Ref.heap.inj same
    exact not_lt.mpr high low

lemma Freed.own (freed : Freed ref currroot s s') {other : Ref} (own : Own bound s other)
    (different : ref ≠ other ∨ ref = .diropen) : Own bound s' other := by
  rcases own with rfl | ⟨id, rfl, high, low, live⟩
  · exact .inl rfl
  refine .inr ⟨id, rfl, high, freed.next ▸ low, ?_⟩
  have kept : ref ≠ .heap id := by
    rcases different with other | rfl
    · exact other
    · exact fun same => by cases same
  rw [freed.others id (.inl kept)]
  exact live

lemma ensures_free {allows : Query → Reply → Prop} {post : Found → Prop} {k : State → Find Found}
    (known : ref = currroot ∨ Own bound s ref)
    (rest : ∀ s', Freed ref currroot s s' → Prog.Ensures allows post (k s')) :
    Prog.Ensures allows post (ext2fsFreeNode ref currroot s k) := by
  cases ref with
  | diropen => exact rest s ⟨rfl, rfl, fun _ _ => rfl⟩
  | heap id =>
    rw [ext2fsFreeNode]
    by_cases root : Ref.heap id = currroot
    · rw [if_pos root]
      exact rest s ⟨rfl, rfl, fun _ _ => rfl⟩
    rw [if_neg root]
    rcases known.resolve_left root with none_there | ⟨id', same, -, -, live⟩
    · cases none_there
    obtain rfl := Ref.heap.inj same
    rw [if_pos live]
    refine rest _ ⟨rfl, rfl, fun other kept => Function.update_of_ne (fun same => ?_) _ _⟩
    rw [same] at kept
    exact kept.elim (fun different => different rfl) root

end

/-! ## Symbolic links -/

variable {self : Text → Ref → State → Find Found} {k : Ref → Ref → FileType → State → Find Found}

def Allows (src : Source) (t : Tree) (turns : Nat) (q : Query) (r : Reply) : Prop :=
  r = src.reply turns q ∧ Safe src q ∧ (WellFormed src t → Clear src q)

def Agrees (src : Source) (t : Tree) (names : List Text) (ino left : Nat) : Found → Prop
  | (none, _) => t.resolve components left ino names = none
  | (some (ref, type), s) => ∃ node, src.node s ref = some node ∧ Proper src node ∧
      t.resolve components left ino names = some (node.ino, 7 - s.symlinknest) ∧
        ∀ known, type = some known → known = t.kind node.ino

def Directory (src : Source) (t : Tree) (s : State) (ref : Ref) (ino : Nat) : Prop :=
  ∃ node, src.node s ref = some node ∧ Proper src node ∧ node.ino = ino ∧ t.kind ino = .directory

/-- What a search for a path comes to: it touches no node that it has not allocated, and returns the
directory that it was given only when there is no part in the path. -/
structure Looked (src : Source) (t : Tree) (path : Text) (currroot : Ref) (s : State) (f : Found) :
    Prop where
  since : Since s.next s f.2
  returned : ∀ ref type, f.1 = some (ref, type) → f.2.symlinknest ≤ 7 ∧
    (Own s.next f.2 ref ∧ type.isSome ∨ components path = [] ∧ ref = currroot)
  agrees : WellFormed src t → ∀ ino, Directory src t s currroot ino →
    Agrees src t (components path) ino (7 - s.symlinknest) f

/-- A reference that can be freed, or is the root that was passed; it is older than the state. -/
structure Known (src : Source) (bound : Nat) (s : State) (currroot ref : Ref) : Prop where
  root : ∀ id, currroot = .heap id → id < bound
  le : bound ≤ s.next
  live : (src.node s ref).isSome
  own : ref = currroot ∨ Own bound s ref

section
variable {src : Source} {t : Tree} {turns bound depth : Nat} {s s' : State}
  {ref oldnode currnode currroot : Ref} {post : Found → Prop}

lemma Known.below (known : Known src bound s currroot ref) {id : Nat} (same : ref = .heap id) :
    id < s.next := by
  rcases known.own with root | rfl | ⟨id', here, -, low, -⟩
  · exact lt_of_lt_of_le (known.root id (root.symm.trans same)) known.le
  · cases same
  · obtain rfl := Ref.heap.inj (here.symm.trans same)
    exact low

lemma Own.later (own : Own bound s ref) (since : Since s.next s s') : Own bound s' ref := by
  rcases own with rfl | ⟨id, rfl, high, low, live⟩
  · exact .inl rfl
  · refine .inr ⟨id, rfl, high, lt_of_lt_of_le low since.next, ?_⟩
    rw [since.kept id low]
    exact live

lemma Known.later (known : Known src bound s currroot ref) (since : Since s.next s s') :
    Known src bound s' currroot ref where
  root := known.root
  le := le_trans known.le since.next
  live := by
    rw [since.node fun id same => known.below same]
    exact known.live
  own := known.own.imp_right fun own => own.later since

lemma Known.freed (known : Known src bound s currroot ref) {other : Ref}
    (freed : Freed other currroot s s') (different : other ≠ ref) :
    Known src bound s' currroot ref where
  root := known.root
  le := freed.next ▸ known.le
  live := by
    rw [freed.node different]
    exact known.live
  own := known.own.imp_right fun own => freed.own own (.inl different)

def Recurs (src : Source) (t : Tree) (turns depth : Nat) (self : Text → Ref → State → Find Found) :
    Prop :=
  ∀ path currroot s, (src.node s currroot).isSome →
    (∀ id, currroot = .heap id → id < s.next) → s.symlinknest ≤ 7 → 9 ≤ depth + s.symlinknest →
      Prog.Ensures (Allows src t turns) (Looked src t path currroot s) (self path currroot s)

lemma lookupLink_ensures {symlink : Text} (recurs : Recurs src t turns depth self)
    (known : Known src bound s currroot oldnode) (links : s.symlinknest ≤ 7)
    (deep : 9 ≤ depth + s.symlinknest) (itself : components symlink = [] → oldnode = .diropen)
    (failed : ∀ s', Since bound s s' → (WellFormed src t → ∀ ino, Directory src t s oldnode ino →
      t.resolve components (7 - s.symlinknest) ino (components symlink) = none) → post (none, s'))
    (went : ∀ ref type s', Since s.next s s' → s'.symlinknest ≤ 7 → Own s.next s' ref →
      (WellFormed src t → components symlink ≠ [] → ∀ ino, Directory src t s oldnode ino →
        Agrees src t (components symlink) ino (7 - s.symlinknest) (some (ref, some type), s')) →
          Prog.Ensures (Allows src t turns) post (k oldnode ref type s')) :
    Prog.Ensures (Allows src t turns) post (lookupLink self currroot oldnode symlink s k) := by
  rw [lookupLink]
  refine (recurs symlink oldnode s known.live (fun id => known.below) links deep).bind ?_
  rintro ⟨found, s'⟩ ⟨since, returned, agrees⟩
  cases found with
  | none =>
    refine ensures_free (known.later since).own fun s'' freed => failed s'' ?_ agrees
    exact (since.mono known.le).trans (freed.since (known.later since).own)
  | some found =>
    obtain ⟨ref, type⟩ := found
    obtain ⟨low, result⟩ := returned ref type rfl
    refine went ref (type.getD .symlink) s' since low ?_ fun formed some_part ino directory => ?_
    · rcases result with ⟨own, -⟩ | ⟨none_there, rfl⟩
      · exact own
      · rw [itself none_there]
        exact .inl rfl
    · rcases result with ⟨-, set⟩ | ⟨none_there, -⟩
      · obtain ⟨known, rfl⟩ := Option.isSome_iff_exists.mp set
        exact agrees formed ino directory
      · exact absurd none_there some_part

end

variable {ino : Nat}

lemma components_eq_nil {path : Text} (empty : components path = []) : ∀ c ∈ path, c = slash := by
  induction path with
  | nil => exact fun c member => absurd member List.not_mem_nil
  | cons a path ih =>
    rw [components, List.splitOn_cons_eq_if_modifyHead] at empty
    by_cases isSlash : a = slash
    · rw [isSlash, if_pos (beq_self_eq_true slash), List.filter_cons_of_neg (by simp)] at empty
      exact List.forall_mem_cons.mpr ⟨isSlash, ih empty⟩
    rw [if_neg (by simp [isSlash])] at empty
    cases parts : path.splitOn slash with
    | nil => exact absurd parts (List.splitOn_ne_nil slash path)
    | cons part rest =>
      rw [parts, List.modifyHead_cons, List.filter_cons_of_pos (by simp)] at empty
      cases empty

section
variable {src : Source} {t : Tree} {turns bound depth : Nat} {s s' : State}
  {ref oldnode currnode currroot : Ref} {post : Found → Prop}

lemma node_congr (same : s'.nodes = s.nodes) : src.node s' ref = src.node s ref := by
  cases ref with
  | diropen => rfl
  | heap id => exact congrFun same id

lemma Directory.later (directory : Directory src t s ref ino)
    (same : src.node s' ref = src.node s ref) : Directory src t s' ref ino := by
  rw [Directory, same]
  exact directory

lemma root_directory (formed : WellFormed src t) (s : State) :
    Directory src t s .diropen rootIno := by
  refine ⟨_, rfl, fun inode held => ?_, rfl, formed.rootKind⟩
  cases held
  exact formed.root

def Leads (t : Tree) (n : Node) (s : State) (ino : Nat) : Option (Nat × Nat) :=
  t.resolve components (6 - s.symlinknest) (from_ ino (t.target n.ino))
    (components (t.target n.ino))

lemma followLink_ensures {n : Node} (recurs : Recurs src t turns depth self)
    (known : Known src bound s currroot oldnode) (own : Own bound s currnode)
    (different : currnode ≠ oldnode) (held : src.node s currnode = some n)
    (links : s.symlinknest ≤ 7) (deep : 8 ≤ depth + s.symlinknest)
    (failed : ∀ s', Since bound s s' → (WellFormed src t → Proper src n →
      t.kind n.ino = .symlink → ∀ ino, Directory src t s oldnode ino →
        s.symlinknest = 7 ∨ Leads t n s ino = none) → post (none, s'))
    (went : ∀ old ref type s', Known src bound s' currroot old →
      (∀ id, old = .heap id → id < s.next) → Since bound s s' → s'.symlinknest ≤ 7 →
      Own s.next s' ref → (WellFormed src t → Proper src n → t.kind n.ino = .symlink →
        ∀ ino, Directory src t s oldnode ino → s.symlinknest < 7 ∧
          Agrees src t (components (t.target n.ino)) (from_ ino (t.target n.ino))
            (6 - s.symlinknest) (some (ref, some type), s')) →
        Prog.Ensures (Allows src t turns) post (k old ref type s')) :
    Prog.Ensures (Allows src t turns) post
      (followLink src self currroot oldnode currnode s k) := by
  have counted : Since bound s { s with symlinknest := s.symlinknest + 1 } :=
    ⟨le_rfl, fun _ _ => rfl, Nat.le_succ _⟩
  have known' : Known src bound { s with symlinknest := s.symlinknest + 1 } currroot oldnode :=
    ⟨known.root, known.le, (node_congr rfl).symm ▸ known.live, known.own⟩
  rw [followLink]
  by_cases last : s.symlinknest + 1 = 8
  · rw [if_pos last]
    refine @ensures_free bound _ currnode currroot _ _ _ (.inr own) fun s₁ freed₁ => ?_
    have known₁ := known'.freed freed₁ different
    refine ensures_free known₁.own fun s₂ freed₂ => failed s₂ ?_ fun _ _ _ _ _ => .inl (by omega)
    exact counted.trans ((freed₁.since (.inr own)).trans (freed₂.since known₁.own))
  have held' : src.node { s with symlinknest := s.symlinknest + 1 } currnode = some n :=
    (node_congr rfl).trans held
  rw [if_neg last, held']
  rintro r ⟨rfl, safe, clear⟩
  refine @ensures_free bound _ currnode currroot _ _ _ (.inr own) fun s₁ freed₁ => ?_
  have known₁ := known'.freed freed₁ different
  have since₁ : Since bound s s₁ := counted.trans (freed₁.since (.inr own))
  have next₁ : s₁.next = s.next := freed₁.next
  have links₁ : s₁.symlinknest = s.symlinknest + 1 := freed₁.links
  have replied : (src.reply turns (.readSymlink n)).symlink = ext2fsReadSymlink src n := rfl
  rw [replied]
  cases text : ext2fsReadSymlink src n with
  | none =>
    refine ensures_free known₁.own fun s₂ freed₂ => failed s₂
      (since₁.trans (freed₂.since known₁.own)) fun formed proper kind => ?_
    rw [readSymlink_eq formed proper kind (clear formed)] at text
    cases text
  | some symlink =>
    have some_text : symlink ≠ [] := fun none_there => safe (text.trans (congrArg some none_there))
    have links₁' : s₁.symlinknest ≤ 7 := by omega
    have target (formed : WellFormed src t) (proper : Proper src n)
        (kind : t.kind n.ino = .symlink) :
        symlink = t.target n.ino ∧ components symlink ≠ [] := by
      refine ⟨Option.some.inj
        (text.symm.trans (readSymlink_eq formed proper kind (clear formed))), fun none_there => ?_⟩
      obtain ⟨c, member, other⟩ := (clear formed).2 symlink text
      exact other (components_eq_nil none_there c member)
    -- the rest is the same from wherever the text is looked up
    have looked (old : Ref) (x : State) (knows : Known src bound x currroot old)
        (since : Since bound s x) (next : x.next = s.next) (links : x.symlinknest = s₁.symlinknest)
        (itself : components symlink = [] → old = .diropen)
        (begins : WellFormed src t → ∀ ino, Directory src t s oldnode ino →
          Directory src t x old (from_ ino symlink)) :
        Prog.Ensures (Allows src t turns) post (lookupLink self currroot old symlink x k) := by
      have left : 7 - x.symlinknest = 6 - s.symlinknest := by omega
      refine lookupLink_ensures recurs knows (links ▸ links₁') (by omega) itself
        (fun s₃ since₃ none_there => ?_) (fun ref type s₃ since₃ low own₃ agrees => ?_)
      · refine failed s₃ (since.trans since₃) fun formed proper kind ino directory => .inr ?_
        have nowhere := none_there formed _ (begins formed ino directory)
        rwa [left, (target formed proper kind).1] at nowhere
      · refine went old ref type s₃ (knows.later since₃) (fun id same => ?_)
          (since.trans (since₃.mono knows.le)) low (next ▸ own₃)
          fun formed proper kind ino directory => ⟨by omega, ?_⟩
        · exact next ▸ knows.below same
        · have led := agrees formed (target formed proper kind).2 _ (begins formed ino directory)
          rwa [left, (target formed proper kind).1] at led
    dsimp only
    by_cases absolute : symlink.head? = some slash
    · rw [if_pos absolute]
      refine ensures_free known₁.own fun s₂ freed₂ => ?_
      have next₂ : s₂.next = s.next := freed₂.next.trans next₁
      refine looked .diropen s₂ ⟨known.root, next₂ ▸ known.le, rfl, .inr (.inl rfl)⟩
        (since₁.trans (freed₂.since known₁.own)) next₂ freed₂.links (fun _ => rfl)
        fun formed ino _ => ?_
      rw [from_, if_pos absolute]
      exact root_directory formed s₂
    · rw [if_neg absolute]
      refine looked oldnode s₁ known₁ since₁ next₁ rfl (fun none_there => ?_)
        fun _ ino directory => ?_
      · obtain ⟨c, rest, rfl⟩ := List.exists_cons_of_ne_nil some_text
        exact absurd (congrArg some (components_eq_nil none_there c List.mem_cons_self)) absolute
      · rw [from_, if_neg absolute]
        exact directory.later ((freed₁.node different).trans (node_congr rfl))

end

/-! ## The loop over the parts of a path -/

structure Followed (src : Source) (t : Tree) (bound : Nat) (names : List Text) (currnode : Ref)
    (type : FileType) (s : State) (f : Found) : Prop where
  since : Since bound s f.2
  returned : ∀ ref type', f.1 = some (ref, type') → f.2.symlinknest ≤ 7 ∧ type'.isSome ∧
    (Own bound s currnode ∨ names ≠ [] → Own bound f.2 ref)
  agrees : WellFormed src t → ∀ node, src.node s currnode = some node → Proper src node →
    t.kind node.ino = type → Agrees src t names node.ino (7 - s.symlinknest) f

section
variable {src : Source} {t : Tree} {turns bound depth : Nat} {s s' : State}
  {ref currnode currroot : Ref} {names next : List Text} {name : Text} {type type' : FileType}
  {f : Found}

lemma Agrees.of_eq {ino' left left' : Nat} (agrees : Agrees src t next ino' left' f)
    (same : t.resolve components left ino names = t.resolve components left' ino' next) :
    Agrees src t names ino left f := by
  obtain ⟨found, s'⟩ := f
  cases found with
  | none => exact same.trans agrees
  | some found =>
    obtain ⟨node, held, proper, led, kind⟩ := agrees
    exact ⟨node, held, proper, same.trans led, kind⟩

lemma Followed.cons (rest : Followed src t bound next ref type' s' f) (since : Since bound s s')
    (own : Own bound s' ref) (step : WellFormed src t → ∀ node, src.node s currnode = some node →
      Proper src node → t.kind node.ino = type → ∃ node', src.node s' ref = some node' ∧
        Proper src node' ∧ t.kind node'.ino = type' ∧
          t.resolve components (7 - s.symlinknest) node.ino (name :: next) =
            t.resolve components (7 - s'.symlinknest) node'.ino next) :
    Followed src t bound (name :: next) currnode type s f where
  since := since.trans rest.since
  returned ref' type'' found := by
    obtain ⟨links, set, kept⟩ := rest.returned ref' type'' found
    exact ⟨links, set, fun _ => kept (.inl own)⟩
  agrees formed node held proper kind := by
    obtain ⟨node', held', proper', kind', same⟩ := step formed node held proper kind
    exact (rest.agrees formed node' held' proper' kind').of_eq same

lemma Followed.none (since : Since bound s s') (nowhere : WellFormed src t → ∀ node,
      src.node s currnode = some node → Proper src node → t.kind node.ino = type →
        t.resolve components (7 - s.symlinknest) node.ino names = none) :
    Followed src t bound names currnode type s (none, s') :=
  ⟨since, fun _ _ found => absurd found (Option.some_ne_none _).symm, nowhere⟩

lemma resolve_entry {left : Nat} (named : name ≠ []) (kind : t.kind ino = .directory)
    (next : List Text) :
    t.resolve components left ino (name :: next) =
      match ((t.entries ino).find? (wanted name)).map Entry.ino with
      | none => none
      | some i =>
        if t.kind i = .symlink then
          match left with
          | 0 => none
          | left + 1 =>
            t.resolve components left (from_ ino (t.target i)) (components (t.target i) ++ next)
        else t.resolve components left i next := by
  rw [resolve_cons _ _ named, if_neg (not_not.mpr kind)]
  rfl

lemma resolve_link {left i : Nat} (named : name ≠ []) (kind : t.kind ino = .directory)
    (found : ((t.entries ino).find? (wanted name)).map Entry.ino = some i)
    (link : t.kind i = .symlink) (next : List Text) :
    t.resolve components (left + 1) ino (name :: next) =
      (t.resolve components left (from_ ino (t.target i)) (components (t.target i))).bind
        fun led => t.resolve components led.2 led.1 next := by
  rw [resolve_entry named kind, found]
  dsimp only
  rw [if_pos link, resolve_append _ _ _ (components_ne_nil _) components_ne_nil]

end

section
variable {src : Source} {t : Tree} {turns bound depth : Nat} {s : State} {currnode currroot : Ref}

lemma alloc_node (s : State) (n : Node) : src.node (s.alloc n) (.heap s.next) = some n :=
  Function.update_self _ _ _

lemma own_freed {s' s'' : State} {old ref : Ref} {fresh : Nat} (own : Own fresh s' ref)
    (le : bound ≤ fresh) (below : ∀ id, old = .heap id → id < fresh)
    (freed : Freed old currroot s' s'') :
    Own bound s'' ref ∧ src.node s'' ref = src.node s' ref := by
  rcases own with rfl | ⟨id, rfl, high, low, live⟩
  · exact ⟨.inl rfl, rfl⟩
  · have different : old ≠ .heap id := fun same => not_lt.mpr high (below id same)
    refine ⟨freed.own (.inr ⟨id, rfl, le_trans le high, low, live⟩) (.inl different), ?_⟩
    exact freed.node different

def Continues (src : Source) (t : Tree) (turns bound depth : Nat)
    (self : Text → Ref → State → Find Found) (currroot : Ref) (names : List Text) : Prop :=
  ∀ currnode type s, Known src bound s currroot currnode → s.symlinknest ≤ 7 →
    8 ≤ depth + s.symlinknest → Prog.Ensures (Allows src t turns)
      (Followed src t bound names currnode type s) (follow src self currroot names currnode type s)

structure EntryOf (src : Source) (t : Tree) (name : Text) (dir node : Node) (type : FileType) :
    Prop where
  found : ((t.entries dir.ino).find? (wanted name)).map Entry.ino = some node.ino
  type : type = t.kind node.ino
  proper : Proper src node
  directory : t.kind dir.ino = .directory

section
variable {self : Text → Ref → State → Find Found} {name : Text} {next : List Text} {node : Node}
  {type type' : FileType}

lemma follow_link (recurs : Recurs src t turns depth self)
    (continues : Continues src t turns bound depth self currroot next) (name_ne : name ≠ [])
    (known : Known src bound s currroot currnode) (links : s.symlinknest ≤ 7)
    (deep : 8 ≤ depth + s.symlinknest)
    (entry : WellFormed src t → ∀ dir, src.node s currnode = some dir → Proper src dir →
      t.kind dir.ino = type → EntryOf src t name dir node .symlink) :
    Prog.Ensures (Allows src t turns) (Followed src t bound (name :: next) currnode type s)
      (followLink src self currroot currnode (.heap s.next) (s.alloc node)
        fun oldnode currnode type s => ext2fsFreeNode oldnode currroot s fun s =>
          follow src self currroot next currnode type s) := by
  have since := alloc_since s node known.le
  have known' := known.later (alloc_since s node le_rfl)
  have older (id : Nat) (same : currnode = .heap id) : id < s.next := known.below same
  have different : Ref.heap s.next ≠ currnode :=
    fun same => lt_irrefl _ (older s.next same.symm)
  have directory (dir : Node) (held : src.node s currnode = some dir) (proper : Proper src dir)
      (kind : t.kind dir.ino = .directory) : Directory src t (s.alloc node) currnode dir.ino :=
    ⟨dir, ((alloc_since s node le_rfl).node older).trans held, proper, rfl, kind⟩
  refine followLink_ensures recurs known' (alloc_own s node known.le) different (alloc_node s node)
    links deep (fun s' since' nowhere => ?_)
    (fun old ref type'' s' knows below since' low own' leads => ?_)
  · refine Followed.none (since.trans since') fun formed dir held proper kind => ?_
    obtain ⟨found, link, proper_n, kind_dir⟩ := entry formed dir held proper kind
    by_cases last : s.symlinknest = 7
    · rw [last, Nat.sub_self, resolve_entry name_ne kind_dir, found]
      dsimp only
      rw [if_pos link.symm]
    have led := (nowhere formed proper_n link.symm dir.ino
      (directory dir held proper kind_dir)).resolve_left last
    have left : 7 - s.symlinknest = 6 - s.symlinknest + 1 := by omega
    rw [left, resolve_link name_ne kind_dir found link.symm]
    exact Option.bind_eq_none_iff.mpr fun found some_found =>
      absurd (led.symm.trans some_found) (Option.some_ne_none _).symm
  · refine ensures_free knows.own fun s'' freed => ?_
    have le : bound ≤ (s.alloc node).next := known'.le
    obtain ⟨own'', same⟩ := @own_freed src bound currroot s' s'' old ref _ own' le below freed
    have links'' : s''.symlinknest = s'.symlinknest := freed.links
    have since'' : Since bound s s'' := since.trans (since'.trans (freed.since knows.own))
    have knows'' : Known src bound s'' currroot ref :=
      ⟨known.root, le_trans known.le since''.next, own''.node, .inr own''⟩
    refine (continues ref type'' s'' knows'' (links'' ▸ low) (le_trans deep
      (Nat.add_le_add_left since''.links depth))).mono fun f rest =>
        rest.cons since'' own'' fun formed dir held proper kind => ?_
    obtain ⟨found, link, proper_n, kind_dir⟩ := entry formed dir held proper kind
    obtain ⟨less, n₂, held₂, proper₂, led, kind₂⟩ :=
      leads formed proper_n link.symm dir.ino (directory dir held proper kind_dir)
    have less' : s.symlinknest < 7 := less
    have left : 7 - s.symlinknest = 6 - s.symlinknest + 1 := by omega
    refine ⟨n₂, same.trans held₂, proper₂, (kind₂ type'' rfl).symm, ?_⟩
    rw [left, resolve_link name_ne kind_dir found link.symm, links'']
    exact congrArg (Option.bind · _) led

lemma follow_plain (continues : Continues src t turns bound depth self currroot next)
    (name_ne : name ≠ []) (known : Known src bound s currroot currnode)
    (links : s.symlinknest ≤ 7) (deep : 8 ≤ depth + s.symlinknest) (plain : type' ≠ .symlink)
    (entry : WellFormed src t → ∀ dir, src.node s currnode = some dir → Proper src dir →
      t.kind dir.ino = type → EntryOf src t name dir node type') :
    Prog.Ensures (Allows src t turns) (Followed src t bound (name :: next) currnode type s)
      (ext2fsFreeNode currnode currroot (s.alloc node) fun s' =>
        follow src self currroot next (.heap s.next) type' s') := by
  have since := alloc_since s node known.le
  have known' := known.later (alloc_since s node le_rfl)
  refine ensures_free known'.own fun s' freed => ?_
  obtain ⟨own', same⟩ := @own_freed src bound currroot _ s' currnode _ _
    (alloc_own s node le_rfl) known.le (fun id => known.below) freed
  have links' : s'.symlinknest = s.symlinknest := freed.links
  have since' : Since bound s s' := since.trans (freed.since known'.own)
  have knows' : Known src bound s' currroot (.heap s.next) :=
    ⟨known.root, le_trans known.le since'.next, own'.node, .inr own'⟩
  refine (continues (.heap s.next) type' s' knows' (links' ▸ links) (links' ▸ deep)).mono
    fun f rest => rest.cons since' own' fun formed dir held proper kind => ?_
  obtain ⟨found, typed, proper_n, kind_dir⟩ := entry formed dir held proper kind
  refine ⟨node, same.trans (alloc_node s node), proper_n, typed.symm, ?_⟩
  rw [resolve_entry name_ne kind_dir, found]
  dsimp only
  rw [if_neg (typed ▸ plain), links']

end

lemma Finds.entryOf {name : Text} {dir node : Node} {type : FileType}
    (finds : Finds src t ((t.entries dir.ino).find? (wanted name)) (some (node, type)))
    (directory : t.kind dir.ino = .directory) : EntryOf src t name dir node type := by
  cases wants : (t.entries dir.ino).find? (wanted name) with
  | none =>
    rw [wants] at finds
    cases finds
  | some e =>
    rw [wants] at finds
    obtain ⟨n, there, ino, proper⟩ := finds
    obtain ⟨rfl, rfl⟩ := Prod.mk.inj (Option.some.inj there)
    exact ⟨by rw [wants, ino]; rfl, by rw [ino], proper, directory⟩

lemma Finds.absent {entry : Option Entry} (finds : Finds src t entry none) : entry = none := by
  cases entry with
  | none => rfl
  | some e =>
    obtain ⟨_, there, -⟩ := finds
    cases there

lemma follow_ensures {names : List Text} (recurs : Recurs src t turns depth self)
    (enough : 2 ^ 32 ≤ turns) (named : ∀ name ∈ names, name ≠ []) :
    Continues src t turns bound depth self currroot names := by
  induction names with
  | nil =>
    intro currnode type s known links deep
    refine ⟨Since.refl _ _, fun ref type' found => ?_, fun _ node held proper kind => ?_⟩
    · obtain ⟨rfl, rfl⟩ := Prod.mk.inj (Option.some.inj found)
      exact ⟨links, rfl, fun own => own.resolve_right fun some_name => some_name rfl⟩
    · refine ⟨node, held, proper, resolve_nil _ _, fun type' same => ?_⟩
      exact (Option.some.inj same).symm.trans kind.symm
  | cons name next ih =>
    intro currnode type s known links deep
    obtain ⟨name_ne, named⟩ := List.forall_mem_cons.mp named
    rw [follow]
    by_cases file : type ≠ .directory
    · rw [if_pos file]
      refine ensures_free known.own fun s' freed => Followed.none (freed.since known.own) ?_
      intro _ node _ _ kind
      rw [resolve_cons _ _ name_ne, if_pos (kind ▸ file)]
    rw [if_neg file]
    rw [not_not] at file
    obtain ⟨dir, held⟩ := Option.isSome_iff_exists.mp known.live
    rw [held]
    rintro r ⟨rfl, safe, clear⟩
    obtain ⟨entry, ends⟩ := Option.isSome_iff_exists.mp (iterateDir_ends safe enough)
    have replied : (src.reply turns (.iterateDir dir name)).entry = some entry := ends
    dsimp only
    rw [replied]
    have finds (formed : WellFormed src t) (proper : Proper src dir)
        (kind : t.kind dir.ino = type) :
        Finds src t ((t.entries dir.ino).find? (wanted name)) entry :=
      iterateDir_finds formed proper (kind.trans file) name_ne (clear formed) ends
    cases entry with
    | none =>
      refine Followed.none (Since.refl _ _) fun formed node held' proper kind => ?_
      obtain rfl := Option.some.inj (held'.symm.trans held)
      rw [resolve_entry name_ne (kind.trans file), (finds formed proper kind).absent]
      rfl
    | some found =>
      obtain ⟨node, type'⟩ := found
      have entry (formed : WellFormed src t) (dir' : Node) (held' : src.node s currnode = some dir')
          (proper : Proper src dir') (kind : t.kind dir'.ino = type) :
          EntryOf src t name dir' node type' := by
        obtain rfl := Option.some.inj (held'.symm.trans held)
        exact (finds formed proper kind).entryOf (kind.trans file)
      dsimp only
      by_cases link : type' = .symlink
      · rw [if_pos link]
        exact follow_link recurs (ih named) name_ne known links deep (link ▸ entry)
      · rw [if_neg link]
        exact follow_plain (ih named) name_ne known links deep link entry

end

/-! ## The whole search -/

section
variable {src : Source} {t : Tree} {turns : Nat} {path : Text} {expecttype : Expected}

lemma findFile1_recurs (enough : 2 ^ 32 ≤ turns) (depth : Nat) :
    Recurs src t turns depth (ext2fsFindFile1 src depth) := by
  induction depth with
  | zero =>
    intro path currroot s live below links deep
    omega
  | succ depth ih =>
    intro path currroot s live below links deep
    rw [ext2fsFindFile1]
    cases names : components path with
    | nil =>
      refine ⟨Since.refl _ _, fun ref type found => ?_, fun formed ino directory => ?_⟩
      · obtain ⟨rfl, rfl⟩ := Prod.mk.inj (Option.some.inj found)
        exact ⟨links, .inr ⟨names, rfl⟩⟩
      · obtain ⟨node, held, proper, rfl, kind⟩ := directory
        rw [names]
        refine ⟨node, held, proper, resolve_nil _ _, fun known same => ?_⟩
        cases same
    | cons name next =>
      have named : ∀ part ∈ name :: next, part ≠ [] := names ▸ components_ne_nil path
      refine (follow_ensures ih enough named currroot .directory s
        ⟨below, le_rfl, live, .inl rfl⟩ links (by omega)).mono fun f followed => ?_
      refine ⟨followed.since, fun ref type found => ?_, fun formed ino directory => ?_⟩
      · obtain ⟨low, set, kept⟩ := followed.returned ref type found
        exact ⟨low, .inl ⟨kept (.inr (List.cons_ne_nil _ _)), set⟩⟩
      · obtain ⟨node, held, proper, rfl, kind⟩ := directory
        rw [names]
        exact followed.agrees formed node held proper kind

lemma findFile_ensures (enough : 2 ^ 32 ≤ turns) :
    Prog.Ensures (Allows src t turns) (fun (found, s) =>
      (∀ ref, found = some ref → (src.node s ref).isSome) ∧ (WellFormed src t →
        (found.bind (src.node s)).map Node.ino = t.expecting expecttype (t.loose path)))
      (ext2fsFindFile src path expecttype) := by
  rw [ext2fsFindFile]
  refine (findFile1_recurs enough 9 path .diropen ⟨fun _ => none, 0, 0⟩ rfl
    (fun id same => by cases same) (Nat.zero_le 7) (Nat.le_refl 9)).bind ?_
  rintro ⟨found, s⟩ ⟨since, returned, agrees⟩
  have root (formed : WellFormed src t) := agrees formed rootIno (root_directory formed _)
  cases found with
  | none =>
    refine ⟨fun _ same => absurd same (Option.some_ne_none _).symm, fun formed => ?_⟩
    have nowhere : t.resolve components 7 rootIno (components path) = none := root formed
    rw [Tree.loose, nowhere]
    rfl
  | some found =>
    obtain ⟨ref, type⟩ := found
    obtain ⟨-, result⟩ := returned ref type rfl
    have live : (src.node s ref).isSome := by
      rcases result with ⟨own, -⟩ | ⟨-, rfl⟩
      · exact own.node
      · rfl
    -- the type counts, also when the exit for the root has not set it
    have led (formed : WellFormed src t) : ∃ node, src.node s ref = some node ∧
        t.loose path = some node.ino ∧ type.getD .directory = t.kind node.ino := by
      obtain ⟨node, held, -, led, kind⟩ := root formed
      refine ⟨node, held, ?_, ?_⟩
      · have led' : t.resolve components 7 rootIno (components path) = _ := led
        rw [Tree.loose, led']
        rfl
      · cases type with
        | some known => exact kind known rfl
        | none =>
          rcases result with ⟨-, set⟩ | ⟨-, rfl⟩
          · cases set
          · cases held
            exact formed.rootKind.symm
    dsimp only
    by_cases other : type.getD .directory ≠ expecttype.type
    · rw [if_pos other]
      refine ⟨fun _ same => absurd same (Option.some_ne_none _).symm, fun formed => ?_⟩
      obtain ⟨node, held, loose, kind⟩ := led formed
      rw [loose, Tree.expecting, Option.filter_some, if_neg (by simpa using kind ▸ other)]
      rfl
    · rw [if_neg other]
      refine ⟨fun ref' same => Option.some.inj same ▸ live, fun formed => ?_⟩
      obtain ⟨node, held, loose, kind⟩ := led formed
      have expected : t.kind node.ino = expecttype.type := kind ▸ not_not.mp other
      rw [loose, Tree.expecting, Option.filter_some, if_pos (by simpa using expected),
        Option.bind_some, held, Option.map_some]

end

/-- Where everything that is asked for is safe and, on a well-formed volume, clear, and slashes at
an end make no difference, the search is right. -/
theorem find_file_right (src : Source) (t : Tree) (path : Text) (expecttype : Expected)
    (meets : Meets src t path expecttype) : Right src t path expecttype := by
  refine ⟨2 ^ 32, fun turns enough => ?_⟩
  have obeys : (ext2fsFindFile src path expecttype).Obeys (Allows src t turns)
      fun _ => src.reply turns := by
    refine Prog.Obeys.and (Prog.Obeys.of_forall fun _ _ => rfl) ((meets.safe turns).and ?_)
    by_cases formed : WellFormed src t
    · exact (meets.clear formed turns).mono fun _ _ clear _ => clear
    · exact Prog.Obeys.of_forall fun _ _ well => absurd well formed
  obtain ⟨⟨found, s⟩, returned, live, agrees⟩ := (findFile_ensures enough).outcome obeys
  exact ⟨found, s, returned, live, fun formed =>
    (agrees formed).trans (meets.ends formed).symm⟩

/-! ## A file in the root, and an entry of length 0 -/

def rootInode : Inode := ⟨0o040755, 12, fun _ => 0⟩

def fileInode : Inode := ⟨0o100644, 0, fun _ => 0⟩

def oneEntry : Bytes := fun k => [12, 0, 0, 0, 12, 0, 1, 1, 97, 0, 0, 0].getD k 0

def oneFile : Source where
  readInode ino := if ino = rootIno then some rootInode else some fileInode
  readFile _ pos len := (len, fun k => oneEntry (pos + k))
  malloc _ := true
  root := rootInode

def oneFileTree : Tree where
  kind ino := if ino = rootIno then .directory else .reg
  entries _ := [⟨12, 12, [97], 1⟩]
  target _ := []

lemma oneFile_turn : turn oneFile rootInode [97] 0 = .found ⟨12, none⟩ .reg := rfl

lemma oneFile_comes {p : Nat} (comes : Comes oneFile rootInode [97] p) : p = 0 := by
  induction comes with
  | start => rfl
  | next earlier passed within ih =>
    rw [ih, oneFile_turn] at passed
    cases passed

lemma one_part (src : Source) (expecttype : Expected) (path : Text) (name : Text)
    (part : components path = [name]) : ∃ next, ext2fsFindFile src path expecttype =
      .ask (.iterateDir ⟨rootIno, some src.root⟩ name) next ∧
      (∀ symlink, next ⟨none, symlink⟩ = .fault .endless) ∧
      ∀ node symlink, ∃ result, next ⟨some (some (node, .reg)), symlink⟩ = .done result := by
  rw [ext2fsFindFile, ext2fsFindFile1, part]
  refine ⟨_, rfl, fun _ => rfl, fun node symlink => ?_⟩
  cases expecttype with
  | reg => exact ⟨_, rfl⟩
  | directory => exact ⟨_, rfl⟩

lemma oneFile_wellFormed : WellFormed oneFile oneFileTree where
  memory _ := rfl
  root := rfl
  rootKind := rfl
  directories i kind := by
    have at_root : i = rootIno := by
      by_contra other
      exact absurd ((if_neg other).symm.trans kind) (by decide)
    subst at_root
    exact ⟨rootInode, rfl, .cons (by decide) (by decide) rfl rfl (fun _ => rfl) (by decide)
      (List.forall_mem_singleton.mpr (by decide))
      (fun _ _ => ⟨⟨fileInode, rfl, rfl⟩, fun _ => rfl⟩) (.nil rfl)⟩
  links i kind := by
    change (if i = rootIno then FileType.directory else .reg) = .symlink at kind
    split_ifs at kind

theorem one_file_found :
    WellFormed oneFile oneFileTree ∧ Right oneFile oneFileTree [slash, 97] .reg := by
  refine ⟨oneFile_wellFormed, ?_⟩
  obtain ⟨next, asks, stops, ends⟩ := one_part oneFile .reg [slash, 97] [97] (by decide)
  -- the entry is the only thing that is asked for
  have obeys (ok : Query → Prop) (entry : ok (.iterateDir ⟨rootIno, some rootInode⟩ [97])) :
      oneFile.Asks ok [slash, 97] .reg := by
    intro turns
    rw [asks]
    refine ⟨entry, ?_⟩
    cases turns with
    | zero =>
      change Prog.Obeys _ (next ⟨none, none⟩) _
      rw [stops]
      trivial
    | succ turns =>
      obtain ⟨result, done⟩ := ends ⟨12, none⟩ none
      change Prog.Obeys _ (next ⟨some (some (⟨12, none⟩, .reg)), none⟩) _
      rw [done]
      trivial
  refine find_file_right oneFile oneFileTree [slash, 97] .reg ⟨obeys _ ?_, fun _ => obeys _ ?_,
    fun _ => by decide⟩
  · rintro inode ⟨⟩ p q comes passed
    rw [oneFile_comes comes, oneFile_turn] at passed
    cases passed
  · rintro inode ⟨⟩ p comes deleted
    rw [oneFile_comes comes] at deleted
    exact absurd deleted (by decide)

def zeros : Source where
  readInode _ := none
  readFile _ _ len := (len, fun _ => 0)
  malloc _ := true
  root := rootInode

lemma zeros_endless (turns : Nat) : walk zeros rootInode [97] turns 0 = none := by
  induction turns with
  | zero => rfl
  | succ turns ih => exact ih

/-- An entry of length 0 is passed again and again. -/
theorem zero_length_endless : ¬ ∀ (src : Source) (t : Tree) (path : Text) (expecttype : Expected),
    Right src t path expecttype := by
  intro right
  obtain ⟨turns, ends⟩ := right zeros oneFileTree [97] .reg
  obtain ⟨found, s, returned, -⟩ := ends turns (Nat.le_refl _)
  have stuck : ext2fsIterateDir zeros turns ⟨rootIno, some rootInode⟩ [97] = none :=
    zeros_endless turns
  obtain ⟨next, asks, stops, -⟩ := one_part zeros .reg [97] [97] (by decide)
  have endless : zeros.findFile turns [97] .reg = .error .endless := by
    rw [Source.findFile, asks, Prog.outcome]
    change Prog.outcome (next ⟨ext2fsIterateDir zeros turns ⟨rootIno, some rootInode⟩ [97], none⟩)
      _ = _
    rw [stuck, stops]
    rfl
  rw [endless] at returned
  cases returned

end Ext2Path
