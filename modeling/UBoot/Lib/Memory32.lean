import Mathlib.Algebra.Group.Nat.Defs

/-!
# Memory behind 32-bit addresses

Pointers wrap at 2 ^ 32. A copy loop stores one byte after the other; `copyBytes_eq` says
what it leaves at every address, `memmove_eq` what a move inside the memory leaves.
-/

namespace Memory32

abbrev Mem := UInt32 → UInt8

variable {mem : Mem}

def store (mem : Mem) (p : UInt32) (b : UInt8) : Mem := fun a => if a = p then b else mem a

def copyBytes (source : Nat → UInt8) : (left i : Nat) → UInt32 → Mem → Mem
  | 0, _, _, mem => mem
  | left + 1, i, p, mem => copyBytes source left (i + 1) (p + 1) (store mem p (source i))

lemma offset_toNat (p : UInt32) {k : Nat} (bound : k < 4294967296) :
    (p + UInt32.ofNat k - p).toNat = k := by
  rw [UInt32.add_comm, UInt32.add_sub_cancel, UInt32.toNat_ofNat']
  exact Nat.mod_eq_of_lt bound

lemma offset_injective {start : UInt32} {j k : Nat} (j_lt : j < 4294967296)
    (k_lt : k < 4294967296) (same : start + UInt32.ofNat j = start + UInt32.ofNat k) : j = k := by
  rw [← offset_toNat start j_lt, same, offset_toNat start k_lt]

lemma toNat_sub_succ {a p : UInt32} (h : a ≠ p) : (a - (p + 1)).toNat + 1 = (a - p).toNat := by
  have different : a.toNat ≠ p.toNat := fun same => h (UInt32.toNat_inj.mp same)
  have := a.toNat_lt
  have := p.toNat_lt
  simp only [UInt32.toNat_sub, UInt32.toNat_add, UInt32.toNat_one]
  omega

lemma toNat_sub_add (a p q : UInt32) : (a - (p + q)).toNat =
    if q.toNat ≤ (a - p).toNat then (a - p).toNat - q.toNat
    else (a - p).toNat + (4294967296 - q.toNat) := by
  have := p.toNat_lt
  have := q.toNat_lt
  simp only [UInt32.toNat_sub, UInt32.toNat_add]
  split <;> omega

lemma sub_offset (a p : UInt32) {k : Nat} (bound : k < 4294967296) :
    (a - (p + UInt32.ofNat k)).toNat =
      if k ≤ (a - p).toNat then (a - p).toNat - k else (a - p).toNat + (4294967296 - k) := by
  have moved := toNat_sub_add a p (UInt32.ofNat k)
  rwa [UInt32.toNat_ofNat_of_lt' bound] at moved

lemma copyBytes_eq (source : Nat → UInt8) (left i : Nat) (p : UInt32) (mem : Mem)
    (short : left < 4294967296) (a : UInt32) :
    copyBytes source left i p mem a =
      if (a - p).toNat < left then source (i + (a - p).toNat) else mem a := by
  induction left generalizing i p mem with
  | zero => simp [copyBytes]
  | succ left ih =>
    rw [copyBytes, ih (i + 1) (p + 1) _ (by omega)]
    by_cases here : a = p
    · subst here
      have past : ¬ (a - (a + 1)).toNat < left := by
        simp only [UInt32.toNat_sub, UInt32.toNat_add, UInt32.toNat_one]
        omega
      rw [if_neg past]
      simp [store]
    · have next := toNat_sub_succ here
      rw [store, if_neg here, ← next]
      simp only [Nat.add_lt_add_iff_right]
      split
      · congr 1
        omega
      · rfl

def filled (old : Mem) (dst : UInt32) (source : Nat → UInt8) (n : Nat) : Mem := fun a =>
  if (a - dst).toNat < n then source (a - dst).toNat else old a

@[simp] lemma filled_zero (old : Mem) (dst : UInt32) (source : Nat → UInt8) :
    filled old dst source 0 = old := by
  funext a
  exact if_neg (Nat.not_lt_zero _)

lemma filled_congr {old : Mem} {dst : UInt32} {source source' : Nat → UInt8} {n : Nat}
    (same : ∀ i < n, source i = source' i) :
    filled old dst source n = filled old dst source' n := by
  funext a
  by_cases inside : (a - dst).toNat < n
  · rw [filled, filled, if_pos inside, if_pos inside, same _ inside]
  · rw [filled, filled, if_neg inside, if_neg inside]

lemma copyBytes_filled {source : Nat → UInt8} {left i : Nat} {p : UInt32}
    (short : left < 4294967296) :
    copyBytes source left i p mem = filled mem p (fun k => source (i + k)) left := by
  funext a
  exact copyBytes_eq source left i p mem short a

lemma filled_append (old : Mem) (dst : UInt32) (source : Nat → UInt8) {k n : Nat}
    (short : k + n < 4294967296) :
    filled (filled old dst source k) (dst + UInt32.ofNat k) (fun i => source (k + i)) n =
      filled old dst source (k + n) := by
  funext a
  have moved := sub_offset a dst (k := k) (by omega)
  simp only [filled]
  rw [moved]
  by_cases first : (a - dst).toNat < k
  · rw [if_neg (Nat.not_le.mpr first), if_neg (by omega), if_pos first, if_pos (by omega)]
  have there : k + ((a - dst).toNat - k) = (a - dst).toNat := by omega
  rw [if_pos (Nat.le_of_not_lt first), there, if_neg first]
  by_cases second : (a - dst).toNat < k + n
  · rw [if_pos (by omega), if_pos second]
  · rw [if_neg (by omega), if_neg second]

variable {count : Nat}

def copyUp : (count : Nat) → (tmp s : UInt32) → Mem → Mem
  | 0, _, _, mem => mem
  | count + 1, tmp, s, mem => copyUp count (tmp + 1) (s + 1) (store mem tmp (mem s))

def copyDown : (count : Nat) → (tmp s : UInt32) → Mem → Mem
  | 0, _, _, mem => mem
  | count + 1, tmp, s, mem => copyDown count (tmp - 1) (s - 1) (store mem (tmp - 1) (mem (s - 1)))

/-- `memmove`: from below or from above, so that the source is read before it is overwritten. -/
def memmove (dest src : UInt32) (count : Nat) (mem : Mem) : Mem :=
  if dest ≤ src then copyUp count dest src mem
  else copyDown count (dest + UInt32.ofNat count) (src + UInt32.ofNat count) mem

/-- What `[dest, dest + count)` gets from `src`. -/
def moved (dest src : UInt32) (count : Nat) (mem : Mem) : Mem := fun a =>
  if (a - dest).toNat < count then mem (src + (a - dest)) else mem a

lemma moved_self (dest : UInt32) (count : Nat) (mem : Mem) : moved dest dest count mem = mem := by
  funext a
  have same : dest + (a - dest) = a := by grind
  rw [moved, same, ite_self]

lemma copyUp_eq {dest src : UInt32} (short : count < 4294967296)
    (unread : ∀ i j, i < j → j < count → dest + UInt32.ofNat i ≠ src + UInt32.ofNat j) :
    copyUp count dest src mem = moved dest src count mem := by
  induction count generalizing dest src mem with
  | zero =>
    funext a
    simp [copyUp, moved]
  | succ count ih =>
    have rest : ∀ i j, i < j → j < count →
        dest + 1 + UInt32.ofNat i ≠ src + 1 + UInt32.ofNat j := by
      intro i j low high same
      apply unread (i + 1) (j + 1) (by omega) (by omega)
      rw [add_comm i, add_comm j, UInt32.ofNat_add, UInt32.ofNat_add,
        ← UInt32.add_assoc, ← UInt32.add_assoc]
      exact same
    rw [copyUp, ih (by omega) rest]
    funext a
    by_cases here : a = dest
    · subst here
      have past : ¬ (a - (a + 1)).toNat < count := by
        simp only [UInt32.toNat_sub, UInt32.toNat_add, UInt32.toNat_one]
        omega
      rw [moved, if_neg past]
      simp [moved, store]
    have next := toNat_sub_succ here
    have from_src : src + 1 + (a - (dest + 1)) = src + (a - dest) := by grind
    simp only [moved, from_src, ← next, Nat.add_lt_add_iff_right]
    split
    · rename_i inside
      have other : src + (a - dest) ≠ dest := by
        intro same
        apply unread 0 (a - dest).toNat (by omega) (by omega)
        rw [UInt32.ofNat_toNat, same]
        exact UInt32.add_zero dest
      exact if_neg other
    · exact if_neg here

lemma copyDown_eq {dest src : UInt32} (short : count < 4294967296)
    (unread : ∀ i j, j < i → i < count → dest + UInt32.ofNat i ≠ src + UInt32.ofNat j) :
    copyDown count (dest + UInt32.ofNat count) (src + UInt32.ofNat count) mem =
      moved dest src count mem := by
  induction count generalizing mem with
  | zero =>
    funext a
    simp [copyDown, moved]
  | succ count ih =>
    have back (p : UInt32) : p + UInt32.ofNat (count + 1) - 1 = p + UInt32.ofNat count := by
      rw [UInt32.ofNat_add, ← UInt32.add_assoc]
      exact UInt32.add_sub_cancel _ 1
    rw [copyDown, back, back, ih (by omega) (fun i j low high => unread i j low (by omega))]
    funext a
    have spot : a = dest + UInt32.ofNat count ↔ (a - dest).toNat = count := by
      constructor
      · rintro rfl
        exact offset_toNat dest (by omega)
      · rintro rfl
        rw [UInt32.ofNat_toNat]
        grind
    by_cases inside : (a - dest).toNat < count
    · have other : src + (a - dest) ≠ dest + UInt32.ofNat count := by
        intro same
        apply unread count (a - dest).toNat inside (by omega)
        rw [UInt32.ofNat_toNat, same]
      simp only [moved, if_pos inside, if_pos (Nat.lt_succ_of_lt inside)]
      exact if_neg other
    · simp only [moved, if_neg inside]
      by_cases top : (a - dest).toNat = count
      · rw [if_pos (by omega), store, if_pos (spot.mpr top), ← top, UInt32.ofNat_toNat]
      · rw [if_neg (by omega), store, if_neg (mt spot.mp top)]

lemma memmove_eq {dest src : UInt32} (low : count ≤ src.toNat)
    (high : src.toNat + count ≤ 4294967296) :
    memmove dest src count mem = moved dest src count mem := by
  have dest_lt := dest.toNat_lt
  have far (p : UInt32) (k : Nat) : (p + UInt32.ofNat k).toNat = (p.toNat + k) % 4294967296 := by
    rw [UInt32.toNat_add, UInt32.toNat_ofNat', Nat.add_mod_mod]
  rw [memmove]
  split
  · rename_i below
    rw [UInt32.le_iff_toNat_le] at below
    apply copyUp_eq (by omega)
    intro i j _ _ same
    have := congrArg UInt32.toNat same
    rw [far, far] at this
    omega
  · rename_i above
    rw [UInt32.le_iff_toNat_le] at above
    apply copyDown_eq (by omega)
    intro i j _ _ same
    have := congrArg UInt32.toNat same
    rw [far, far] at this
    omega

def bytesAt (mem : Mem) (a : UInt32) (n : Nat) : List UInt8 :=
  (List.range n).map fun i => mem (a + UInt32.ofNat i)

@[simp] lemma bytesAt_length (mem : Mem) (a : UInt32) (n : Nat) :
    (bytesAt mem a n).length = n := by
  simp [bytesAt]

lemma bytesAt_add (mem : Mem) (a : UInt32) (n k : Nat) :
    bytesAt mem a (n + k) = bytesAt mem a n ++ bytesAt mem (a + UInt32.ofNat n) k := by
  simp only [bytesAt, List.range_add, List.map_append, List.map_map]
  congr 1
  apply List.map_congr_left
  intro i _
  simp only [Function.comp_apply, UInt32.ofNat_add, UInt32.add_assoc]

lemma bytesAt_append {a : UInt32} {xs ys : List UInt8} :
    bytesAt mem a (xs ++ ys).length = xs ++ ys ↔ bytesAt mem a xs.length = xs ∧
      bytesAt mem (a + UInt32.ofNat xs.length) ys.length = ys := by
  rw [List.length_append, bytesAt_add]
  constructor
  · exact fun same => List.append_inj same (bytesAt_length mem a xs.length)
  · rintro ⟨first, second⟩
    rw [first, second]

lemma bytesAt_congr {mem' : Mem} {a b : UInt32} {n : Nat}
    (same : ∀ i < n, mem (a + UInt32.ofNat i) = mem' (b + UInt32.ofNat i)) :
    bytesAt mem a n = bytesAt mem' b n :=
  List.map_congr_left fun i inside => same i (List.mem_range.mp inside)

lemma bytesAt_moved (dest src : UInt32) (mem : Mem) (short : count < 4294967296) :
    bytesAt (moved dest src count mem) dest count = bytesAt mem src count := by
  apply bytesAt_congr
  intro i inside
  have offset := offset_toNat dest (k := i) (by omega)
  rw [moved, offset, if_pos inside]
  congr 2
  grind

end Memory32
