import Mathlib.Data.List.Basic
import Mathlib.Algebra.GroupWithZero.Nat

/-!
# Byte-addressed memory

Memory is a total function from addresses to bytes. The operations are the two
C programs use, storing one byte and copying a block; `Holds` says which bytes
lie at an address.
-/

namespace ByteMemory

variable {a i : Nat} {bs : List UInt8}

abbrev Mem := Nat → UInt8

variable {m : Mem}

def store (m : Mem) (a : Nat) (b : UInt8) : Mem := fun i => if i = a then b else m i

def blit (m : Mem) (a : Nat) (bs : List UInt8) : Mem :=
  fun i => if a ≤ i then bs[i - a]?.getD (m i) else m i

def slice (m : Mem) : Nat → Nat → List UInt8
  | _, 0 => []
  | a, n + 1 => m a :: slice m (a + 1) n

def Holds (m : Mem) : Nat → List UInt8 → Prop
  | _, [] => True
  | a, b :: bs => m a = b ∧ Holds m (a + 1) bs

@[simp] theorem store_same (m : Mem) (a : Nat) (b : UInt8) : store m a b a = b := by
  simp [store]

lemma store_other (m : Mem) (b : UInt8) (h : i ≠ a) : store m a b i = m i := by
  simp [store, h]

lemma blit_before (m : Mem) (bs : List UInt8) (h : i < a) :
    blit m a bs i = m i := by
  simp [blit, Nat.not_le.mpr h]

lemma blit_after (m : Mem) (bs : List UInt8) (h : a + bs.length ≤ i) :
    blit m a bs i = m i := by
  have hi : a ≤ i := by omega
  have hout : bs.length ≤ i - a := by omega
  simp [blit, hi, List.getElem?_eq_none hout]

lemma blit_outside (m : Mem) (bs : List UInt8) (h : i < a ∨ a + bs.length ≤ i) :
    blit m a bs i = m i :=
  h.elim (blit_before m bs) (blit_after m bs)

lemma blit_inside (m : Mem) {j : Nat} (bs : List UInt8) (h : j < bs.length) :
    blit m a bs (a + j) = bs[j] := by
  simp [blit, h]

@[simp] theorem slice_length (m : Mem) (a n : Nat) : (slice m a n).length = n := by
  induction n generalizing a with
  | zero => rfl
  | succ n ih => simp [slice, ih]

lemma slice_append (m : Mem) (a n k : Nat) :
    slice m a (n + k) = slice m a n ++ slice m (a + n) k := by
  induction n generalizing a with
  | zero => simp [slice]
  | succ n ih =>
    have he : n + 1 + k = (n + k) + 1 := by omega
    have ha : a + 1 + n = a + (n + 1) := by omega
    rw [he, slice, slice, ih, ha, List.cons_append]

lemma slice_get (m : Mem) (a n j : Nat) (h : j < (slice m a n).length) :
    (slice m a n)[j] = m (a + j) := by
  induction n generalizing a j with
  | zero => simp [slice] at h
  | succ n ih =>
    cases j with
    | zero => rfl
    | succ j =>
      have ha : a + 1 + j = a + (j + 1) := by omega
      simpa [slice, ha] using ih (a + 1) j (by simpa [slice] using h)

lemma slice_congr {m' : Mem} {n : Nat} (h : ∀ i, a ≤ i → i < a + n → m i = m' i) :
    slice m a n = slice m' a n := by
  induction n generalizing a with
  | zero => rfl
  | succ n ih =>
    rw [slice, slice, h a (by omega) (by omega),
      ih (fun i hi hn => h i (by omega) (by omega))]

lemma holds_append {xs ys : List UInt8} :
    Holds m a (xs ++ ys) ↔ Holds m a xs ∧ Holds m (a + xs.length) ys := by
  induction xs generalizing a with
  | nil => simp [Holds]
  | cons x xs ih =>
    have he : a + 1 + xs.length = a + (xs.length + 1) := by omega
    simp [Holds, ih, he, and_assoc]

lemma holds_iff_get :
    Holds m a bs ↔ ∀ j (h : j < bs.length), m (a + j) = bs[j] := by
  induction bs generalizing a with
  | nil => simp [Holds]
  | cons b bs ih =>
    rw [Holds, ih]
    constructor
    · rintro ⟨hb, hbs⟩ j hj
      cases j with
      | zero => exact hb
      | succ j =>
        have he : a + 1 + j = a + (j + 1) := by omega
        have := hbs j (by simpa using hj)
        simpa [he] using this
    · intro h
      refine ⟨h 0 (by simp), fun j hj => ?_⟩
      have he : a + 1 + j = a + (j + 1) := by omega
      rw [he]
      exact h (j + 1) (by simpa using hj)

lemma holds_congr {m' : Mem} (h : ∀ i, a ≤ i → i < a + bs.length → m' i = m i)
    (held : Holds m a bs) :
    Holds m' a bs := by
  rw [holds_iff_get] at held ⊢
  intro j hj
  rw [h (a + j) (by omega) (by omega)]
  exact held j hj

lemma holds_blit (m : Mem) (a : Nat) (bs : List UInt8) : Holds (blit m a bs) a bs := by
  rw [holds_iff_get]
  intro j hj
  exact blit_inside m bs hj

lemma blit_slice (m m' : Mem) {b n : Nat} (ha : a ≤ i) (hi : i < a + n) :
    blit m a (slice m' b n) i = m' (b + (i - a)) := by
  have hj : i - a < (slice m' b n).length := by
    rw [slice_length]
    omega
  have he : a + (i - a) = i := by omega
  have hin := blit_inside m (a := a) (slice m' b n) hj
  rw [he] at hin
  exact hin.trans (slice_get m' b n (i - a) hj)

lemma blit_slice_apply (m m' : Mem) (a b n i : Nat) :
    blit m a (slice m' b n) i = if a ≤ i ∧ i < a + n then m' (b + (i - a)) else m i := by
  split_ifs with h
  · exact blit_slice m m' h.1 h.2
  · exact blit_outside m _ (by rw [slice_length]; omega)

@[simp] theorem blit_nil (m : Mem) (a : Nat) : blit m a [] = m := by
  funext i
  simp [blit]

lemma blit_store (m : Mem) (a : Nat) (b : UInt8) (bs : List UInt8) :
    blit (store m a b) (a + 1) bs = blit m a (b :: bs) := by
  funext i
  by_cases first : i = a
  · rw [first, blit_before _ _ (Nat.lt_succ_self a), store_same]
    exact (blit_inside m (a := a) (b :: bs) (j := 0) (Nat.succ_pos _)).symm
  by_cases before : i < a
  · rw [blit_before _ _ (Nat.lt_succ_of_lt before), blit_before _ _ before, store_other _ _ first]
  obtain ⟨k, rfl⟩ := Nat.exists_eq_add_of_lt (show a < i by omega)
  have low : a + 1 ≤ a + k + 1 := by omega
  have low' : a ≤ a + k + 1 := by omega
  have index : a + k + 1 - (a + 1) = k := by omega
  have index' : a + k + 1 - a = k + 1 := by omega
  simp only [blit, if_pos low, if_pos low', index, index', List.getElem?_cons_succ,
    store_other _ _ first]

lemma blit_block (m : Mem) (a : Nat) (bs : List UInt8) {n off : Nat} (len : Nat) (h : off ≤ n) :
    blit (blit m a (bs.take n)) (a + off) ((bs.drop off).take len) =
      blit m a (bs.take (max n (off + len))) := by
  funext i
  by_cases hoff : a + off ≤ i
  · obtain ⟨j, rfl⟩ := Nat.exists_eq_add_of_le hoff
    have hlow : a ≤ a + off + j := by omega
    have hj : a + off + j - a = off + j := by omega
    have hj' : a + off + j - (a + off) = j := by omega
    simp only [blit, if_pos hoff, if_pos hlow, hj, hj', List.getElem?_take, List.getElem?_drop]
    cases bs[off + j]? with
    | none => simp
    | some b =>
      by_cases hlen : j < len
      · have hmax : off + j < max n (off + len) := by omega
        simp [hlen, hmax]
      by_cases hn : off + j < n
      · have hmax : off + j < max n (off + len) := by omega
        simp [hlen, hn, hmax]
      · have hmax : ¬ off + j < max n (off + len) := by omega
        simp [hlen, hn, hmax]
  · have hbefore : blit (blit m a (bs.take n)) (a + off) ((bs.drop off).take len) i =
        blit m a (bs.take n) i := blit_before _ _ (by omega)
    rw [hbefore]
    by_cases hlow : a ≤ i
    · have hn : i - a < n := by omega
      have hmax : i - a < max n (off + len) := by omega
      simp only [blit, if_pos hlow, List.getElem?_take, if_pos hn, if_pos hmax]
    · simp only [blit, if_neg hlow]

lemma slice_of_holds (h : Holds m a bs) :
    slice m a bs.length = bs := by
  rw [holds_iff_get] at h
  apply List.ext_getElem (by simp)
  intro j hj hj'
  rw [slice_get, h j hj']

def ofBytes (bs : List UInt8) : Mem := fun i => bs.getD i 0

lemma holds_ofBytes (bs : List UInt8) : Holds (ofBytes bs) 0 bs := by
  rw [holds_iff_get]
  intro j hj
  simp [ofBytes, hj]

/-- The `n` low bytes of a number, the lowest first. -/
def leBytes : Nat → Nat → List UInt8
  | 0, _ => []
  | n + 1, v => UInt8.ofNat v :: leBytes n (v / 256)

def leValue : List UInt8 → Nat
  | [] => 0
  | b :: bs => b.toNat + 256 * leValue bs

@[simp] theorem leBytes_length (n v : Nat) : (leBytes n v).length = n := by
  induction n generalizing v with
  | zero => rfl
  | succ n ih => simp [leBytes, ih]

lemma leValue_leBytes (n v : Nat) : leValue (leBytes n v) = v % 256 ^ n := by
  induction n generalizing v with
  | zero => simp [leBytes, leValue, Nat.mod_one]
  | succ n ih =>
    have hlow : (UInt8.ofNat v).toNat = v % 256 := by simp
    rw [leBytes, leValue, ih, hlow, Nat.pow_succ, mul_comm (256 ^ n) 256, Nat.mod_mul]

def be16 (m : Mem) (a : Nat) : Nat := 256 * (m a).toNat + (m (a + 1)).toNat

def be32 (m : Mem) (a : Nat) : Nat := 65536 * be16 m a + be16 m (a + 2)

lemma be16_lt (m : Mem) (a : Nat) : be16 m a < 65536 := by
  have hhigh := (m a).toNat_lt
  have hlow := (m (a + 1)).toNat_lt
  simp only [be16]
  omega

end ByteMemory
