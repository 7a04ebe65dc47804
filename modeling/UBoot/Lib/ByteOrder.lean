import Mathlib.Algebra.Order.Ring.Nat
import Mathlib.Data.List.Basic
import Mathlib.Data.Nat.Bits

/-!
# Words in memory

## Little-endian words

A word is a number, read from the bytes that it has in memory. Masks and shifts of words are said
in terms of these bytes.
-/

namespace LittleEndian

variable {n : Nat}

def word : (n : Nat) → (Nat → UInt8) → Nat
  | 0, _ => 0
  | n + 1, f => (f 0).toNat + 256 * word n fun i => f (i + 1)

def byte (w i : Nat) : UInt8 := UInt8.ofNat (w >>> (8 * i))

lemma word_congr {f g : Nat → UInt8} (same : ∀ i < n, f i = g i) :
    word n f = word n g := by
  induction n generalizing f g with
  | zero => rfl
  | succ n ih =>
    rw [word, word, same 0 (Nat.succ_pos n),
      ih fun i low => same (i + 1) (Nat.succ_lt_succ low)]

lemma word_lt (n : Nat) (f : Nat → UInt8) : word n f < 256 ^ n := by
  induction n generalizing f with
  | zero => exact Nat.one_pos
  | succ n ih =>
    have rest := ih fun i => f (i + 1)
    have first := (f 0).toNat_lt
    rw [word, Nat.pow_succ]
    omega

lemma word_mod (n : Nat) (f : Nat → UInt8) : word (n + 1) f % 2 ^ 8 = (f 0).toNat := by
  have first := (f 0).toNat_lt
  rw [word]
  omega

lemma word_div (n : Nat) (f : Nat → UInt8) :
    word (n + 1) f / 2 ^ 8 = word n fun i => f (i + 1) := by
  have first := (f 0).toNat_lt
  rw [word]
  omega

lemma byte_word {i : Nat} (f : Nat → UInt8) (inside : i < n) : byte (word n f) i = f i := by
  induction i generalizing n f with
  | zero =>
    obtain ⟨n, rfl⟩ := Nat.exists_eq_succ_of_ne_zero (Nat.ne_of_gt inside)
    apply UInt8.toNat_inj.mp
    rw [byte, mul_zero, Nat.shiftRight_zero, UInt8.toNat_ofNat', word_mod]
  | succ i ih =>
    obtain ⟨n, rfl⟩ := Nat.exists_eq_succ_of_ne_zero (Nat.ne_of_gt (Nat.zero_lt_of_lt inside))
    rw [byte, Nat.mul_succ, add_comm, Nat.shiftRight_add, Nat.shiftRight_eq_div_pow _ 8,
      word_div]
    exact ih (fun i => f (i + 1)) (Nat.lt_of_succ_lt_succ inside)

lemma word_byte {w : Nat} (low : w < 256 ^ n) : word n (byte w) = w := by
  induction n generalizing w with
  | zero =>
    rw [Nat.pow_zero, Nat.lt_one_iff] at low
    exact low.symm
  | succ n ih =>
    have rest : word n (byte (w / 256)) = w / 256 := by
      apply ih
      rw [Nat.pow_succ] at low
      exact Nat.div_lt_of_lt_mul (by rwa [mul_comm])
    have shifted : (fun i => byte w (i + 1)) = byte (w / 256) := by
      funext i
      rw [byte, byte, Nat.mul_succ, add_comm, Nat.shiftRight_add,
        Nat.shiftRight_eq_div_pow w 8]
    have first : (byte w 0).toNat = w % 256 := UInt8.toNat_ofNat'
    rw [word, shifted, rest, first]
    exact Nat.mod_add_div w 256

lemma word_mod_pow {m : Nat} (short : m ≤ n) (f : Nat → UInt8) :
    word n f % 256 ^ m = word m f := by
  induction m generalizing n f with
  | zero => exact Nat.mod_one _
  | succ m ih =>
    obtain ⟨n, rfl⟩ := Nat.exists_eq_add_one_of_ne_zero (Nat.ne_of_gt (Nat.zero_lt_of_lt short))
    have first : word (n + 1) f % 256 = (f 0).toNat := word_mod n f
    have rest : word (n + 1) f / 256 = word n fun i => f (i + 1) := word_div n f
    rw [Nat.pow_succ, mul_comm, Nat.mod_mul, first, rest, ih (Nat.le_of_succ_le_succ short)]
    rfl

lemma word_of_zero {m : Nat} {f : Nat → UInt8} (short : m ≤ n) (zero : ∀ i, m ≤ i → i < n → f i = 0)
    : word n f = word m f := by
  induction n generalizing m f with
  | zero =>
    rw [Nat.le_zero.mp short]
  | succ n ih =>
    cases m with
    | zero =>
      have rest : word n (fun i => f (i + 1)) = word 0 fun i => f (i + 1) :=
        ih (Nat.zero_le n) fun i _ high => zero (i + 1) (Nat.zero_le _) (Nat.succ_lt_succ high)
      rw [word, word, rest, zero 0 (Nat.le_refl 0) (Nat.succ_pos n)]
      rfl
    | succ m =>
      rw [word, word, ih (Nat.le_of_succ_le_succ short)]
      intro i low high
      exact zero (i + 1) (Nat.succ_le_succ low) (Nat.succ_lt_succ high)

lemma word_byte_mod (n w : Nat) : word n (byte w) = w % 256 ^ n := by
  have long : w < 256 ^ max n w :=
    lt_of_lt_of_le (Nat.lt_pow_self (by decide))
      (Nat.pow_le_pow_right (by decide) (Nat.le_max_right n w))
  rw [← word_mod_pow (Nat.le_max_left n w), word_byte long]

lemma land_word_iff (n : Nat) (f g : Nat → UInt8) :
    word n f &&& word n g = word n g ↔ ∀ i < n, f i &&& g i = g i := by
  induction n generalizing f g with
  | zero => exact iff_of_true (Nat.and_self _) (fun i low => absurd low (Nat.not_lt_zero i))
  | succ n ih =>
    have low : (word (n + 1) f &&& word (n + 1) g) % 2 ^ 8 = (f 0 &&& g 0).toNat := by
      rw [Nat.and_mod_two_pow, word_mod, word_mod, UInt8.toNat_and]
    have high : (word (n + 1) f &&& word (n + 1) g) / 2 ^ 8 =
        (word n fun i => f (i + 1)) &&& word n fun i => g (i + 1) := by
      rw [Nat.and_div_two_pow, word_div, word_div]
    constructor
    · intro same i inside
      cases i with
      | zero =>
        apply UInt8.toNat_inj.mp
        rw [← low, same, word_mod]
      | succ i =>
        rw [same, word_div] at high
        exact (ih _ _).mp high.symm i (Nat.lt_of_succ_lt_succ inside)
    · intro bytes
      have first : (word (n + 1) f &&& word (n + 1) g) % 2 ^ 8 = word (n + 1) g % 2 ^ 8 := by
        rw [low, bytes 0 (Nat.succ_pos n), word_mod]
      have rest : (word (n + 1) f &&& word (n + 1) g) / 2 ^ 8 = word (n + 1) g / 2 ^ 8 := by
        rw [high, word_div]
        exact (ih _ _).mpr fun i inside => bytes (i + 1) (Nat.succ_lt_succ inside)
      rw [← Nat.mod_add_div (word (n + 1) f &&& word (n + 1) g) (2 ^ 8), first, rest,
        Nat.mod_add_div]

def shiftIn (n w : Nat) (c : UInt8) : Nat := (w >>> 8) ||| (c.toNat <<< (8 * (n - 1)))

lemma shiftIn_word (some_bytes : 0 < n) (f : Nat → UInt8) (c : UInt8) :
    shiftIn n (word n f) c = word n fun i => if i + 1 < n then f (i + 1) else c := by
  obtain ⟨n, rfl⟩ := Nat.exists_eq_add_one_of_ne_zero (Nat.ne_of_gt some_bytes)
  have rest := word_lt n fun i => f (i + 1)
  have last (n : Nat) (f : Nat → UInt8) :
      word (n + 1) (fun i => if i < n then f i else c) = word n f + 256 ^ n * c.toNat := by
    induction n generalizing f with
    | zero => simp [word]
    | succ n ih =>
      have later : (fun i => if i + 1 < n + 1 then f (i + 1) else c) =
          fun i => if i < n then f (i + 1) else c := by
        funext i
        simp only [Nat.add_lt_add_iff_right]
      rw [word, later, ih, word, if_pos (Nat.succ_pos n), Nat.pow_succ, mul_add,
        ← mul_assoc, mul_comm 256 (256 ^ n), add_assoc]
  have base : 2 ^ (8 * n) = 256 ^ n := by rw [Nat.pow_mul]
  have moved : (fun i => if i + 1 < n + 1 then f (i + 1) else c) =
      fun i => if i < n then f (i + 1) else c := by
    funext i
    simp only [Nat.add_lt_add_iff_right]
  rw [shiftIn, Nat.shiftRight_eq_div_pow, word_div, Nat.add_sub_cancel, moved,
    last n fun i => f (i + 1), Nat.or_comm, Nat.shiftLeft_eq, mul_comm c.toNat, base]
  rw [← base] at rest ⊢
  rw [← Nat.two_pow_add_eq_or_of_lt rest, add_comm]

lemma foldl_shiftIn {bytes : List UInt8} (length : bytes.length = n) (f : Nat → UInt8) :
    bytes.foldl (shiftIn n) (word n f) = word n fun i => bytes.getD i 0 := by
  have push (done : List UInt8) (f : Nat → UInt8) (short : done.length ≤ n) :
      done.foldl (shiftIn n) (word n f) = word n fun i =>
        if i + done.length < n then f (i + done.length) else done.getD (i + done.length - n) 0 := by
    induction done generalizing f with
    | nil =>
      apply word_congr
      intro i low
      rw [List.length_nil, add_zero, if_pos low]
    | cons c done ih =>
      have room : done.length < n := short
      rw [List.foldl_cons, shiftIn_word (Nat.zero_lt_of_lt room), ih _ (le_of_lt room)]
      apply word_congr
      intro i low
      rw [List.length_cons]
      by_cases inside : i + done.length < n
      · rw [if_pos inside]
        by_cases more : i + done.length + 1 < n
        · rw [if_pos more, if_pos (by omega)]
          rfl
        rw [if_neg more, if_neg (by omega)]
        have first : i + (done.length + 1) - n = 0 := by omega
        rw [first]
        rfl
      · rw [if_neg inside, if_neg (by omega)]
        have next : i + (done.length + 1) - n = i + done.length - n + 1 := by omega
        rw [next, List.getD_cons_succ]
  rw [push bytes f (le_of_eq length)]
  apply word_congr
  intro i _
  rw [length, if_neg (by omega), Nat.add_sub_cancel]

end LittleEndian

/-!
## Big-endian words of 32 bits
-/

namespace BigEndian

def bytes (w : UInt32) : List UInt8 :=
  [UInt8.ofNat (w.toNat / 16777216), UInt8.ofNat (w.toNat / 65536), UInt8.ofNat (w.toNat / 256),
    UInt8.ofNat w.toNat]

def word (a b c d : UInt8) : UInt32 :=
  UInt32.ofNat (16777216 * a.toNat + 65536 * b.toNat + 256 * c.toNat + d.toNat)

def wordAt (bs : List UInt8) (i : Nat) : UInt32 :=
  word (bs.getD i 0) (bs.getD (i + 1) 0) (bs.getD (i + 2) 0) (bs.getD (i + 3) 0)

@[simp] lemma bytes_length (w : UInt32) : (bytes w).length = 4 := rfl

lemma word_toNat (a b c d : UInt8) : (word a b c d).toNat =
    16777216 * a.toNat + 65536 * b.toNat + 256 * c.toNat + d.toNat := by
  have := a.toNat_lt
  have := b.toNat_lt
  have := c.toNat_lt
  have := d.toNat_lt
  rw [word, UInt32.toNat_ofNat']
  omega

lemma wordAt_bytes (w : UInt32) : wordAt (bytes w) 0 = w := by
  apply UInt32.toNat_inj.mp
  have bound := w.toNat_lt
  change (word _ _ _ _).toNat = w.toNat
  rw [word_toNat]
  simp only [bytes, List.getD_cons_zero, List.getD_cons_succ, UInt8.toNat_ofNat']
  omega

lemma wordAt_append (bs : List UInt8) (i : Nat) (cs : List UInt8) (inside : i + 4 ≤ bs.length) :
    wordAt (bs ++ cs) i = wordAt bs i := by
  have at_ (j : Nat) (h : j < bs.length) : (bs ++ cs).getD j 0 = bs.getD j 0 := by
    rw [List.getD_eq_getElem?_getD, List.getD_eq_getElem?_getD, List.getElem?_append_left h]
  simp only [wordAt, at_ i (by omega), at_ (i + 1) (by omega), at_ (i + 2) (by omega),
    at_ (i + 3) (by omega)]

lemma wordAt_drop (bs : List UInt8) (n i : Nat) : wordAt (bs.drop n) i = wordAt bs (n + i) := by
  simp only [wordAt, List.getD_eq_getElem?_getD, List.getElem?_drop, add_assoc]

lemma wordAt_front (w : UInt32) (bs : List UInt8) : wordAt (bytes w ++ bs) 0 = w := by
  rw [wordAt_append _ _ _ (Nat.le_refl 4), wordAt_bytes]

lemma wordAt_behind (i : Nat) (w : UInt32) (bs : List UInt8) :
    wordAt (bytes w ++ bs) (4 + i) = wordAt bs i := by
  rw [← wordAt_drop, ← bytes_length w, List.drop_left]

end BigEndian
