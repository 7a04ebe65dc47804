import Mathlib.Algebra.BigOperators.Group.List.Basic
import Mathlib.Algebra.GroupWithZero.Nat
import Mathlib.Data.List.Nodup

/-!
# Checksums

## Table-driven checksums

A reflected 32-bit CRC is a fold of one table step over the message. If the top
bytes of the table are pairwise distinct the step is injective in the register
and in the byte, so two messages that differ in one byte never collide.
-/

namespace TableCrc

/-- `crc = table[(crc ^ byte) & 0xff] ^ (crc >> 8)`. -/
def step (table : UInt8 → UInt32) (crc : UInt32) (byte : UInt8) : UInt32 :=
  table (crc.toUInt8 ^^^ byte) ^^^ (crc >>> 8)

def register (table : UInt8 → UInt32) (crc : UInt32) (bytes : List UInt8) : UInt32 :=
  bytes.foldl (step table) crc

def TopInjective (table : UInt8 → UInt32) : Prop :=
  ∀ i j, table i >>> 24 = table j >>> 24 → i = j

variable {table : UInt8 → UInt32}

lemma step_top (crc : UInt32) (byte : UInt8) :
    step table crc byte >>> 24 = table (crc.toUInt8 ^^^ byte) >>> 24 := by
  have gone : (crc >>> 8) >>> 24 = 0 := by
    apply UInt32.toNat_inj.mp
    have h := crc.toNat_lt
    simp only [UInt32.toNat_shiftRight, Nat.shiftRight_eq_div_pow]
    change crc.toNat / 2 ^ 8 / 2 ^ 24 = 0
    omega
  rw [step, UInt32.shiftRight_xor, gone, UInt32.xor_zero]

lemma split_eq {x y : UInt32} (low : x.toUInt8 = y.toUInt8)
    (high : x >>> 8 = y >>> 8) : x = y := by
  apply UInt32.toNat_inj.mp
  have hl := congrArg UInt8.toNat low
  have hh := congrArg UInt32.toNat high
  simp only [UInt32.toNat_toUInt8] at hl
  simp only [UInt32.toNat_shiftRight, Nat.shiftRight_eq_div_pow] at hh
  change x.toNat / 2 ^ 8 = y.toNat / 2 ^ 8 at hh
  omega

lemma step_injective (top : TopInjective table) (byte : UInt8) {x y : UInt32}
    (same : step table x byte = step table y byte) : x = y := by
  have hindex : x.toUInt8 ^^^ byte = y.toUInt8 ^^^ byte := by
    apply top
    rw [← step_top x byte, ← step_top y byte, same]
  have hlow : x.toUInt8 = y.toUInt8 := by
    simpa [UInt8.xor_assoc] using congrArg (· ^^^ byte) hindex
  have hhigh : x >>> 8 = y >>> 8 := by
    rw [step, step, hindex] at same
    simpa [← UInt32.xor_assoc] using congrArg (table (y.toUInt8 ^^^ byte) ^^^ ·) same
  exact split_eq hlow hhigh

lemma step_byte_injective (top : TopInjective table) (crc : UInt32) {a b : UInt8}
    (same : step table crc a = step table crc b) : a = b := by
  have hindex : crc.toUInt8 ^^^ a = crc.toUInt8 ^^^ b := by
    apply top
    rw [← step_top crc a, ← step_top crc b, same]
  simpa [← UInt8.xor_assoc] using congrArg (crc.toUInt8 ^^^ ·) hindex

lemma register_injective (top : TopInjective table) (bytes : List UInt8) {x y : UInt32}
    (same : register table x bytes = register table y bytes) : x = y := by
  induction bytes generalizing x y with
  | nil => exact same
  | cons b rest ih => exact step_injective top b (ih same)

lemma register_detects_byte (top : TopInjective table) (crc : UInt32)
    (before after : List UInt8) {a b : UInt8} (differ : a ≠ b) :
    register table crc (before ++ a :: after) ≠ register table crc (before ++ b :: after) := by
  intro same
  simp only [register, List.foldl_append, List.foldl_cons] at same
  exact differ (step_byte_injective top _ (register_injective top after same))

end TableCrc

/-!
## The ones'-complement sum

The sum of 16-bit words whose carry comes in again at the low end, as the checksum of the Internet
protocols takes it. It is the plain sum modulo 65535, with 65535 for every multiple but zero; and
it verifies in one byte order if and only if it does in the other.
-/

namespace OnesComplement

def carry (n : Nat) : Nat := n % 65536 + n / 65536

def sum (ws : List Nat) : Nat := ws.foldl (fun s w => carry (s + w)) 0

def words : List UInt8 → List Nat
  | [] => []
  | [a] => [256 * a.toNat]
  | a :: b :: rest => (256 * a.toNat + b.toNat) :: words rest

def wordsLe : List UInt8 → List Nat
  | [] => []
  | [a] => [a.toNat]
  | a :: b :: rest => (a.toNat + 256 * b.toNat) :: wordsLe rest

def Verifies (bs : List UInt8) : Prop := sum (words bs) = 65535

lemma carry_mod (n : Nat) : carry n % 65535 = n % 65535 := by
  unfold carry
  omega

lemma carry_eq_zero (n : Nat) : carry n = 0 ↔ n = 0 := by
  unfold carry
  omega

lemma carry_lt {n : Nat} (bound : n ≤ 131070) : carry n < 65536 := by
  unfold carry
  omega

lemma carry_carry_lt {n : Nat} (bound : n < 2 ^ 32) : carry (carry n) < 65536 := by
  apply carry_lt
  unfold carry
  omega

lemma foldl_carry (ws : List Nat) (small : ∀ w ∈ ws, w < 65536) (s : Nat) (low : s < 65536) :
    let t := ws.foldl (fun s w => carry (s + w)) s
    t < 65536 ∧ t % 65535 = (s + ws.sum) % 65535 ∧ (t = 0 ↔ s + ws.sum = 0) := by
  induction ws generalizing s with
  | nil => exact ⟨low, rfl, Iff.rfl⟩
  | cons w ws ih =>
    have first := small w List.mem_cons_self
    have kept := carry_mod (s + w)
    have zero := carry_eq_zero (s + w)
    obtain ⟨bound, value, none_⟩ := ih (fun x mem => small x (List.mem_cons_of_mem w mem))
      (carry (s + w)) (carry_lt (by omega))
    rw [List.sum_cons, List.foldl_cons]
    exact ⟨bound, by omega, by omega⟩

lemma sum_eq_ones {ws : List Nat} (small : ∀ w ∈ ws, w < 65536) :
    sum ws = 65535 ↔ ws.sum % 65535 = 0 ∧ ws.sum ≠ 0 := by
  obtain ⟨bound, value, none_⟩ := foldl_carry ws small 0 (Nat.succ_pos _)
  rw [zero_add] at value none_
  unfold sum
  omega

lemma words_small (bs : List UInt8) : ∀ w ∈ words bs, w < 65536 := by
  induction bs using words.induct with
  | case1 => exact fun w mem => (List.not_mem_nil mem).elim
  | case2 a =>
    intro w mem
    have byte := a.toNat_lt
    rw [List.mem_singleton.mp mem]
    omega
  | case3 a b rest ih =>
    intro w mem
    have high := a.toNat_lt
    have low := b.toNat_lt
    rcases List.mem_cons.mp mem with rfl | mem
    · omega
    · exact ih w mem

lemma wordsLe_sum (bs : List UInt8) :
    (wordsLe bs).sum % 65535 = 256 * (words bs).sum % 65535 ∧
      ((wordsLe bs).sum = 0 ↔ (words bs).sum = 0) := by
  induction bs using words.induct with
  | case1 => exact ⟨rfl, Iff.rfl⟩
  | case2 a =>
    simp only [words, wordsLe, List.sum_cons, List.sum_nil]
    omega
  | case3 a b rest ih =>
    simp only [words, wordsLe, List.sum_cons]
    omega

lemma verifies_iff (bs : List UInt8) :
    Verifies bs ↔ (wordsLe bs).sum % 65535 = 0 ∧ (wordsLe bs).sum ≠ 0 := by
  obtain ⟨swapped, zero⟩ := wordsLe_sum bs
  rw [Verifies, sum_eq_ones (words_small bs)]
  omega

lemma wordsLe_append (xs ys : List UInt8) (even : xs.length % 2 = 0) :
    wordsLe (xs ++ ys) = wordsLe xs ++ wordsLe ys := by
  induction xs using words.induct with
  | case1 => rfl
  | case2 a => simp at even
  | case3 a b rest ih =>
    have tail : rest.length % 2 = 0 := by
      simp only [List.length_cons] at even
      omega
    simp only [List.cons_append, wordsLe, ih tail]

end OnesComplement
