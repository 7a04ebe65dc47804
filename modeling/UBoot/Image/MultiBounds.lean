import UBoot.Image.Multi

/-!
# The table of a multi-component image and the end of its data

The table ends with its first zero word, wherever that is, and the place of a component is a sum of
sizes that are read from it.
-/

namespace Image

open Memory32

/-- The addresses of the words that `image_multi_count` reads. -/
def lookedAt (mem : Mem) : Nat → UInt32 → List UInt32
  | 0, _ => []
  | fuel + 1, size => size :: if wordOf mem size = 0 then [] else lookedAt mem fuel (size + 4)

def InData (mem : Mem) (hdr start len : UInt32) : Prop :=
  (start - getData hdr).toNat + len.toNat ≤ (headerAt mem hdr).size.toNat

def StaysInside (mem : Mem) (hdr : UInt32) : Prop :=
  ∃ fuel count, imageMultiCount fuel mem hdr = some count ∧
    (∀ p ∈ lookedAt mem fuel (getData hdr), InData mem hdr p 4) ∧
    ∀ idx < count, ∃ data len, imageMultiGetimg fuel mem hdr idx = some (data, len) ∧
      InData mem hdr data len

def sizeAt (mem : Mem) (hdr : UInt32) (i : Nat) : UInt32 :=
  wordOf mem (getData hdr + UInt32.ofNat (4 * i))

def sizesBefore (mem : Mem) (hdr : UInt32) : Nat → Nat
  | 0 => 0
  | i + 1 => sizesBefore mem hdr i + ((sizeAt mem hdr i).toNat + 3) / 4 * 4

/-- The table has `count` entries, and its end is in the data. -/
structure Table (mem : Mem) (hdr : UInt32) (count : Nat) : Prop where
  inside : 4 * (count + 1) ≤ (headerAt mem hdr).size.toNat
  stop : sizeAt mem hdr count = 0
  entries : ∀ i < count, sizeAt mem hdr i ≠ 0

def SizesFit (mem : Mem) (hdr : UInt32) (count : Nat) : Prop :=
  ∀ idx < count, (4 * (count + 1) + sizesBefore mem hdr idx) % 4294967296 +
    (sizeAt mem hdr idx).toNat ≤ (headerAt mem hdr).size.toNat

variable {mem : Mem} {hdr : UInt32}

lemma countFrom_first {fuel : Nat} {a count : UInt32}
    (counted : countFrom mem fuel a = some count) :
    ∃ n, count = UInt32.ofNat n ∧ wordOf mem (a + UInt32.ofNat (4 * n)) = 0 ∧
      (∀ i < n, wordOf mem (a + UInt32.ofNat (4 * i)) ≠ 0) ∧
      a + UInt32.ofNat (4 * n) ∈ lookedAt mem fuel a := by
  induction fuel generalizing a count with
  | zero => cases counted
  | succ fuel ih =>
    rw [countFrom] at counted
    by_cases zero : wordOf mem a = 0
    · rw [if_pos zero] at counted
      refine ⟨0, (Option.some.inj counted).symm, ?_,
        fun i below => absurd below (Nat.not_lt_zero i), ?_⟩
      · rw [mul_zero]
        exact (congrArg (wordOf mem) (UInt32.add_zero a)).trans zero
      · rw [lookedAt, mul_zero]
        exact List.mem_cons.mpr (.inl (UInt32.add_zero a))
    rw [if_neg zero] at counted
    obtain ⟨rest, found, rfl⟩ := Option.map_eq_some_iff.mp counted
    obtain ⟨n, rfl, stop, entries, last⟩ := ih found
    refine ⟨n + 1, ?_, ?_, ?_, ?_⟩
    · rw [UInt32.ofNat_add, UInt32.add_comm]
      rfl
    · rw [next_entry]
      exact stop
    · intro i below
      cases i with
      | zero =>
        rw [mul_zero]
        exact fun first => zero ((congrArg (wordOf mem) (UInt32.add_zero a)).symm.trans first)
      | succ i =>
        rw [next_entry]
        exact entries i (Nat.lt_of_succ_lt_succ below)
    · rw [next_entry, lookedAt, if_neg zero]
      exact List.mem_cons_of_mem _ last

lemma countFrom_reaches {a : UInt32} {n : Nat} (stop : wordOf mem (a + UInt32.ofNat (4 * n)) = 0)
    (entries : ∀ i < n, wordOf mem (a + UInt32.ofNat (4 * i)) ≠ 0) :
    countFrom mem (n + 1) a = some (UInt32.ofNat n) ∧
      ∀ p ∈ lookedAt mem (n + 1) a, ∃ i ≤ n, p = a + UInt32.ofNat (4 * i) := by
  induction n generalizing a with
  | zero =>
    have zero : wordOf mem a = 0 := (congrArg (wordOf mem) (UInt32.add_zero a)).symm.trans stop
    rw [countFrom, if_pos zero, lookedAt, if_pos zero]
    refine ⟨rfl, fun p first => ⟨0, Nat.le_refl 0, ?_⟩⟩
    rw [List.mem_singleton.mp first, mul_zero]
    exact (UInt32.add_zero a).symm
  | succ n ih =>
    have first : wordOf mem a ≠ 0 := by
      have entry := entries 0 (Nat.succ_pos n)
      rw [mul_zero] at entry
      exact fun zero => entry ((congrArg (wordOf mem) (UInt32.add_zero a)).trans zero)
    rw [next_entry] at stop
    obtain ⟨counted, looked⟩ := ih stop fun i below => by
      rw [← next_entry]
      exact entries (i + 1) (Nat.succ_lt_succ below)
    rw [countFrom, if_neg first, counted, lookedAt, if_neg first]
    constructor
    · rw [Option.map_some, UInt32.ofNat_add, UInt32.add_comm]
      rfl
    · intro p member
      rcases List.mem_cons.mp member with rfl | later
      · exact ⟨0, Nat.zero_le _, (UInt32.add_zero p).symm⟩
      · obtain ⟨i, below, rfl⟩ := looked p later
        exact ⟨i + 1, Nat.succ_le_succ below, (next_entry a i).symm⟩

lemma roundUp_wraps (x : UInt32) :
    ((x + 3) &&& ~~~3).toNat = (x.toNat + 3) / 4 * 4 % 4294967296 := by
  have mask : (~~~3 : UInt32).toNat = 2 ^ 32 - 1 - (2 ^ 2 - 1) := rfl
  have three : (3 : UInt32).toNat = 3 := rfl
  rw [UInt32.toNat_and, mask, Align.and_mask (by decide) (UInt32.toNat_lt _), UInt32.toNat_add,
    three]
  omega

lemma offsetOf_toNat (mem : Mem) (hdr : UInt32) (i : Nat) :
    (offsetOf mem (getData hdr) i).toNat = sizesBefore mem hdr i % 4294967296 := by
  induction i with
  | zero => rfl
  | succ i ih =>
    rw [offsetOf, UInt32.toNat_add, ih, roundUp_wraps, sizesBefore, sizeAt]
    omega

lemma from_start (start p : UInt32) : start + p - start = p := by
  rw [UInt32.add_comm, UInt32.add_sub_cancel]

lemma getimg_component {fuel n : Nat} {idx : UInt32} (small : n < 1073741823)
    (counted : imageMultiCount fuel mem hdr = some (UInt32.ofNat n)) (below : idx.toNat < n) :
    ∃ data len, imageMultiGetimg fuel mem hdr idx = some (data, len) ∧
      (InData mem hdr data len ↔
        (4 * (n + 1) + sizesBefore mem hdr idx.toNat) % 4294967296 +
          (sizeAt mem hdr idx.toNat).toNat ≤ (headerAt mem hdr).size.toNat) := by
  have number : (UInt32.ofNat n).toNat = n :=
    UInt32.toNat_ofNat_of_lt' (lt_trans small (by decide))
  have valid : idx < UInt32.ofNat n := by
    rw [UInt32.lt_iff_toNat_lt, number]
    exact below
  have got : imageMultiGetimg fuel mem hdr idx =
      some (getData hdr + (UInt32.ofNat n + 1) * 4 + offsetOf mem (getData hdr) idx.toNat,
        sizeAt mem hdr idx.toNat) := by
    rw [imageMultiGetimg, counted, Option.map_some]
    exact congrArg some (if_pos valid)
  refine ⟨_, _, got, ?_⟩
  have four : (4 : UInt32).toNat = 4 := rfl
  have start : (getData hdr + (UInt32.ofNat n + 1) * 4 + offsetOf mem (getData hdr) idx.toNat -
      getData hdr).toNat = (4 * (n + 1) + sizesBefore mem hdr idx.toNat) % 4294967296 := by
    rw [UInt32.add_assoc, from_start, UInt32.toNat_add, UInt32.toNat_mul, UInt32.toNat_add, number,
      UInt32.toNat_one, four, offsetOf_toNat]
    omega
  rw [InData, start]

lemma first_zero_small {n : Nat} (stop : sizeAt mem hdr n = 0)
    (entries : ∀ i < n, sizeAt mem hdr i ≠ 0) : n < 1073741824 := by
  refine Nat.lt_of_not_le fun far => ?_
  apply entries (n - 1073741824) (by omega)
  have same : UInt32.ofNat (4 * (n - 1073741824)) = UInt32.ofNat (4 * n) := by
    apply UInt32.toNat_inj.mp
    rw [UInt32.toNat_ofNat', UInt32.toNat_ofNat']
    omega
  rw [sizeAt, same]
  exact stop

lemma entry_inData (i : Nat) (small : i < 1073741824) :
    InData mem hdr (getData hdr + UInt32.ofNat (4 * i)) 4 ↔
      4 * (i + 1) ≤ (headerAt mem hdr).size.toNat := by
  have four : (4 : UInt32).toNat = 4 := rfl
  rw [InData, from_start, UInt32.toNat_ofNat', four]
  omega

/-- For every header and payload: the readers stay inside the data if and only if the table ends
there and its sizes fit. -/
theorem stays_inside_iff (mem : Mem) (hdr : UInt32) :
    StaysInside mem hdr ↔ ∃ count, Table mem hdr count ∧ SizesFit mem hdr count := by
  have size := (headerAt mem hdr).size.toNat_lt
  constructor
  · rintro ⟨fuel, count, counted, looked, components⟩
    obtain ⟨n, rfl, stop, entries, last⟩ := countFrom_first counted
    have inside := (entry_inData n (first_zero_small stop entries)).mp (looked _ last)
    refine ⟨n, ⟨inside, stop, entries⟩, fun idx below => ?_⟩
    have number : (UInt32.ofNat idx).toNat = idx := by
      rw [UInt32.toNat_ofNat']
      omega
    have mine : (UInt32.ofNat idx).toNat < n := by omega
    obtain ⟨data, len, got, fits⟩ := getimg_component (by omega) counted mine
    obtain ⟨data', len', got', there⟩ := components (UInt32.ofNat idx) (by
      rw [UInt32.lt_iff_toNat_lt, number, UInt32.toNat_ofNat']
      omega)
    obtain ⟨rfl, rfl⟩ := Prod.mk.inj (Option.some.inj (got'.symm.trans got))
    rw [number] at fits
    exact fits.mp there
  · rintro ⟨n, table, fit⟩
    have inside := table.inside
    obtain ⟨counted, looked⟩ := countFrom_reaches table.stop table.entries
    refine ⟨n + 1, UInt32.ofNat n, counted, fun p member => ?_, fun idx below => ?_⟩
    · obtain ⟨i, within, rfl⟩ := looked p member
      exact (entry_inData i (by omega)).mpr (by omega)
    · have below : idx.toNat < n := by
        rw [UInt32.lt_iff_toNat_lt, UInt32.toNat_ofNat'] at below
        omega
      obtain ⟨data, len, got, fits⟩ := getimg_component (by omega) counted below
      exact ⟨data, len, got, fits.mpr (fit idx.toNat below)⟩

def endlessTable : List UInt8 :=
  (setHeader (multiParams false) 0 [0, 0, 0, 5]).bytes ++ [0, 0, 0, 5]
def endlessMem : Mem := fun a => endlessTable.getD a.toNat 0

theorem endlessTable_leaves :
    (checkMagic endlessMem 0 = true ∧ checkHcrc endlessMem 0 = true ∧
      checkDcrc endlessMem 0 = true ∧ (headerAt endlessMem 0).type = typeMulti) ∧
      ¬ StaysInside endlessMem 0 := by
  refine ⟨by decide +kernel, ?_⟩
  rintro ⟨fuel, count, counted, looked, -⟩
  obtain ⟨n, rfl, stop, entries, last⟩ := countFrom_first counted
  have inside := (entry_inData n (first_zero_small stop entries)).mp (looked _ last)
  have size : (headerAt endlessMem 0).size.toNat = 4 := by decide +kernel
  obtain rfl : n = 0 := by omega
  exact absurd stop (by decide +kernel)

end Image
