import UBoot.Lib.Align
import UBoot.Lib.Runs

/-!
# The NAND page cache of JFFS2 (fs/jffs2/jffs2_1pass.c)

`read_nand_cached` reads 16 pages of 512 bytes at a time and keeps the last 16 that it has read,
under their offset alone.
-/

namespace Jffs2Cache

open Runs

/-- What lives from call to call. Before `malloc` `nand_cache` is NULL, and `memory` is what stands
at that address. -/
structure State where
  flash : Nat → Nat → UInt8             -- the bytes of each device
  nandCache : Bool
  memory : Nat → UInt8
  nandCacheOff : UInt32

/-- A call for the current partition, whose device is `nand_info[num]`. A page fails if its read
reports an error, a corrected one as well; `left` is what such a read leaves in the buffer. -/
structure Call (sizes : Nat → UInt32) where
  num : Nat
  off : UInt32
  size : UInt32
  fails : Nat → Bool
  left : Nat → UInt8
  malloc : Option (Nat → UInt8)
  inside : off.toNat + size.toNat ≤ (sizes num).toNat

/-- What happens to the flash: it is read through the cache, or written behind it. -/
inductive Event (sizes : Nat → UInt32) where
  | call (c : Call sizes)
  | write (num : Nat) (bytes : Nat → UInt8)

def Readable (size : UInt32) (fails : Nat → Bool) (base : Nat) : Prop :=
  base + 8192 ≤ size.toNat ∧ ∀ i < 16, fails (base / 512 + i) = false

instance Readable.decidable (size : UInt32) (fails : Nat → Bool) (base : Nat) :
    Decidable (Readable size fails base) :=
  inferInstanceAs (Decidable (_ ∧ ∀ i < 16, _))

variable {sizes : Nat → UInt32}

/-- `nand_read` of NAND_CACHE_SIZE bytes: whether it returns 0, and the buffer behind it. -/
def nandRead (c : Call sizes) (bytes : Nat → UInt8) (base : Nat) (memory : Nat → UInt8) :
    Bool × (Nat → UInt8) :=
  if Readable (sizes c.num) c.fails base then (true, fun i => bytes (base + i))
  else if base + 8192 ≤ (sizes c.num).toNat then (false, c.left)
  else (false, memory)                  -- -EINVAL, nothing was read

/-- Not "(off + bytes_read < nand_cache_off) ||
(off + bytes_read >= nand_cache_off+NAND_CACHE_SIZE)" -/
def State.Hits (s : State) (position : UInt32) : Prop :=
  ¬ (position < s.nandCacheOff ∨ s.nandCacheOff + 8192 ≤ position)

instance State.Hits.decidable (s : State) (position : UInt32) : Decidable (s.Hits position) :=
  inferInstanceAs (Decidable (¬ _))

/-- The cache is filled from the page of the position on; `false` for "return -1". -/
def fill (c : Call sizes) (s : State) (position : UInt32) : Bool × State :=
  let s := { s with nandCacheOff := position &&& ~~~511 }
  match if s.nandCache then some s.memory else c.malloc with
  | none => (false, s)
  | some memory =>
    let read := nandRead c (s.flash c.num) s.nandCacheOff.toNat memory
    (read.1, { s with nandCache := true, memory := read.2 })

/-- The bytes that one `memcpy` takes out of the cache. -/
def State.copied (s : State) (position cpyBytes : UInt32) : List UInt8 :=
  (List.range cpyBytes.toNat).map fun i => s.memory ((position - s.nandCacheOff).toNat + i)

/-- "while (bytes_read < size)"; every pass copies a byte at least. -/
def readLoop (c : Call sizes) : (fuel : Nat) → State → (bytesRead : UInt32) → (buf : List UInt8) →
    Option (List UInt8) × State
  | 0, s, _, buf => (some buf, s)
  | fuel + 1, s, bytesRead, buf =>
    if bytesRead < c.size then
      let position := c.off + bytesRead
      let filled := if s.Hits position then (true, s) else fill c s position
      if filled.1 then
        let cpyBytes := min (filled.2.nandCacheOff + 8192 - position) (c.size - bytesRead)
        readLoop c fuel filled.2 (bytesRead + cpyBytes) (buf ++ filled.2.copied position cpyBytes)
      else (none, filled.2)
    else (some buf, s)

/-- `read_nand_cached`: the bytes in `buf` if it returns `size`, or `none` for -1. -/
def readNandCached (c : Call sizes) (s : State) : Option (List UInt8) × State :=
  readLoop c c.size.toNat s 0 []

def step (s : State) : Event sizes → Option State
  | .call c => some (readNandCached c s).2
  | .write num bytes => some { s with flash := fun n => if n = num then bytes else s.flash n }

def start (flash : Nat → Nat → UInt8) (memory : Nat → UInt8) : State :=
  ⟨flash, false, memory, 0xffffffff⟩

def onDevice (s : State) (num off size : Nat) : List UInt8 :=
  (List.range size).map fun i => s.flash num (off + i)

def Call.NeededFails (c : Call sizes) : Prop :=
  ∃ page, c.fails page ∧ page * 512 < c.off.toNat + c.size.toNat ∧ c.off.toNat < (page + 1) * 512

def Invisible (s : State) : Event sizes → Prop
  | .call c => match (readNandCached c s).1 with
    | some buf => buf = onDevice s c.num c.off.toNat c.size.toNat
    | none => c.NeededFails
  | .write _ _ => True

def served (s : State) (c : Call sizes) : Nat :=
  if s.Hits c.off then min (s.nandCacheOff.toNat + 8192 - c.off.toNat) c.size.toNat else 0

def Supplied (c : Call sizes) (nandCache : Bool) (position : Nat) : Prop :=
  position < c.off.toNat + c.size.toNat → (nandCache ∨ c.malloc.isSome) ∧
    ∀ k, position / 512 * 512 + 8192 * k < c.off.toNat + c.size.toNat →
      Readable (sizes c.num) c.fails (position / 512 * 512 + 8192 * k)

def Coherent (s : State) (c : Call sizes) : Prop :=
  ∀ i < served s c,
    s.memory (c.off.toNat - s.nandCacheOff.toNat + i) = s.flash c.num (c.off.toNat + i)

/-- Each 16 pages from the end of what the cache gives can be read and that is what stands on the
device, or a page that the call asks for cannot be read. -/
def Meets (s : State) : Event sizes → Prop
  | .call c => (Supplied c s.nandCache (c.off.toNat + served s c) ∧ Coherent s c) ∨
      (¬ Supplied c s.nandCache (c.off.toNat + served s c) ∧ c.NeededFails)
  | .write _ _ => True

variable {position bytesRead : UInt32}

section
variable {c : Call sizes} {s : State}

lemma State.hits_iff (position : UInt32) :
    s.Hits position ↔ s.nandCacheOff.toNat ≤ position.toNat ∧
      position.toNat < s.nandCacheOff.toNat + 8192 ∧ s.nandCacheOff.toNat + 8192 < 4294967296 := by
  have sum : (s.nandCacheOff + 8192).toNat = (s.nandCacheOff.toNat + 8192) % 4294967296 :=
    UInt32.toNat_add _ _
  rw [State.Hits, UInt32.lt_iff_toNat_lt, UInt32.le_iff_toNat_le, sum]
  omega

lemma page_toNat (position : UInt32) :
    (position &&& ~~~511).toNat = position.toNat / 512 * 512 := by
  rw [UInt32.toNat_and, mul_comm]
  exact Align.and_mask (w := 32) (k := 9) (by decide) position.toNat_lt

def filled (c : Call sizes) (s : State) (position : UInt32) : State where
  flash := s.flash
  nandCache := true
  memory := fun i => s.flash c.num (position.toNat / 512 * 512 + i)
  nandCacheOff := position &&& ~~~511

def Fillable (c : Call sizes) (nandCache : Bool) (position : Nat) : Prop :=
  (nandCache ∨ c.malloc.isSome) ∧ Readable (sizes c.num) c.fails (position / 512 * 512)

lemma fill_fillable (fillable : Fillable c s.nandCache position.toNat) :
    fill c s position = (true, filled c s position) := by
  obtain ⟨room, readable⟩ := fillable
  have some_memory : ∃ memory, (if s.nandCache then some s.memory else c.malloc) = some memory := by
    rcases room with cached | allocated
    · exact ⟨_, if_pos cached⟩
    · split
      · exact ⟨_, rfl⟩
      · exact Option.isSome_iff_exists.mp allocated
  obtain ⟨memory, some_memory⟩ := some_memory
  rw [fill]
  rw [some_memory]
  dsimp only
  rw [page_toNat, nandRead, if_pos readable]
  rfl

lemma fill_not_fillable (stuck : ¬ Fillable c s.nandCache position.toNat) :
    (fill c s position).1 = false := by
  rw [fill]
  cases some_memory : (if s.nandCache then some s.memory else c.malloc) with
  | none => rfl
  | some memory =>
    have room : s.nandCache ∨ c.malloc.isSome := by
      split at some_memory
      · exact .inl ‹_›
      · exact .inr (Option.isSome_iff_exists.mpr ⟨_, some_memory⟩)
    dsimp only
    rw [page_toNat, nandRead, if_neg fun readable => stuck ⟨room, readable⟩]
    split <;> rfl

lemma onDevice_append (num off size more : Nat) :
    onDevice s num off size ++ onDevice s num (off + size) more =
      onDevice s num off (size + more) := by
  rw [onDevice, onDevice, onDevice, List.range_add, List.map_append, List.map_map]
  congr 1
  refine List.map_congr_left fun i _ => ?_
  rw [Function.comp_apply, add_assoc]

lemma readLoop_fill {fuel : Nat} (more : bytesRead < c.size) (missed : ¬ s.Hits (c.off + bytesRead))
    (fillable : Fillable c s.nandCache (c.off + bytesRead).toNat) (buf : List UInt8) :
    readLoop c (fuel + 1) s bytesRead buf =
      let t := filled c s (c.off + bytesRead)
      let cpyBytes := min (t.nandCacheOff + 8192 - (c.off + bytesRead)) (c.size - bytesRead)
      readLoop c fuel t (bytesRead + cpyBytes)
        (buf ++ t.copied (c.off + bytesRead) cpyBytes) := by
  rw [readLoop, if_pos more]
  dsimp only
  rw [if_neg missed, fill_fillable fillable]
  rfl

lemma readLoop_stuck {fuel : Nat} (more : bytesRead < c.size)
    (missed : ¬ s.Hits (c.off + bytesRead))
    (stuck : ¬ Fillable c s.nandCache (c.off + bytesRead).toNat) (buf : List UInt8) :
    (readLoop c (fuel + 1) s bytesRead buf).1 = none := by
  rw [readLoop, if_pos more]
  dsimp only
  rw [if_neg missed, fill_not_fillable stuck]
  rfl

lemma supplied_iff {nandCache : Bool} {position : Nat}
    (inside : position < c.off.toNat + c.size.toNat) :
    Supplied c nandCache position ↔ Fillable c nandCache position ∧
      Supplied c true (min (position / 512 * 512 + 8192) (c.off.toNat + c.size.toNat)) := by
  constructor
  · intro supplied
    obtain ⟨room, readable⟩ := supplied inside
    have first := readable 0
    rw [mul_zero, add_zero] at first
    refine ⟨⟨room, first (by omega)⟩, fun less => ⟨.inl rfl, fun k more => ?_⟩⟩
    have next := readable (k + 1)
    rw [show position / 512 * 512 + 8192 * (k + 1) =
      min (position / 512 * 512 + 8192) (c.off.toNat + c.size.toNat) / 512 * 512 + 8192 * k by
        omega] at next
    exact next more
  · rintro ⟨⟨room, readable⟩, later⟩ -
    refine ⟨room, fun k more => ?_⟩
    cases k with
    | zero =>
      rw [mul_zero, add_zero]
      exact readable
    | succ k =>
      have next := (later (by omega)).2 k
      rw [show min (position / 512 * 512 + 8192) (c.off.toNat + c.size.toNat) / 512 * 512 +
        8192 * k = position / 512 * 512 + 8192 * (k + 1) by omega] at next
      exact next more

end

section
variable {c : Call sizes} {s : State}

lemma copied_filled {cpyBytes : UInt32} :
    (filled c s position).copied position cpyBytes =
      onDevice s c.num position.toNat cpyBytes.toNat := by
  refine List.map_congr_left fun i _ => ?_
  have page := page_toNat position
  have low : (position &&& ~~~511) ≤ position := by
    rw [UInt32.le_iff_toNat_le, page]
    omega
  change s.flash c.num (_ + ((position - (position &&& ~~~511)).toNat + i)) = _
  rw [UInt32.toNat_sub_of_le _ _ low, page]
  congr 1
  omega

lemma position_toNat (less : bytesRead.toNat ≤ c.size.toNat) :
    (c.off + bytesRead).toNat = c.off.toNat + bytesRead.toNat := by
  have inside := c.inside
  have bound := (sizes c.num).toNat_lt
  rw [UInt32.toNat_add]
  omega

lemma cpyBytes_toNat {bytesRead : UInt32} (less : bytesRead.toNat ≤ c.size.toNat)
    {nandCacheOff : UInt32} (low : nandCacheOff.toNat ≤ c.off.toNat + bytesRead.toNat)
    (high : c.off.toNat + bytesRead.toNat < nandCacheOff.toNat + 8192)
    (bound : nandCacheOff.toNat + 8192 < 4294967296) :
    (min (nandCacheOff + 8192 - (c.off + bytesRead)) (c.size - bytesRead)).toNat =
      min (nandCacheOff.toNat + 8192 - (c.off.toNat + bytesRead.toNat))
        (c.size.toNat - bytesRead.toNat) := by
  have position := position_toNat less
  have top : (nandCacheOff + 8192).toNat = nandCacheOff.toNat + 8192 := by
    rw [UInt32.toNat_add]
    exact Nat.mod_eq_of_lt bound
  have window : (nandCacheOff + 8192 - (c.off + bytesRead)).toNat =
      nandCacheOff.toNat + 8192 - (c.off.toNat + bytesRead.toNat) := by
    rw [UInt32.toNat_sub_of_le _ _ (by rw [UInt32.le_iff_toNat_le]; omega), top, position]
  have rest : (c.size - bytesRead).toNat = c.size.toNat - bytesRead.toNat :=
    UInt32.toNat_sub_of_le _ _ (UInt32.le_iff_toNat_le.mpr less)
  rw [UInt32.toNat_min, window, rest]

lemma readLoop_missed {fuel : Nat} {bytesRead : UInt32} {buf : List UInt8}
    (less : bytesRead.toNat ≤ c.size.toNat)
    (missed : bytesRead.toNat < c.size.toNat → ¬ s.Hits (c.off + bytesRead))
    (enough : c.size.toNat ≤ bytesRead.toNat + fuel) :
    (Supplied c s.nandCache (c.off.toNat + bytesRead.toNat) →
      (readLoop c fuel s bytesRead buf).1 =
        some (buf ++ onDevice s c.num (c.off.toNat + bytesRead.toNat)
          (c.size.toNat - bytesRead.toNat))) ∧
      (¬ Supplied c s.nandCache (c.off.toNat + bytesRead.toNat) →
        (readLoop c fuel s bytesRead buf).1 = none) := by
  induction fuel generalizing s bytesRead buf with
  | zero =>
    have all : bytesRead.toNat = c.size.toNat := by omega
    refine ⟨fun _ => ?_, fun unsupplied => absurd (fun more => ?_) unsupplied⟩
    · rw [all, Nat.sub_self, onDevice, List.range_zero, List.map_nil, List.append_nil]
      rfl
    · omega
  | succ fuel ih =>
    by_cases more : bytesRead.toNat < c.size.toNat
    · have position := position_toNat less
      have supplied_iff := @supplied_iff _ c s.nandCache (c.off.toNat + bytesRead.toNat) (by omega)
      by_cases fillable : Fillable c s.nandCache (c.off.toNat + bytesRead.toNat)
      · have bound := (sizes c.num).toNat_lt
        have room : (c.off.toNat + bytesRead.toNat) / 512 * 512 + 8192 ≤ (sizes c.num).toNat :=
          fillable.2.1
        have page : (filled c s (c.off + bytesRead)).nandCacheOff.toNat =
            (c.off.toNat + bytesRead.toNat) / 512 * 512 := by
          rw [← position]
          exact page_toNat _
        rw [readLoop_fill (UInt32.lt_iff_toNat_lt.mpr more) (missed more)
          (position.symm ▸ fillable)]
        dsimp only
        generalize count : min ((filled c s (c.off + bytesRead)).nandCacheOff + 8192 -
          (c.off + bytesRead)) (c.size - bytesRead) = cpyBytes
        have copied : cpyBytes.toNat =
            min ((c.off.toNat + bytesRead.toNat) / 512 * 512 + 8192 -
              (c.off.toNat + bytesRead.toNat)) (c.size.toNat - bytesRead.toNat) := by
          rw [← count, cpyBytes_toNat less (by omega) (by omega) (by omega), page]
        have further : (bytesRead + cpyBytes).toNat = bytesRead.toNat + cpyBytes.toNat := by
          rw [UInt32.toNat_add]
          omega
        have ahead : c.off.toNat + (bytesRead + cpyBytes).toNat =
            min ((c.off.toNat + bytesRead.toNat) / 512 * 512 + 8192)
              (c.off.toNat + c.size.toNat) := by
          omega
        have left : c.size.toNat - bytesRead.toNat =
            cpyBytes.toNat + (c.size.toNat - (bytesRead + cpyBytes).toNat) := by
          omega
        obtain ⟨delivered, stopped⟩ := @ih (filled c s (c.off + bytesRead)) (bytesRead + cpyBytes)
          (buf ++ (filled c s (c.off + bytesRead)).copied (c.off + bytesRead) cpyBytes)
          (by omega)
          (fun more => by
            have next : (c.off + (bytesRead + cpyBytes)).toNat =
                c.off.toNat + (bytesRead + cpyBytes).toNat :=
              position_toNat (by omega)
            rw [State.hits_iff]
            omega)
          (by omega)
        rw [ahead] at delivered stopped
        rw [supplied_iff]
        constructor
        · rintro ⟨-, supplied⟩
          rw [delivered supplied, copied_filled, position, List.append_assoc, ← ahead, further,
            ← add_assoc]
          change some (buf ++ (_ ++ onDevice s c.num _ _)) = _
          rw [onDevice_append, left, further]
        · intro unsupplied
          exact stopped fun supplied => unsupplied ⟨fillable, supplied⟩
      · refine ⟨fun supplied => absurd (supplied_iff.mp supplied).1 fillable, fun _ => ?_⟩
        exact readLoop_stuck (UInt32.lt_iff_toNat_lt.mpr more) (missed more)
          (position.symm ▸ fillable) buf
    · have all : bytesRead.toNat = c.size.toNat := by omega
      refine ⟨fun _ => ?_, fun unsupplied => absurd (fun more => ?_) unsupplied⟩
      · rw [readLoop, if_neg fun less => more (UInt32.lt_iff_toNat_lt.mp less), all, Nat.sub_self,
          onDevice, List.range_zero, List.map_nil, List.append_nil]
      · omega

end

section
variable {c : Call sizes} {s : State}

lemma served_le : served s c ≤ c.size.toNat := by
  rw [served]
  split
  · exact min_le_right _ _
  · exact Nat.zero_le _

lemma readLoop_served {fuel : Nat} (hits : s.Hits c.off) (more : 0 < c.size.toNat) :
    ∃ cpyBytes : UInt32, cpyBytes.toNat = served s c ∧
      readLoop c (fuel + 1) s 0 [] = readLoop c fuel s cpyBytes (s.copied c.off cpyBytes) := by
  have window := (State.hits_iff _).mp hits
  refine ⟨min (s.nandCacheOff + 8192 - (c.off + 0)) (c.size - 0), ?_, ?_⟩
  · have length := @cpyBytes_toNat _ c 0 (Nat.zero_le _) s.nandCacheOff window.1 window.2.1
      window.2.2
    rw [length, served, if_pos hits]
    rfl
  · have some_left : (0 : UInt32) < c.size := UInt32.lt_iff_toNat_lt.mpr more
    rw [readLoop, if_pos some_left]
    dsimp only
    rw [UInt32.add_zero, if_pos hits, if_pos rfl, UInt32.zero_add, List.nil_append]

lemma readNandCached_spec (c : Call sizes) (s : State) :
    (Supplied c s.nandCache (c.off.toNat + served s c) →
      (readNandCached c s).1 =
        some ((List.range (served s c)).map (fun i =>
            s.memory (c.off.toNat - s.nandCacheOff.toNat + i)) ++
          onDevice s c.num (c.off.toNat + served s c) (c.size.toNat - served s c))) ∧
      (¬ Supplied c s.nandCache (c.off.toNat + served s c) → (readNandCached c s).1 = none) := by
  by_cases hits : s.Hits c.off
  · cases size : c.size.toNat with
    | zero =>
      have none_served : served s c = 0 := Nat.le_zero.mp (size ▸ served_le)
      refine ⟨fun _ => ?_, fun unsupplied => absurd (fun more => ?_) unsupplied⟩
      · rw [readNandCached, size, none_served]
        rfl
      · omega
    | succ fuel =>
      obtain ⟨cpyBytes, copied, pass⟩ := @readLoop_served _ c s fuel hits (by omega)
      have window := (State.hits_iff _).mp hits
      have less := @served_le _ c s
      have behind (more : cpyBytes.toNat < c.size.toNat) : ¬ s.Hits (c.off + cpyBytes) := by
        rw [served, if_pos hits] at copied
        rw [State.hits_iff, position_toNat (le_of_lt more)]
        omega
      have some_served : 0 < served s c := by
        rw [served, if_pos hits]
        omega
      obtain ⟨delivered, stopped⟩ := @readLoop_missed _ c s fuel cpyBytes
        (s.copied c.off cpyBytes) (by omega) behind (by omega)
      have low : (c.off - s.nandCacheOff).toNat = c.off.toNat - s.nandCacheOff.toNat :=
        UInt32.toNat_sub_of_le _ _ (UInt32.le_iff_toNat_le.mpr window.1)
      rw [State.copied, low, copied, size] at delivered
      rw [copied] at stopped
      rw [readNandCached, size, pass]
      rw [State.copied, low, copied] at stopped ⊢
      exact ⟨delivered, stopped⟩
  · have none_served : served s c = 0 := if_neg hits
    obtain ⟨delivered, stopped⟩ := @readLoop_missed _ c s c.size.toNat 0 [] (Nat.zero_le _)
      (fun _ => by rwa [UInt32.add_zero]) (by omega)
    have zero : (0 : UInt32).toNat = 0 := rfl
    rw [zero, add_zero] at delivered stopped
    rw [none_served]
    exact ⟨delivered, stopped⟩

lemma coherent_iff :
    (List.range (served s c)).map (fun i =>
        s.memory (c.off.toNat - s.nandCacheOff.toNat + i)) =
      onDevice s c.num c.off.toNat (served s c) ↔ Coherent s c := by
  rw [onDevice, List.map_inj_left]
  exact forall_congr' fun i => by rw [List.mem_range]

lemma invisible_iff (s : State) (e : Event sizes) : Invisible s e ↔ Meets s e := by
  cases e with
  | write num bytes => exact Iff.rfl
  | call c =>
    obtain ⟨delivered, stopped⟩ := readNandCached_spec c s
    by_cases supplied : Supplied c s.nandCache (c.off.toNat + served s c)
    · have whole : onDevice s c.num c.off.toNat c.size.toNat =
          onDevice s c.num c.off.toNat (served s c) ++
            onDevice s c.num (c.off.toNat + served s c) (c.size.toNat - served s c) := by
        rw [onDevice_append, Nat.add_sub_of_le served_le]
      have exactly : Invisible s (.call c) ↔ Coherent s c := by
        rw [Invisible, delivered supplied, whole]
        dsimp only
        rw [List.append_left_inj, coherent_iff]
      rw [exactly, Meets]
      exact ⟨fun coherent => .inl ⟨supplied, coherent⟩,
        fun meets => meets.elim And.right fun stuck => absurd supplied stuck.1⟩
    · rw [Invisible, stopped supplied, Meets]
      exact ⟨fun needed => .inr ⟨supplied, needed⟩,
        fun meets => meets.elim (fun supply => absurd supply.1 supplied) And.right⟩

def Fresh (s : State) (num : Nat) : Prop :=
  ∀ i < 8192, s.nandCacheOff.toNat + 8192 < 4294967296 →
    s.memory i = s.flash num (s.nandCacheOff.toNat + i)

lemma filled_fresh (c : Call sizes) (s : State) (position : UInt32) :
    Fresh (filled c s position) c.num := by
  intro i less bound
  change _ = s.flash c.num ((position &&& ~~~511).toNat + i)
  rw [page_toNat]
  rfl

lemma Fresh.coherent (fresh : Fresh s c.num) : Coherent s c := by
  intro i less
  rw [served] at less
  split at less
  · have window := (State.hits_iff _).mp ‹_›
    rw [fresh _ (by omega) window.2.2]
    congr 1
    omega
  · exact absurd less (Nat.not_lt_zero i)

lemma Fresh.readLoop (fresh : Fresh s c.num) {fuel : Nat} {bytesRead : UInt32} {buf : List UInt8}
    (returned : (readLoop c fuel s bytesRead buf).1 ≠ none) :
    Fresh (readLoop c fuel s bytesRead buf).2 c.num := by
  induction fuel generalizing s bytesRead buf with
  | zero => exact fresh
  | succ fuel ih =>
    rw [Jffs2Cache.readLoop] at returned ⊢
    by_cases more : bytesRead < c.size
    · rw [if_pos more] at returned ⊢
      dsimp only at returned ⊢
      by_cases hits : s.Hits (c.off + bytesRead)
      · rw [if_pos hits] at returned ⊢
        exact ih fresh returned
      rw [if_neg hits] at returned ⊢
      by_cases fillable : Fillable c s.nandCache (c.off + bytesRead).toNat
      · rw [fill_fillable fillable] at returned ⊢
        exact ih (filled_fresh c s _) returned
      · rw [fill_not_fillable fillable] at returned
        exact absurd rfl returned
    · rwa [if_neg more]

end

/-- In any run of calls and writes, each call returns the bytes that are on its device now or fails
because of a page that it asks for, if and only if for each call either the 16 pages of all its
fills can be read and the part that the cache gives stands on the device, or one of its fills cannot
be made and a page that it asks for cannot be read. -/
theorem cache_invisible_iff (flash : Nat → Nat → UInt8) (memory : Nat → UInt8)
    (events : List (Event sizes)) :
    StepsMeet step Invisible (start flash memory) events ↔
      StepsMeet step Meets (start flash memory) events :=
  @stepsMeet_congr _ _ step Invisible Meets (fun _ => True) (fun _ _ _ _ _ => trivial)
    (fun s e _ => invisible_iff s e) _ trivial events

def Succeeds (num : Nat) (s : State) : Event sizes → Prop
  | .call c => c.num = num ∧ (readNandCached c s).1 ≠ none
  | .write _ _ => False

lemma one_device_invisible (flash : Nat → Nat → UInt8) (memory : Nat → UInt8) (num : Nat)
    (events : List (Event sizes))
    (succeed : StepsMeet step (Succeeds num) (start flash memory) events) :
    StepsMeet step Invisible (start flash memory) events := by
  refine @stepsMeet_of_invariant _ _ step (Succeeds num) Invisible (fun s => Fresh s num)
    (fun s e t fresh succeeds next => ?_) (fun s e fresh succeeds => ?_) _ (fun i _ bound => ?_) _
    succeed
  · cases e with
    | write num bytes => exact succeeds.elim
    | call c =>
      obtain ⟨rfl, returned⟩ := succeeds
      cases next
      exact fresh.readLoop returned
  · cases e with
    | write num bytes => exact succeeds.elim
    | call c =>
      obtain ⟨rfl, returned⟩ := succeeds
      rw [invisible_iff]
      by_cases supplied : Supplied c s.nandCache (c.off.toNat + served s c)
      · exact .inl ⟨supplied, fresh.coherent⟩
      · exact absurd ((readNandCached_spec c s).2 supplied) returned
  · have behind : ¬ (0xffffffff : UInt32).toNat + 8192 < 4294967296 := by decide
    exact absurd bound behind

def twoDevices : State :=
  start (fun num _ => if num = 0 then 1 else 2) fun _ => 0

def fourBytes (num : Nat) (off : UInt32) (inside : off.toNat + 4 ≤ 0x4000000) :
    Call fun _ => 0x4000000 :=
  ⟨num, off, 4, fun _ => false, fun _ => 0, some fun _ => 0, inside⟩

/-- The second device is read out of the cache of the first, and the last page of a device cannot be
read at all. -/
theorem cache_seen :
    ¬ StepsMeet step Invisible twoDevices
      [.call (fourBytes 0 0 (by decide)), .call (fourBytes 1 0 (by decide))] ∧
    ¬ StepsMeet step Invisible twoDevices [.call (fourBytes 0 0x3fffe00 (by decide))] := by
  constructor
  · rintro ⟨-, later⟩
    obtain ⟨second, -⟩ := later _ rfl
    have delivered : (readNandCached (fourBytes 1 0 (by decide))
        (readNandCached (fourBytes 0 0 (by decide)) twoDevices).2).1 = some [1, 1, 1, 1] := by
      decide +kernel
    rw [Invisible, delivered] at second
    exact absurd second (by decide +kernel)
  · rintro ⟨first, -⟩
    have stopped : (readNandCached (fourBytes 0 0x3fffe00 (by decide)) twoDevices).1 = none := by
      decide +kernel
    rw [Invisible, stopped] at first
    obtain ⟨page, failed, -⟩ := first
    exact absurd failed Bool.false_ne_true

end Jffs2Cache
